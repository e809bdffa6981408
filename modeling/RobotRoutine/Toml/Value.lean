import RobotRoutine.Number.Binary64

/-!
Values of settings files.

Dates and times are only told apart from all else.  A decimal beyond the range of double precision
is a value of its own, which nothing can be read from.
-/

namespace RobotRoutine.Toml

inductive Value where
  | string (text : String)
  | integer (value : Int)
  | float (value : Binary64)
  | floatBeyondRange
  | boolean (value : Bool)
  | moment
  | array (items : List Value)
  | table (members : List (String × Value))

namespace Value

/-- Integers that some reader could ask for: those of 128 bits, signed or unsigned. -/
def integerIsReadable (value : Int) : Bool :=
  decide (-(2 ^ 127 : Int) ≤ value ∧ value < 2 ^ 128)

mutual

/-- True of values that can be passed over; an unreadable number cannot even be skipped. -/
def isReadable : Value → Bool
  | string _ => true
  | integer value => integerIsReadable value
  | float _ => true
  | floatBeyondRange => false
  | boolean _ => true
  | moment => true
  | array items => areReadable items
  | table members => membersAreReadable members

def areReadable : List Value → Bool
  | [] => true
  | item :: rest => item.isReadable && areReadable rest

def membersAreReadable : List (String × Value) → Bool
  | [] => true
  | (_, value) :: rest => value.isReadable && membersAreReadable rest

end

end Value

end RobotRoutine.Toml
