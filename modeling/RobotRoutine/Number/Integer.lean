import RobotRoutine.Number.Rounding

/-!
Integers written in decimal.

A written integer is a sign, where one is allowed, followed by at least one ASCII digit, and its
value must lie in the range asked for.
-/

namespace RobotRoutine.Number

def digitValue? (c : Char) : Option Nat :=
  if c.isDigit then some (c.toNat - 48) else none

/-- The value of a run of ASCII digits, read from the left onto `value`. -/
def digitsOnto? (value : Nat) : List Char → Option Nat
  | [] => some value
  | c :: rest =>
      match digitValue? c with
      | some d => digitsOnto? (value * 10 + d) rest
      | none => none

def digits? : List Char → Option Nat
  | [] => none
  | cs => digitsOnto? 0 cs

/-- An unsigned integer below `limit`; a plus sign may stand before it. -/
def unsigned? (limit : Nat) (text : String) : Option Nat :=
  let digits := match text.toList with
    | '+' :: rest => rest
    | cs => cs
  (digits? digits).filter (· < limit)

/-- A signed integer of `width` bits; a plus or minus sign may stand before it. -/
def signed? (width : Nat) (text : String) : Option Int :=
  let value := match text.toList with
    | '+' :: rest => (digits? rest).map Int.ofNat
    | '-' :: rest => (digits? rest).map fun n => - Int.ofNat n
    | cs => (digits? cs).map Int.ofNat
  value.filter fun n => decide (-(2 ^ (width - 1) : Int) ≤ n ∧ n < 2 ^ (width - 1))

end RobotRoutine.Number
