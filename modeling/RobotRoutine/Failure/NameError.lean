import RobotRoutine.Configuration

/-!
Names outside a vocabulary.

Zones, tags and thresholds are read by their exact names; any other name is an error that quotes it.
-/

namespace RobotRoutine

inductive NameError where
  | zone (name : String)
  | tag (name : String)
  | threshold (name : String)
  deriving DecidableEq, Repr

def NameError.text : NameError → String
  | zone name => s!"unknown zone '{name}'"
  | tag name => s!"unknown tag '{name}'"
  | threshold name => s!"invalid logging level '{name}'"

def Zone.read (name : String) : Except NameError Zone :=
  match Zone.ofName? name with
  | some zone => .ok zone
  | none => .error (.zone name)

def TagId.read (name : String) : Except NameError TagId :=
  match TagId.ofName? name with
  | some tag => .ok tag
  | none => .error (.tag name)

def LogThreshold.read (code : String) : Except NameError LogThreshold :=
  match LogThreshold.ofCode? code with
  | some threshold => .ok threshold
  | none => .error (.threshold code)

end RobotRoutine
