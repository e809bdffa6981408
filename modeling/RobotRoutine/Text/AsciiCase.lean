/-!
Letter case of command names.

Names are compared with the ASCII letters folded and every other character left as it is, so a
dotless or full-width letter never stands for an ASCII one.
-/

namespace RobotRoutine.Text

def upper (s : String) : String :=
  String.ofList (s.toList.map Char.toUpper)

def sameIgnoringCase (s t : String) : Bool :=
  upper s == upper t

theorem sameIgnoringCase_iff {s t : String} : sameIgnoringCase s t = true ↔ upper s = upper t := by
  simp [sameIgnoringCase]

end RobotRoutine.Text
