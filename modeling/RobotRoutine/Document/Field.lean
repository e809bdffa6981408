import RobotRoutine.Failure.Basic
import RobotRoutine.Number.Integer
import RobotRoutine.Text.Blank
import RobotRoutine.Xml.Tree

/-!
Values in the elements of an action document.

A field is an element of a given name that holds one value as its text.  Fields that belong together
stand in a fixed order before all other child elements of their parent.
-/

namespace RobotRoutine.Document

open Xml (Element)

def fieldText (element : Element) : String := Text.trim element.text

/-- The value of the field `name`, which the next element must be. -/
def readField {α : Type} (parse : String → Option α) (name : String) :
    Option Element → Except DocumentError α
  | none => .error (.missingField name)
  | some element =>
      if element.name = name then
        let text := fieldText element
        if text = "" then .error (.missingField name)
        else
          match parse text with
          | some value => .ok value
          | none => .error (.invalidValue name text)
      else .error (.missingField name)

def readInteger (name : String) (next : Option Element) : Except DocumentError Int :=
  readField (Number.signed? 32) name next

end RobotRoutine.Document
