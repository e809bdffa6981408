import RobotRoutine.Document.Actions
import RobotRoutine.Document.Parameters
import RobotRoutine.Xml.Reader

/-!
Action documents.

A document holds a section for each run selector.  Only the first section of the requested selector
is read: its first child element, which must be the parameters, and its first actions.
-/

namespace RobotRoutine.Document

open Xml (Element)

def rootName : String := "RobotAction"

def sectionName : String := "OpMode"

def section? (root : Element) (selector : String) : Option Element :=
  root.elements.find? fun element =>
    element.name == sectionName && element.attribute? "id" == some selector

def requireParameters (candidate : Element) : Except DocumentError Element :=
  match candidate.elements with
  | first :: _ =>
      if first.name = "parameters" then .ok first
      else .error (.malformed "missing required <parameters> element")
  | [] => .error (.malformed "missing required <parameters> element")

def requireActions (candidate : Element) : Except DocumentError Element :=
  match candidate.elements.find? fun element => element.name == "actions" with
  | some element => .ok element
  | none => .error (.missingField "actions")

def readSection (candidate : Element) : Except DocumentError Configuration := do
  let parameters ← readParameters (← requireParameters candidate)
  let (actions, branchTable) ← readActions (← requireActions candidate)
  pure
    { loggingThreshold := parameters.loggingThreshold
      regionOfInterest := parameters.regionOfInterest
      tagsOfInterest := parameters.tagsOfInterest
      startingPose := parameters.startingPose
      actions, branchTable }

def ofRoot (root : Element) (selector : String) : Except DocumentError Configuration :=
  if root.name = rootName then
    match section? root selector with
    | some found => readSection found
    | none => .error (.sectionNotFound selector)
  else .error (.malformed s!"expected root element <{rootName}>, found <{root.name}>")

/-- The configuration that the text of a document gives for a selector. -/
def read (text selector : String) : Except DocumentError Configuration :=
  match Xml.read text with
  | .ok root => ofRoot root selector
  | .error cause => .error (.notWellFormed cause)

/-- The configuration that the file at a path gives for a selector, from what reading it gave. -/
def ofFile (path : String) (contents : Except SystemError String) (selector : String) :
    Except DocumentError Configuration :=
  match contents with
  | .ok text => read text selector
  | .error cause => .error (.unreadable path cause)

end RobotRoutine.Document
