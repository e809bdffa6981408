import RobotRoutine.Action.Step
import RobotRoutine.Failure.Basic
import RobotRoutine.Xml.Tree

/-!
The action sequence of a section.

Every child element is a step; deeper elements count only below the branch marker, which holds one
element for each zone with the steps of that zone.  At most one marker may stand anywhere below the
actions, and it must be one of the steps.
-/

namespace RobotRoutine.Document

open Xml (Element Node)

/-- A branch marker somewhere below the actions, with the name of the element it stands in. -/
structure MarkerPlace where
  parent : String
  name : String
  deriving DecidableEq, Repr

mutual

def markersOfNode (parent : String) : Node → List MarkerPlace
  | .element name _ children =>
      (if isBranchMarker name then [⟨parent, name⟩] else []) ++ markersOfNodes name children
  | .text _ => []
  | .comment _ => []
  | .instruction _ => []

def markersOfNodes (parent : String) : List Node → List MarkerPlace
  | [] => []
  | node :: rest => markersOfNode parent node ++ markersOfNodes parent rest

end

def markers (element : Element) : List MarkerPlace :=
  markersOfNodes element.name element.children

def isMarkerElement (element : Element) : Bool := isBranchMarker element.name

def markerChild? (element : Element) : Option Element :=
  element.elements.find? isMarkerElement

/-- Refuses a second marker, and one that is no child of the actions. -/
def checkMarkers (element : Element) : Except DocumentError Unit :=
  match markers element with
  | [] => .ok ()
  | [marker] =>
      if (markerChild? element).isSome then .ok ()
      else .error (.unexpectedElement marker.parent marker.name)
  | _ :: _ :: _ => .error .duplicateBranch

/-- The step that an element stands for.  Attributes go by their local names. -/
def readStep (element : Element) : ActionStep :=
  ActionStep.ofAttributes element.name (element.attributes.map fun a => (a.name, a.value))

def readSteps (element : Element) : List ActionStep := element.elements.map readStep

/-- Reads the zones named by elements into a table; each zone may be named once. -/
def readZonesOnto (table : BranchTable) (seen : List Zone) :
    List Element → Except DocumentError BranchTable
  | [] => .ok table
  | element :: rest =>
      match Zone.ofName? element.name with
      | none => .error (.unknownName "target zone" element.name)
      | some zone =>
          if zone ∈ seen then .error (.incompleteBranchTable Zone.all.length)
          else readZonesOnto (table.set zone (readSteps element)) (zone :: seen) rest

def readBranchTable (element : Element) : Except DocumentError BranchTable :=
  let zones := element.elements
  if zones.length = Zone.all.length then readZonesOnto BranchTable.empty [] zones
  else .error (.incompleteBranchTable zones.length)

/-- The steps of a section and, if one of them is the marker, the table of zone sequences. -/
def readActions (element : Element) :
    Except DocumentError (List ActionStep × Option BranchTable) := do
  checkMarkers element
  match markerChild? element with
  | none => pure (readSteps element, none)
  | some marker =>
      let table ← readBranchTable marker
      pure (readSteps element, some table)

end RobotRoutine.Document
