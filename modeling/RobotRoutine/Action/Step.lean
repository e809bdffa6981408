import RobotRoutine.Configuration
import RobotRoutine.Text.AsciiCase

/-!
The steps of an action sequence.

A step keeps its attributes in the order of their keys; a later value for a key replaces an earlier
one.  The step whose name is the branch marker, in any letter case, stands for the choice between
the zone sequences.
-/

namespace RobotRoutine

/-- The name of the step that stands for the choice between zone sequences. -/
def branchMarker : String := "OCV_CHOICE"

/-- True of the branch marker in any letter case. -/
def isBranchMarker (name : String) : Bool := Text.sameIgnoringCase name branchMarker

namespace ActionStep

def insertAttribute (key value : String) : List (String × String) → List (String × String)
  | [] => [(key, value)]
  | (k, v) :: rest =>
      if key == k then (key, value) :: rest
      else if key < k then (key, value) :: (k, v) :: rest
      else (k, v) :: insertAttribute key value rest

/-- A step with these attributes; of two values for a key the later one stays. -/
def ofAttributes (name : String) (attributes : List (String × String)) : ActionStep :=
  { name, attributes := attributes.foldl (fun kept (k, v) => insertAttribute k v kept) [] }

def attribute? (step : ActionStep) (key : String) : Option String :=
  step.attributes.lookup key

def isMarker (step : ActionStep) : Bool := isBranchMarker step.name

def commandName (step : ActionStep) : String := Text.upper step.name

theorem isMarker_iff {step : ActionStep} :
    step.isMarker = true ↔ step.commandName = branchMarker := by
  rw [isMarker, isBranchMarker, Text.sameIgnoringCase_iff]
  have marker : Text.upper branchMarker = branchMarker := by decide
  rw [marker, commandName]

end ActionStep

end RobotRoutine
