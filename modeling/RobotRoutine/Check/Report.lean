import RobotRoutine.Check.Basic
import RobotRoutine.Json

/-!
The two reports of a check: lines of text, and JSON that holds the whole configuration.
-/

namespace RobotRoutine

namespace CheckSummary

def branchLines : Option (List (Zone × Nat)) → List String
  | none => ["branch: none"]
  | some counts => counts.map fun (zone, steps) => s!"branch {zone.name}: {steps}"

def unsupportedLines : List String → List String
  | [] => []
  | names => ["unsupported: " ++ ", ".intercalate names]

def lines (summary : CheckSummary) : List String :=
  [s!"run: {summary.selector}", s!"actions: {summary.actions}"] ++
    branchLines summary.branches ++ unsupportedLines summary.unsupported ++
    summary.invalid.map fun problem => s!"invalid: {problem}"

end CheckSummary

namespace Json

def optional {α : Type} (write : α → Json) : Option α → Json
  | none => null
  | some value => write value

def ofRegion (region : Region) : Json :=
  object [("x", integer region.x), ("y", integer region.y), ("width", integer region.width),
    ("height", integer region.height)]

def ofPose (pose : Pose) : Json :=
  object [("x", number pose.x), ("y", number pose.y), ("heading", number pose.heading)]

def ofStep (step : ActionStep) : Json :=
  object [("name", string step.name),
    ("attributes", object (step.attributes.map fun (key, value) => (key, string value)))]

def ofSteps (steps : List ActionStep) : Json := array (steps.map ofStep)

def ofBranchTable (table : BranchTable) : Json :=
  object [("left", ofSteps table.left), ("center", ofSteps table.center),
    ("right", ofSteps table.right)]

def ofConfiguration (configuration : Configuration) : Json :=
  object
    [("logging_threshold", optional (fun t => string t.name) configuration.loggingThreshold),
     ("region_of_interest", ofRegion configuration.regionOfInterest),
     ("tags_of_interest", array (configuration.tagsOfInterest.map fun tag => string tag.name)),
     ("starting_pose", optional ofPose configuration.startingPose),
     ("actions", ofSteps configuration.actions),
     ("branch_table", optional ofBranchTable configuration.branchTable)]

def ofSummary (summary : CheckSummary) : Json :=
  object
    [("run_selector", string summary.selector),
     ("actions", integer summary.actions),
     ("branches", optional
       (fun counts => array (counts.map fun (zone, steps) =>
         array [string zone.name, integer steps])) summary.branches),
     ("unsupported", array (summary.unsupported.map string)),
     ("invalid", array (summary.invalid.map string))]

/-- The report of a check with the configuration that was checked. -/
def ofCheck (summary : CheckSummary) (configuration : Configuration) : Json :=
  object [("summary", ofSummary summary), ("config", ofConfiguration configuration)]

end Json

end RobotRoutine
