import RobotRoutine.Action.Command

/-!
The offline check of a configuration.

A check resolves every step that a run might come to, those of all three zones included, and lists
what the dispatcher would refuse: commands it does not know and attribute values it cannot use.
-/

namespace RobotRoutine

structure CheckSummary where
  selector : String
  actions : Nat
  branches : Option (List (Zone × Nat))
  /-- The names of commands that the dispatcher does not know, as they are written. -/
  unsupported : List String
  invalid : List String
  deriving DecidableEq, Repr

namespace Check

def branchSteps : Option BranchTable → List ActionStep
  | none => []
  | some table => Zone.all.flatMap table.get

def allSteps (configuration : Configuration) : List ActionStep :=
  configuration.actions ++ branchSteps configuration.branchTable

def unsupportedName? (step : ActionStep) : Option String :=
  match Command.resolve step with
  | .error (.unsupportedCommand _) => some step.name
  | _ => none

/-- The text about an attribute value of a step that cannot be used. -/
def invalidText? (step : ActionStep) : Option String :=
  match Command.resolve step with
  | .error (.invalidValue command key value) =>
      some (RunError.invalidValue command key value).text
  | _ => none

def branchCounts (table : BranchTable) : List (Zone × Nat) :=
  Zone.all.map fun zone => (zone, (table.get zone).length)

def summary (selector : String) (configuration : Configuration) : CheckSummary where
  selector
  actions := configuration.actions.length
  branches := configuration.branchTable.map branchCounts
  unsupported := (allSteps configuration).filterMap unsupportedName?
  invalid := (allSteps configuration).filterMap invalidText?

end Check

end RobotRoutine
