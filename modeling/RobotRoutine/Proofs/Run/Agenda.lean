import RobotRoutine.Proofs.Run.Branches

/-!
The flat list of the steps of a run.

Once the zone is known, the steps of a run stand in one list: the actions, with the sequence of the
zone behind the marker.
-/

namespace RobotRoutine

/-- Steps with others inserted behind every marker. -/
def splice (inserted : List ActionStep) (steps : List ActionStep) : List ActionStep :=
  steps.flatMap fun step => if step.isMarker then step :: inserted else [step]

theorem splice_cons_of_marker {inserted : List ActionStep} {step : ActionStep}
    (marker : step.isMarker = true) (rest : List ActionStep) :
    splice inserted (step :: rest) = step :: (inserted ++ splice inserted rest) := by
  simp [splice, marker]

theorem splice_cons_of_other {inserted : List ActionStep} {step : ActionStep}
    (other : step.isMarker = false) (rest : List ActionStep) :
    splice inserted (step :: rest) = step :: splice inserted rest := by
  simp [splice, other]

theorem splice_of_plain {inserted steps : List ActionStep}
    (plain : ∀ step ∈ steps, step.isMarker = false) : splice inserted steps = steps := by
  induction steps with
  | nil => rfl
  | cons step rest inductionHypothesis =>
      rw [List.forall_mem_cons] at plain
      rw [splice_cons_of_other plain.1, inductionHypothesis plain.2]

namespace Configuration

/-- The sequence of a zone; without a table there is none. -/
def zoneSteps (configuration : Configuration) (zone : Zone) : List ActionStep :=
  match configuration.branchTable with
  | none => []
  | some table => table.get zone

def agenda (configuration : Configuration) (zone : Zone) : List ActionStep :=
  splice (configuration.zoneSteps zone) configuration.actions

theorem Branches.plain_of_noTable {configuration : Configuration}
    (branches : configuration.Branches) (missing : configuration.branchTable = none) :
    ∀ step ∈ configuration.actions, step.isMarker = false := by
  intro step member
  simpa using List.countP_eq_zero.mp (branches.absent.mp missing) step member

end Configuration

/-- The error of the first step that does not resolve. -/
def firstError (steps : List ActionStep) : Option RunError :=
  steps.findSome? fun step =>
    match Command.resolve step with
    | .ok _ => none
    | .error error => some error

theorem firstError_cons_of_ok {step : ActionStep} {command : Command}
    (resolved : Command.resolve step = .ok command) (rest : List ActionStep) :
    firstError (step :: rest) = firstError rest := by
  simp [firstError, resolved]

theorem firstError_cons_of_error {step : ActionStep} {error : RunError}
    (resolved : Command.resolve step = .error error) (rest : List ActionStep) :
    firstError (step :: rest) = some error := by
  simp [firstError, resolved]

theorem firstError_append (first second : List ActionStep) :
    firstError (first ++ second) = (firstError first).or (firstError second) := by
  simp [firstError, List.findSome?_append]

/-- A run of steps ends completed if they all resolve, and otherwise with the error of the first
one that does not. -/
def EndsAsResolved (steps : List ActionStep) (outcome : Outcome RunError RunReport) : Prop :=
  match firstError steps with
  | none => ∃ report, outcome = .value report ∧ report.state = .completed
  | some error => outcome = .error error

theorem endsAsResolved_of_none {steps : List ActionStep} {report : RunReport}
    (right : firstError steps = none) (completed : report.state = .completed) :
    EndsAsResolved steps (.value report) := by
  rw [EndsAsResolved, right]
  exact ⟨report, rfl, completed⟩

theorem endsAsResolved_of_some {steps : List ActionStep} {error : RunError}
    (wrong : firstError steps = some error) : EndsAsResolved steps (.error error) := by
  rw [EndsAsResolved, wrong]

end RobotRoutine
