import Mathlib.Tactic.SplitIfs
import RobotRoutine.Proofs.Program.Effects

/-!
A run of steps as a sequence of visits.

The dispatcher runs the sequence of a zone inside the run of the sequence that holds the marker.
Seen from outside there is one agenda of steps: the first step is visited, and what the visit
splices in comes before the rest.  Every run of the dispatcher, whatever is configured, takes apart
into visits of this kind; only a run that was left waiting may instead have come to a marker that is
nested too deep.
-/

namespace RobotRoutine

open Program (Runs Event)

theorem Command.resolve_eq_zoneChoice_iff {step : ActionStep} :
    Command.resolve step = .ok .zoneChoice ↔ step.isMarker = true := by
  rw [ActionStep.isMarker_iff]
  constructor
  · intro resolved
    simp only [Command.resolve] at resolved
    split_ifs at resolved with forward reverse sleep breakpoint other
    · cases seconds : Command.optionalSeconds step <;> simp [seconds, Except.map] at resolved
    · cases seconds : Command.optionalSeconds step <;> simp [seconds, Except.map] at resolved
    · cases millis : Command.requiredMillis step <;> simp [millis, Except.map] at resolved
    · cases resolved
    · exact other
  · intro marker
    simp [Command.resolve, marker, branchMarker]

namespace DispatchContext

def classify (configuration : Configuration) : Dispatch (List ActionStep) := do
  let table ← Dispatch.lift (Task.ofExcept (requireTable configuration))
  let zone ← Dispatch.lift (Task.currentZone RunError.ofClassifier)
  Dispatch.setZone zone
  Dispatch.record .info
    s!"Target zone {zone.name}: {(table.get zone).length} branch actions"
  pure (table.get zone)

/-- Polls liveness and, if the run is live, resolves a step and notes it in the run log. -/
def arrive (step : ActionStep) : Dispatch (Option Command) := do
  if ← Dispatch.lift Task.isActive then
    let command ← beginStep step
    pure (some command)
  else pure none

/-- Carries out the command of a step and counts the step; gives the steps to be spliced in. -/
def perform (context : DispatchContext) (configuration : Configuration) (step : ActionStep) :
    Command → Dispatch (List ActionStep)
  | .zoneChoice => do
      Dispatch.countStep
      classify configuration
  | command => do
      Dispatch.lift (context.carryOut step command)
      Dispatch.countStep
      pure []

/-- Visits a step: nothing is done if the run is no longer live.  Gives the steps to be spliced in
behind the step. -/
def visit (context : DispatchContext) (configuration : Configuration) (step : ActionStep) :
    Dispatch (Option (List ActionStep)) := do
  match ← arrive step with
  | none => pure none
  | some command =>
      let spliced ← context.perform configuration step command
      pure (some spliced)

variable {context : DispatchContext} {configuration : Configuration}

theorem runBranch_succ (levels : Nat) :
    context.runBranch configuration (levels + 1) =
      (classify configuration).bind
        (context.runSteps (context.runBranch configuration levels)) := by
  rw [runBranch, classify]
  simp [Dispatch.bind_assoc]

def afterBranch (context : DispatchContext) (branch : Dispatch Flow) (rest : List ActionStep) :
    Flow → Dispatch Flow
  | .stopped => pure .stopped
  | .finished => context.runSteps branch rest

def afterArrival (context : DispatchContext) (branch : Dispatch Flow) (step : ActionStep)
    (rest : List ActionStep) : Option Command → Dispatch Flow
  | none => pure .stopped
  | some .zoneChoice => do
      Dispatch.countStep
      branch.bind (context.afterBranch branch rest)
  | some command => do
      Dispatch.lift (context.carryOut step command)
      Dispatch.countStep
      context.runSteps branch rest

theorem runSteps_cons (branch : Dispatch Flow) (step : ActionStep) (rest : List ActionStep) :
    context.runSteps branch (step :: rest) =
      (arrive step).bind (context.afterArrival branch step rest) := by
  rw [runSteps, arrive]
  simp only [Dispatch.bind_def, Dispatch.bind_assoc]
  congr 1
  funext live
  cases live with
  | false => simp [afterArrival]
  | true =>
      simp only [if_true, Dispatch.bind_assoc]
      congr 1
      funext command
      cases command with
      | zoneChoice =>
          change _ = Dispatch.countStep.bind fun _ => branch.bind (context.afterBranch branch rest)
          refine congrArg Dispatch.countStep.bind (funext fun _ => ?_)
          refine congrArg branch.bind (funext fun flow => ?_)
          cases flow <;> rfl
      | _ => rfl

theorem afterArrival_of_other {command : Command} (other : command ≠ .zoneChoice)
    (branch : Dispatch Flow) (step : ActionStep) (rest : List ActionStep) :
    context.afterArrival branch step rest (some command) =
      (Dispatch.lift (context.carryOut step command)).bind fun _ =>
        Dispatch.countStep.bind fun _ => context.runSteps branch rest := by
  cases command with
  | zoneChoice => exact absurd rfl other
  | _ => rfl

structure Visit where
  step : ActionStep
  events : List Event

def eventsOf (visits : List Visit) : List Event := visits.flatMap Visit.events

/-- The visits by which an agenda of steps is worked off, and how they end. -/
inductive Visits (context : DispatchContext) (configuration : Configuration) :
    Progress → List ActionStep → List Visit → Outcome RunError Flow × Progress → Prop where
  | exhausted {progress} :
      Visits context configuration progress [] [] (.value .finished, progress)
  | lost {before step rest events after} :
      Runs (context.visit configuration step before) events (.value none, after) →
      Visits context configuration before (step :: rest) [⟨step, events⟩] (.value .stopped, after)
  | ended {before step rest events stop outcome after} :
      Runs (context.visit configuration step before) events (stop, after) →
      stop.Passes outcome →
      Visits context configuration before (step :: rest) [⟨step, events⟩] (outcome, after)
  | next {before step rest events spliced between visits ending} :
      Runs (context.visit configuration step before) events (.value (some spliced), between) →
      Visits context configuration between (spliced ++ rest) visits ending →
      Visits context configuration before (step :: rest) (⟨step, events⟩ :: visits) ending

namespace Visits

variable {before middle after : Progress} {steps rest : List ActionStep} {first second : List Visit}
  {outcome : Outcome RunError Flow}

/-- Visits that exhaust an agenda go on with what stands behind it. -/
theorem append {ending : Outcome RunError Flow × Progress}
    (visits : Visits context configuration before steps first (.value .finished, middle))
    (others : Visits context configuration middle rest second ending) :
    Visits context configuration before (steps ++ rest) (first ++ second) ending := by
  generalize same : (Outcome.value Flow.finished, middle) = finished at visits
  induction visits with
  | exhausted =>
      cases same
      exact others
  | lost _ => simp at same
  | ended _ passes =>
      cases same
      cases passes
  | next runs _ inductionHypothesis =>
      rw [List.cons_append]
      refine .next runs ?_
      rw [← List.append_assoc]
      exact inductionHypothesis same

/-- Visits that stop early do not depend on what stands behind the agenda. -/
theorem append_of_ne_finished
    (visits : Visits context configuration before steps first (outcome, after))
    (stopped : outcome ≠ .value .finished) :
    Visits context configuration before (steps ++ rest) first (outcome, after) := by
  generalize same : (outcome, after) = ending at visits
  induction visits with
  | exhausted =>
      cases same
      exact absurd rfl stopped
  | lost runs =>
      cases same
      exact .lost runs
  | ended runs passes =>
      cases same
      exact .ended runs passes
  | next runs _ inductionHypothesis =>
      rw [List.cons_append]
      refine .next runs ?_
      rw [← List.append_assoc]
      exact inductionHypothesis same

/-- What holds of every visit by itself holds of all visits; if the agenda is not left waiting, none
of its visits is. -/
theorem forall_visit {ending : Outcome RunError Flow × Progress} {holds : Visit → Prop}
    (visits : Visits context configuration before steps first ending)
    (each : ∀ {step before after events outcome},
      Runs (context.visit configuration step before) events (outcome, after) →
      (outcome = .waiting → ending.1 = .waiting) → holds ⟨step, events⟩) :
    ∀ visit ∈ first, holds visit := by
  induction visits with
  | exhausted => simp
  | lost runs => simpa using each runs (by simp)
  | ended runs passes => simpa using each runs passes.waiting_iff.mp
  | next runs _ inductionHypothesis =>
      rw [List.forall_mem_cons]
      exact ⟨each runs (by simp), inductionHypothesis each⟩

end Visits

def beginning (step : ActionStep) : Event :=
  ⟨.host (.record .debug dispatchTag s!"Executing command {step.commandName}"), ()⟩

theorem beginStep_of_error {step : ActionStep} {error : RunError}
    (resolved : Command.resolve step = .error error) :
    beginStep step = Dispatch.lift (Task.throw error) := by
  rw [beginStep, resolved]
  rfl

theorem beginStep_of_ok {step : ActionStep} {command : Command}
    (resolved : Command.resolve step = .ok command) :
    beginStep step =
      (Dispatch.record .debug s!"Executing command {step.commandName}").bind fun _ =>
        Dispatch.result command := by
  rw [beginStep, resolved]
  rfl

theorem runs_arrive_cases {step : ActionStep} {before after : Progress} {events : List Event}
    {outcome : Outcome RunError (Option Command)}
    (arrived : Runs (arrive step before) events (outcome, after)) :
    after = before ∧
      (outcome = .value none ∧ events = [⟨.robot .isActive, false⟩] ∨
        (∃ error, Command.resolve step = .error error ∧ outcome = .error error ∧
          events = [⟨.robot .isActive, true⟩]) ∨
        ∃ command, Command.resolve step = .ok command ∧ outcome = .value (some command) ∧
          events = [⟨.robot .isActive, true⟩, beginning step]) := by
  rw [arrive] at arrived
  cases resolved : Command.resolve step with
  | error error =>
      rw [beginStep_of_error resolved] at arrived
      obtain ⟨live, _, rfl, runs⟩ := Program.runs_call_iff.mp arrived
      cases live with
      | false =>
          obtain ⟨rfl, same⟩ := Program.runs_done_iff.mp runs
          cases same
          exact ⟨rfl, .inl ⟨rfl, rfl⟩⟩
      | true =>
          obtain ⟨rfl, same⟩ := Program.runs_done_iff.mp runs
          cases same
          exact ⟨rfl, .inr (.inl ⟨error, rfl, rfl, rfl⟩)⟩
  | ok command =>
      rw [beginStep_of_ok resolved] at arrived
      obtain ⟨live, _, rfl, runs⟩ := Program.runs_call_iff.mp arrived
      cases live with
      | false =>
          obtain ⟨rfl, same⟩ := Program.runs_done_iff.mp runs
          cases same
          exact ⟨rfl, .inl ⟨rfl, rfl⟩⟩
      | true =>
          obtain ⟨_, _, rfl, ended⟩ := Program.runs_call_iff.mp runs
          obtain ⟨rfl, same⟩ := Program.runs_done_iff.mp ended
          cases same
          exact ⟨rfl, .inr (.inr ⟨command, rfl, rfl, rfl⟩)⟩

def counted (progress : Progress) : Progress :=
  { progress with stepsExecuted := progress.stepsExecuted + 1 }

theorem runs_perform_cases {step : ActionStep} {command : Command} {before after : Progress}
    {events : List Event} {outcome : Outcome RunError (List ActionStep)}
    (other : command ≠ .zoneChoice)
    (performed : Runs (context.perform configuration step command before) events
      (outcome, after)) :
    (Runs (context.carryOut step command) events (.value ()) ∧ outcome = .value [] ∧
      after = counted before) ∨
    ∃ stop, Runs (context.carryOut step command) events stop ∧ stop.Passes outcome ∧
      after = before := by
  have performs : context.perform configuration step command =
      (Dispatch.lift (context.carryOut step command)).bind fun _ =>
        Dispatch.countStep.bind fun _ => Dispatch.result [] := by
    cases command with
    | zoneChoice => exact absurd rfl other
    | _ => rfl
  rw [performs] at performed
  rcases Dispatch.runs_bind performed with
    ⟨first, second, _, middle, rfl, carriedOut, counting⟩ | ⟨stop, carriedOut, passes⟩
  · obtain ⟨runs, rfl⟩ := Dispatch.runs_lift_iff.mp carriedOut
    obtain ⟨rfl, same⟩ := Program.runs_done_iff.mp counting
    cases same
    rw [List.append_nil]
    exact .inl ⟨runs, rfl, rfl⟩
  · obtain ⟨runs, rfl⟩ := Dispatch.runs_lift_iff.mp carriedOut
    exact .inr ⟨stop, runs, passes, rfl⟩

def foundZone (table : BranchTable) (zone : Zone) : Event :=
  ⟨.host (.record .info dispatchTag
    s!"Target zone {zone.name}: {(table.get zone).length} branch actions"), ()⟩

theorem runs_classify_cases {before after : Progress} {events : List Event}
    {outcome : Outcome RunError (List ActionStep)}
    (classified : Runs (classify configuration before) events (outcome, after)) :
    (configuration.branchTable = none ∧ events = [] ∧
      outcome = .error (.missingBranchTable branchMarker) ∧ after = before) ∨
    ∃ table, configuration.branchTable = some table ∧
      ((∃ zone, events = [⟨.robot .currentZone, Answer.ok zone⟩, foundZone table zone] ∧
        outcome = .value (table.get zone) ∧ after = { before with zone := some zone }) ∨
      (∃ failure, events = [⟨.robot .currentZone, Answer.failed failure⟩] ∧
        outcome = .error (RunError.ofClassifier failure) ∧ after = before) ∨
      ∃ crash, events = [⟨.robot .currentZone, Answer.crashed crash⟩] ∧
        outcome = .crash crash ∧ after = before) := by
  rw [classify] at classified
  cases tabled : configuration.branchTable with
  | none =>
      simp only [requireTable, tabled] at classified
      obtain ⟨rfl, same⟩ := Program.runs_done_iff.mp classified
      cases same
      exact .inl ⟨rfl, rfl, rfl, rfl⟩
  | some table =>
      simp only [requireTable, tabled] at classified
      obtain ⟨answer, rest, rfl, runs⟩ := Program.runs_call_iff.mp classified
      refine .inr ⟨table, rfl, ?_⟩
      cases answer with
      | ok zone =>
          obtain ⟨_, _, rfl, ended⟩ := Program.runs_call_iff.mp runs
          obtain ⟨rfl, same⟩ := Program.runs_done_iff.mp ended
          cases same
          exact .inl ⟨zone, rfl, rfl, rfl⟩
      | failed failure =>
          obtain ⟨rfl, same⟩ := Program.runs_done_iff.mp runs
          cases same
          exact .inr (.inl ⟨failure, rfl, rfl, rfl⟩)
      | crashed crash =>
          obtain ⟨rfl, same⟩ := Program.runs_done_iff.mp runs
          cases same
          exact .inr (.inr ⟨crash, rfl, rfl, rfl⟩)

theorem runs_visit_none {step : ActionStep} {before after : Progress} {events : List Event}
    (arrived : Runs (arrive step before) events (.value none, after)) :
    Runs (context.visit configuration step before) events (.value none, after) := by
  rw [← List.append_nil events]
  exact Dispatch.runs_bind_value arrived (Dispatch.runs_result_iff.mpr ⟨rfl, rfl⟩)

theorem runs_visit_some {step : ActionStep} {command : Command} {before middle after : Progress}
    {first second : List Event} {spliced : List ActionStep}
    (arrived : Runs (arrive step before) first (.value (some command), middle))
    (performed : Runs (context.perform configuration step command middle) second
      (.value spliced, after)) :
    Runs (context.visit configuration step before) (first ++ second)
      (.value (some spliced), after) := by
  refine Dispatch.runs_bind_value arrived ?_
  rw [← List.append_nil second]
  exact Dispatch.runs_bind_value performed (Dispatch.runs_result_iff.mpr ⟨rfl, rfl⟩)

theorem runs_visit_stop {step : ActionStep} {command : Command} {before middle after : Progress}
    {first second : List Event} {stop : Outcome RunError (List ActionStep)}
    {outcome : Outcome RunError (Option (List ActionStep))}
    (arrived : Runs (arrive step before) first (.value (some command), middle))
    (performed : Runs (context.perform configuration step command middle) second (stop, after))
    (passes : stop.Passes outcome) :
    Runs (context.visit configuration step before) (first ++ second) (outcome, after) :=
  Dispatch.runs_bind_value arrived (Dispatch.runs_bind_stop performed passes)

theorem runs_visit_cases {step : ActionStep} {before after : Progress} {events : List Event}
    {outcome : Outcome RunError (Option (List ActionStep))}
    (visited : Runs (context.visit configuration step before) events (outcome, after)) :
    (outcome = .value none ∧ events = [⟨.robot .isActive, false⟩] ∧ after = before) ∨
    (∃ error, Command.resolve step = .error error ∧ outcome = .error error ∧
      events = [⟨.robot .isActive, true⟩] ∧ after = before) ∨
    ∃ command doing performed, Command.resolve step = .ok command ∧
      events = ⟨.robot .isActive, true⟩ :: beginning step :: doing ∧
      Runs (context.perform configuration step command before) doing (performed, after) ∧
      ((∃ spliced, performed = .value spliced ∧ outcome = .value (some spliced)) ∨
        performed.Passes outcome) := by
  rcases Dispatch.runs_bind visited with
    ⟨first, second, arrival, middle, rfl, arrived, runs⟩ | ⟨stop, arrived, passes⟩
  · obtain ⟨rfl, ⟨same, rfl⟩ | ⟨_, _, same, -⟩ | ⟨command, resolved, same, rfl⟩⟩ :=
      runs_arrive_cases arrived
    · cases same
      obtain ⟨rfl, same⟩ := Dispatch.runs_result_iff.mp runs
      cases same
      exact .inl ⟨rfl, rfl, rfl⟩
    · cases same
    · cases same
      refine .inr (.inr ?_)
      rcases Dispatch.runs_bind runs with
        ⟨doing, nothing, spliced, between, rfl, performed, runsResult⟩ | ⟨stop, performed, passes⟩
      · obtain ⟨rfl, same⟩ := Dispatch.runs_result_iff.mp runsResult
        cases same
        exact ⟨command, doing, .value spliced, resolved, by simp, performed,
          .inl ⟨spliced, rfl, rfl⟩⟩
      · exact ⟨command, second, stop, resolved, rfl, performed, .inr passes⟩
  · obtain ⟨rfl, ⟨same, -⟩ | ⟨error, resolved, same, rfl⟩ | ⟨_, _, same, -⟩⟩ :=
      runs_arrive_cases arrived
    · cases same
      exact absurd passes (by rintro ⟨⟩)
    · cases same
      cases passes
      exact .inr (.inl ⟨error, resolved, rfl, rfl, rfl⟩)
    · cases same
      exact absurd passes (by rintro ⟨⟩)

/-- How the visit of a step goes, one case for each way in which it ends. -/
inductive Visited (context : DispatchContext) (configuration : Configuration) (step : ActionStep)
    (before : Progress) :
    List Event → Outcome RunError (Option (List ActionStep)) → Progress → Prop where
  | lost :
      Visited context configuration step before [⟨.robot .isActive, false⟩] (.value none) before
  | unresolved {error} :
      Command.resolve step = .error error →
      Visited context configuration step before [⟨.robot .isActive, true⟩] (.error error) before
  | noTable :
      step.isMarker = true → configuration.branchTable = none →
      Visited context configuration step before [⟨.robot .isActive, true⟩, beginning step]
        (.error (.missingBranchTable branchMarker)) (counted before)
  | found {table zone} :
      step.isMarker = true → configuration.branchTable = some table →
      Visited context configuration step before
        [⟨.robot .isActive, true⟩, beginning step, ⟨.robot .currentZone, Answer.ok zone⟩,
          foundZone table zone]
        (.value (some (table.get zone))) { counted before with zone := some zone }
  | failed {failure} :
      step.isMarker = true →
      Visited context configuration step before
        [⟨.robot .isActive, true⟩, beginning step, ⟨.robot .currentZone, Answer.failed failure⟩]
        (.error (.ofClassifier failure)) (counted before)
  | crashed {crash} :
      step.isMarker = true →
      Visited context configuration step before
        [⟨.robot .isActive, true⟩, beginning step, ⟨.robot .currentZone, Answer.crashed crash⟩]
        (.crash crash) (counted before)
  | carried {command doing} :
      step.isMarker = false → Command.resolve step = .ok command →
      Runs (context.carryOut step command) doing (.value ()) →
      Visited context configuration step before
        (⟨.robot .isActive, true⟩ :: beginning step :: doing) (.value (some [])) (counted before)
  | stopped {command doing stop outcome} :
      step.isMarker = false → Command.resolve step = .ok command →
      Runs (context.carryOut step command) doing stop → stop.Passes outcome →
      Visited context configuration step before
        (⟨.robot .isActive, true⟩ :: beginning step :: doing) outcome before

theorem isMarker_eq_false {step : ActionStep} {command : Command}
    (resolved : Command.resolve step = .ok command) (other : command ≠ .zoneChoice) :
    step.isMarker = false := by
  rw [← Bool.not_eq_true, ← Command.resolve_eq_zoneChoice_iff, resolved]
  simpa using other

theorem visited_of_runs {step : ActionStep} {before after : Progress} {events : List Event}
    {outcome : Outcome RunError (Option (List ActionStep))}
    (runs : Runs (context.visit configuration step before) events (outcome, after)) :
    context.Visited configuration step before events outcome after := by
  rcases runs_visit_cases runs with ⟨rfl, rfl, rfl⟩ | ⟨error, unresolved, rfl, rfl, rfl⟩ |
    ⟨command, doing, performed, resolved, rfl, runs, ended⟩
  · exact .lost
  · exact .unresolved unresolved
  · by_cases marker : command = .zoneChoice
    · subst marker
      have isMarker := Command.resolve_eq_zoneChoice_iff.mp resolved
      change Runs (classify configuration (counted before)) doing (performed, after) at runs
      rcases runs_classify_cases runs with ⟨missing, rfl, rfl, rfl⟩ | ⟨table, tabled,
        ⟨zone, rfl, rfl, rfl⟩ | ⟨failure, rfl, rfl, rfl⟩ | ⟨crash, rfl, rfl, rfl⟩⟩ <;>
        rcases ended with ⟨_, same, rfl⟩ | passes
      · cases same
      · cases passes
        exact .noTable isMarker missing
      · cases same
        exact .found isMarker tabled
      · cases passes
      · cases same
      · cases passes
        exact .failed isMarker
      · cases same
      · cases passes
        exact .crashed isMarker
    · have other := isMarker_eq_false resolved marker
      rcases runs_perform_cases marker runs with ⟨carriedOut, rfl, rfl⟩ |
        ⟨stop, carriedOut, passes, rfl⟩
      · rcases ended with ⟨_, same, rfl⟩ | passes
        · cases same
          exact .carried other resolved carriedOut
        · cases passes
      · rcases ended with ⟨spliced, rfl, _⟩ | handedOn
        · exact absurd rfl (passes.ne_value spliced)
        · exact .stopped other resolved carriedOut (passes.trans handedOn)

/-- What runs in the place of a marker is a classification and, if that gives a sequence, visits of
its steps.  Runs that are left waiting are of interest only if `waits` says so. -/
def Splices (context : DispatchContext) (configuration : Configuration) (waits : Prop)
    (branch : Dispatch Flow) : Prop :=
  ∀ {before events outcome after}, Runs (branch before) events (outcome, after) →
    (outcome = .waiting → waits) →
    (∃ stop, Runs (classify configuration before) events (stop, after) ∧ stop.Passes outcome) ∨
    ∃ first spliced middle visits, events = first ++ eventsOf visits ∧
      Runs (classify configuration before) first (.value spliced, middle) ∧
      Visits context configuration middle spliced visits (outcome, after)

section Decomposition

variable {waits : Prop} {branch : Dispatch Flow} {step : ActionStep} {rest : List ActionStep}
  {before middle after : Progress} {first second : List Event} {outcome : Outcome RunError Flow}

def TakesApart (context : DispatchContext) (configuration : Configuration) (waits : Prop)
    (branch : Dispatch Flow) (steps : List ActionStep) : Prop :=
  ∀ {before events outcome after},
    Runs (context.runSteps branch steps before) events (outcome, after) →
    (outcome = .waiting → waits) →
    ∃ visits, events = eventsOf visits ∧
      Visits context configuration before steps visits (outcome, after)

/-- A visit of the marker is followed by visits of what it splices in, and then by the rest. -/
theorem visits_of_runs_marker (splices : Splices context configuration waits branch)
    (takesApart : TakesApart context configuration waits branch rest)
    (arrived : Runs (arrive step before) first (.value (some .zoneChoice), middle))
    (runs : Runs (context.afterArrival branch step rest (some .zoneChoice) middle) second
      (outcome, after))
    (allowed : outcome = .waiting → waits) :
    ∃ visits, first ++ second = eventsOf visits ∧
      Visits context configuration before (step :: rest) visits (outcome, after) := by
  change Runs (branch.bind (context.afterBranch branch rest) (counted middle)) second _ at runs
  rcases Dispatch.runs_bind runs with
    ⟨inside, later, flow, between, rfl, inBranch, runsLater⟩ | ⟨stop, inBranch, passes⟩
  · rcases splices inBranch (by simp) with
      ⟨_, _, passes⟩ | ⟨classifying, spliced, _, visits, rfl, classified, visited⟩
    · exact absurd rfl (passes.ne_value flow)
    · have arriving : Runs (context.visit configuration step before) (first ++ classifying)
          (.value (some spliced), _) := runs_visit_some arrived classified
      cases flow with
      | stopped =>
          obtain ⟨rfl, same⟩ := Dispatch.runs_result_iff.mp runsLater
          cases same
          refine ⟨⟨step, first ++ classifying⟩ :: visits, by simp [eventsOf], .next arriving ?_⟩
          exact visited.append_of_ne_finished (by simp)
      | finished =>
          obtain ⟨others, rfl, visitedLater⟩ := takesApart runsLater allowed
          refine ⟨⟨step, first ++ classifying⟩ :: (visits ++ others), by simp [eventsOf],
            .next arriving (visited.append visitedLater)⟩
  · have same := passes.eq
    subst same
    rcases splices inBranch allowed with
      ⟨stopped, classified, handedOn⟩ | ⟨classifying, spliced, _, visits, rfl, classified, visited⟩
    · obtain ⟨_, toVisit, fromVisit⟩ := handedOn.through
      exact ⟨[⟨step, first ++ second⟩], by simp [eventsOf],
        .ended (runs_visit_stop arrived classified toVisit) fromVisit⟩
    · refine ⟨⟨step, first ++ classifying⟩ :: visits, by simp [eventsOf],
        .next (runs_visit_some arrived classified) ?_⟩
      exact visited.append_of_ne_finished (passes.ne_value _)

theorem visits_of_runs_command {command : Command} (other : command ≠ .zoneChoice)
    (takesApart : TakesApart context configuration waits branch rest)
    (arrived : Runs (arrive step before) first (.value (some command), middle))
    (runs : Runs (context.afterArrival branch step rest (some command) middle) second
      (outcome, after))
    (allowed : outcome = .waiting → waits) :
    ∃ visits, first ++ second = eventsOf visits ∧
      Visits context configuration before (step :: rest) visits (outcome, after) := by
  have afterwards : context.afterArrival branch step rest (some command) =
      (context.perform configuration step command).bind fun _ => context.runSteps branch rest := by
    cases command with
    | zoneChoice => exact absurd rfl other
    | _ => simp [afterArrival, perform, Dispatch.bind_assoc]
  rw [afterwards] at runs
  rcases Dispatch.runs_bind runs with
    ⟨doing, later, spliced, between, rfl, performed, runsLater⟩ | ⟨stop, performed, passes⟩
  · have nothing : spliced = [] := by
      rcases runs_perform_cases other performed with ⟨_, same, _⟩ | ⟨_, _, passes, _⟩
      · cases same
        rfl
      · exact absurd rfl (passes.ne_value spliced)
    subst nothing
    obtain ⟨others, rfl, visitedLater⟩ := takesApart runsLater allowed
    exact ⟨⟨step, first ++ doing⟩ :: others, by simp [eventsOf],
      .next (runs_visit_some arrived performed) visitedLater⟩
  · obtain ⟨_, toVisit, fromVisit⟩ := passes.through
    exact ⟨[⟨step, first ++ second⟩], by simp [eventsOf],
      .ended (runs_visit_stop arrived performed toVisit) fromVisit⟩

/-- A run of steps takes apart into visits if what runs in the place of their markers does. -/
theorem takesApart_of_splices {steps : List ActionStep}
    (splices : ∀ step ∈ steps, step.isMarker = true →
      Splices context configuration waits branch) :
    TakesApart context configuration waits branch steps := by
  induction steps with
  | nil =>
      intro before events outcome after runs _
      obtain ⟨rfl, same⟩ := Dispatch.runs_result_iff.mp runs
      cases same
      exact ⟨[], rfl, .exhausted⟩
  | cons step rest inductionHypothesis =>
      intro before events outcome after runs allowed
      have takesApart : TakesApart context configuration waits branch rest :=
        inductionHypothesis fun other member => splices other (List.mem_cons_of_mem step member)
      rw [runSteps_cons] at runs
      rcases Dispatch.runs_bind runs with
        ⟨first, second, arrival, middle, rfl, arrived, runsAfter⟩ | ⟨stop, arrived, passes⟩
      · obtain ⟨rfl, ⟨same, -⟩ | ⟨_, _, same, -⟩ | ⟨command, resolved, same, -⟩⟩ :=
          runs_arrive_cases arrived
        · cases same
          obtain ⟨rfl, same⟩ := Dispatch.runs_result_iff.mp runsAfter
          cases same
          exact ⟨[⟨step, first⟩], by simp [eventsOf], .lost (runs_visit_none arrived)⟩
        · cases same
        · cases same
          by_cases marker : command = .zoneChoice
          · subst marker
            have isMarker := Command.resolve_eq_zoneChoice_iff.mp resolved
            exact visits_of_runs_marker (splices step (by simp) isMarker) takesApart arrived
              runsAfter allowed
          · exact visits_of_runs_command marker takesApart arrived runsAfter allowed
      · obtain ⟨_, toVisit, fromVisit⟩ := passes.through
        exact ⟨[⟨step, events⟩], by simp [eventsOf],
          .ended (Dispatch.runs_bind_stop arrived toVisit) fromVisit⟩

/-- A marker is granted a level of its own if the sequences of the zones take apart. -/
theorem splices_runBranch_succ {levels : Nat}
    (takesApart : ∀ table, configuration.branchTable = some table → ∀ zone,
      TakesApart context configuration waits (context.runBranch configuration levels)
        (table.get zone)) :
    Splices context configuration waits (context.runBranch configuration (levels + 1)) := by
  intro before events outcome after runs allowed
  rw [runBranch_succ] at runs
  rcases Dispatch.runs_bind runs with
    ⟨first, second, spliced, middle, rfl, classified, runsSteps⟩ | ⟨stop, classified, passes⟩
  · rcases runs_classify_cases classified with
      ⟨_, _, same, _⟩ | ⟨table, tabled, ⟨zone, _, same, _⟩ | ⟨_, _, same, _⟩ | ⟨_, _, same, _⟩⟩
    · cases same
    · cases same
      obtain ⟨visits, rfl, visited⟩ := takesApart table tabled zone runsSteps allowed
      exact .inr ⟨first, table.get zone, middle, visits, rfl, classified, visited⟩
    · cases same
    · cases same
  · exact .inl ⟨stop, classified, passes⟩

/-- However deep markers are nested, a run that is not left waiting takes apart. -/
theorem splices_runBranch (levels : Nat) :
    Splices context configuration False (context.runBranch configuration levels) := by
  induction levels with
  | zero =>
      intro before events outcome after runs allowed
      obtain ⟨runsWaiting, _⟩ := Dispatch.runs_lift_iff.mp runs
      obtain ⟨_, same⟩ := Program.runs_done_iff.mp runsWaiting
      exact (allowed same).elim
  | succ levels inductionHypothesis =>
      exact splices_runBranch_succ fun _ _ _ =>
        takesApart_of_splices fun _ _ _ => inductionHypothesis

end Decomposition

/-- Every run of a configuration that is not left waiting is a sequence of visits. -/
theorem visits_of_runs_runActions {before after : Progress} {events : List Event}
    {outcome : Outcome RunError Flow}
    (runs : Runs (context.runActions configuration before) events (outcome, after))
    (ended : outcome ≠ .waiting) :
    ∃ visits, events = eventsOf visits ∧
      Visits context configuration before configuration.actions visits (outcome, after) :=
  takesApart_of_splices (fun _ _ _ => splices_runBranch _) runs ended

end DispatchContext

end RobotRoutine
