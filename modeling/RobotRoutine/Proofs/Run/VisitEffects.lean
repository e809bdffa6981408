import RobotRoutine.Check.Basic
import RobotRoutine.Proofs.Run.Commands
import RobotRoutine.Proofs.Run.Course

/-!
What the visits of a run may do.

A run visits only steps among its actions and in the sequences of its zones.  A visit makes the
calls of its command and at most asks for the zone, it leaves the state of the dispatcher alone, and
the errors in which it can end are few.  So every error of a run is that of a step it might come to.
-/

namespace RobotRoutine

open Program (Runs Event)

namespace Check

theorem mem_allSteps_iff {configuration : Configuration} {step : ActionStep} :
    step ∈ allSteps configuration ↔ step ∈ configuration.actions ∨
      ∃ table, configuration.branchTable = some table ∧ ∃ zone, step ∈ table.get zone := by
  rw [allSteps, List.mem_append]
  cases tabled : configuration.branchTable with
  | none => simp [branchSteps]
  | some table =>
      simp only [branchSteps, List.mem_flatMap, Option.some.injEq, exists_eq_left']
      apply or_congr_right
      constructor
      · rintro ⟨zone, _, member⟩
        exact ⟨zone, member⟩
      · rintro ⟨zone, member⟩
        exact ⟨zone, zone.mem_all, member⟩

end Check

/-- The errors in which a single step can end. -/
inductive StepError (context : DispatchContext) (configuration : Configuration)
    (step : ActionStep) : RunError → Prop where
  | unresolved {error} :
      Command.resolve step = .error error → StepError context configuration step error
  | noTable :
      step.isMarker = true → configuration.branchTable = none →
      StepError context configuration step (.missingBranchTable branchMarker)
  | classifier (failure) : StepError context configuration step (.ofClassifier failure)
  | device (failure) : StepError context configuration step (.ofDevice failure)
  | noDuration {duration error} :
      context.driveDuration step duration = .error error →
      StepError context configuration step error

namespace DispatchContext

variable {context : DispatchContext} {configuration : Configuration} {step : ActionStep}
  {before after : Progress} {events : List Event}

theorem stepError_of_visit {error : RunError}
    (runs : Runs (context.visit configuration step before) events (.error error, after)) :
    StepError context configuration step error := by
  cases visited_of_runs runs with
  | unresolved unresolved => exact .unresolved unresolved
  | noTable marker missing => exact .noTable marker missing
  | failed marker => exact .classifier _
  | stopped other resolved carriedOut passes =>
      cases passes
      obtain ⟨_, ⟨failure, rfl⟩ | ⟨_, given⟩⟩ :=
        Task.within_of_runs (carryOut_within step _) carriedOut
      · exact .device failure
      · exact .noDuration given

/-- Only the marker splices steps in, and these are a sequence of the table. -/
theorem spliced_of_visit {spliced : List ActionStep}
    (runs : Runs (context.visit configuration step before) events (.value (some spliced), after)) :
    (step.isMarker = true ∧
      ∃ table, configuration.branchTable = some table ∧ ∃ zone, spliced = table.get zone) ∨
    step.isMarker = false ∧ spliced = [] := by
  cases visited_of_runs runs with
  | found marker tabled => exact .inl ⟨marker, _, tabled, _, rfl⟩
  | carried other resolved carriedOut => exact .inr ⟨other, rfl⟩
  | stopped other resolved carriedOut passes => cases passes

theorem mem_allSteps_of_visit {spliced : List ActionStep}
    (visited : Runs (context.visit configuration step before) events
      (.value (some spliced), after)) :
    ∀ other ∈ spliced, other ∈ Check.allSteps configuration := by
  intro other member
  rcases spliced_of_visit visited with ⟨_, table, tabled, zone, rfl⟩ | ⟨_, rfl⟩
  · exact Check.mem_allSteps_iff.mpr (.inr ⟨table, tabled, zone, member⟩)
  · cases member

theorem calls_of_visit {ending : Outcome RunError (Option (List ActionStep)) × Progress}
    (runs : Runs (context.visit configuration step before) events ending) :
    ∀ event ∈ events, event.request.InCommand ∨ event.request = .robot .currentZone := by
  have carried {command : Command} {doing : List Event} {stop : Outcome RunError Unit}
      (runs : Runs (context.carryOut step command) doing stop) :
      ∀ event ∈ ⟨.robot .isActive, true⟩ :: beginning step :: doing,
        event.request.InCommand ∨ event.request = .robot .currentZone := by
    have made := (Task.within_of_runs (carryOut_within step command) runs).1
    rw [List.forall_mem_cons, List.forall_mem_cons]
    exact ⟨.inl trivial, .inl trivial, fun event member => .inl (made event member)⟩
  obtain ⟨outcome, after⟩ := ending
  cases visited_of_runs runs with
  | carried other resolved carriedOut => exact carried carriedOut
  | stopped other resolved carriedOut passes => exact carried carriedOut
  | _ => simp [beginning, foundZone, Call.InCommand, Call.InLoop]

theorem state_of_visit {outcome : Outcome RunError (Option (List ActionStep))}
    (runs : Runs (context.visit configuration step before) events (outcome, after)) :
    after.state = before.state := by
  cases visited_of_runs runs <;> rfl

theorem calls_of_visits {steps : List ActionStep} {visits : List Visit}
    {ending : Outcome RunError Flow × Progress}
    (made : Visits context configuration before steps visits ending) :
    ∀ event ∈ eventsOf visits, event.request.InCommand ∨ event.request = .robot .currentZone := by
  have each : ∀ visit ∈ visits, ∀ event ∈ visit.events,
      event.request.InCommand ∨ event.request = .robot .currentZone := by
    refine made.forall_visit ?_
    intro _ _ _ _ _ runs _
    exact calls_of_visit runs
  intro event member
  obtain ⟨visit, isVisit, member⟩ := List.mem_flatMap.mp member
  exact each visit isVisit event member

theorem state_of_visits {steps : List ActionStep} {visits : List Visit}
    {outcome : Outcome RunError Flow}
    (visited : Visits context configuration before steps visits (outcome, after)) :
    after.state = before.state := by
  generalize same : (outcome, after) = ending at visited
  induction visited with
  | exhausted =>
      cases same
      rfl
  | lost visitedStep =>
      cases same
      exact state_of_visit visitedStep
  | ended visitedStep _ =>
      cases same
      exact state_of_visit visitedStep
  | next visitedStep _ inductionHypothesis =>
      exact (inductionHypothesis same).trans (state_of_visit visitedStep)

/-- Visits that end neither finished nor stopped end as the visit of one of their steps does. -/
theorem exists_ended_of_visits {steps : List ActionStep} {visits : List Visit}
    {outcome : Outcome RunError Flow}
    (made : Visits context configuration before steps visits (outcome, after))
    (failed : ∀ flow, outcome ≠ .value flow)
    (among : ∀ step ∈ steps, step ∈ Check.allSteps configuration) :
    ∃ step ∈ Check.allSteps configuration, ∃ before events stop,
      Runs (context.visit configuration step before) events (stop, after) ∧
      stop.Passes outcome ∧ events <:+: eventsOf visits := by
  generalize same : (outcome, after) = ending at made
  induction made with
  | exhausted =>
      cases same
      exact absurd rfl (failed .finished)
  | lost =>
      cases same
      exact absurd rfl (failed .stopped)
  | @ended before step _ events stop _ _ runs passes =>
      cases same
      refine ⟨step, among step (by simp), before, events, stop, runs, passes, ?_⟩
      simp [eventsOf]
  | @next _ step rest events spliced _ visits _ visitedStep _ inductionHypothesis =>
      have amongRest : ∀ other ∈ spliced ++ rest, other ∈ Check.allSteps configuration := by
        intro other member
        rcases List.mem_append.mp member with inSpliced | inRest
        · exact mem_allSteps_of_visit visitedStep other inSpliced
        · exact among other (List.mem_cons_of_mem step inRest)
      obtain ⟨found, isStep, before, part, stop, runs, passes, inside⟩ :=
        inductionHypothesis amongRest same
      refine ⟨found, isStep, before, part, stop, runs, passes, ?_⟩
      exact inside.trans (List.suffix_append events (eventsOf visits)).isInfix

/-- The error of a run is that of a visit of one of its steps. -/
theorem exists_failed_visit_of_run {error : RunError}
    (runs : Runs (context.run configuration before) events (.error error, after)) :
    ∃ step ∈ Check.allSteps configuration, ∃ before part after,
      Runs (context.visit configuration step before) part (.error error, after) ∧
      part <:+: events := by
  rcases visits_run_cases runs (by simp) with
    ⟨_, same, _⟩ | ⟨visits, closing, ending, middle, rfl, made, _, concludes⟩
  · cases same
  · cases concludes with
    | finished completion => cases completion
    | error =>
        have among : ∀ step ∈ configuration.actions, step ∈ Check.allSteps configuration :=
          fun step member => Check.mem_allSteps_iff.mpr (.inl member)
        obtain ⟨step, isStep, before, part, stop, runsVisit, passes, inside⟩ :=
          exists_ended_of_visits made (by simp) among
        cases passes
        refine ⟨step, isStep, before, part, middle, runsVisit, ?_⟩
        rw [← List.singleton_append, ← List.append_assoc]
        exact inside.trans (List.infix_append' _ _ _)

/-- Every error of a run is the error of a step that the run might come to. -/
theorem exists_stepError_of_run {error : RunError}
    (runs : Runs (context.run configuration before) events (.error error, after)) :
    ∃ step ∈ Check.allSteps configuration, StepError context configuration step error := by
  obtain ⟨step, isStep, _, _, _, runsVisit, _⟩ := exists_failed_visit_of_run runs
  exact ⟨step, isStep, stepError_of_visit runsVisit⟩

end DispatchContext

end RobotRoutine
