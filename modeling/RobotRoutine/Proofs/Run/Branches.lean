import RobotRoutine.Proofs.Document.Reader
import RobotRoutine.Proofs.Run.VisitEffects

/-!
Runs of configurations whose steps and table fit together.

The sequences of the zones hold no marker, so what would run at one does not matter to them: the
zone is found out at most once, and one level below the actions is enough.  What is left to wait for
is a drive or a breakpoint.
-/

namespace RobotRoutine

open Program (Runs Event)

theorem Command.resolve_error_cases {step : ActionStep} {error : RunError}
    (resolved : Command.resolve step = .error error) :
    error = .unsupportedCommand step.commandName ∨
      ∃ key value, error = .invalidValue step.commandName key value := by
  have seconds {direction : Direction}
      (failed : (optionalSeconds step).map (Command.drive direction) = .error error) :
      ∃ key value, error = .invalidValue step.commandName key value := by
    unfold optionalSeconds at failed
    split at failed
    case h_1 => cases failed
    case h_2 value _ =>
      refine ⟨"seconds", value, ?_⟩
      simp only at failed
      split at failed
      case h_1 => exact (Except.error.inj failed).symm
      case h_2 =>
        split at failed
        · exact (Except.error.inj failed).symm
        · split at failed
          · cases failed
          · exact (Except.error.inj failed).symm
  simp only [Command.resolve] at resolved
  split_ifs at resolved with forward reverse sleep breakpoint other
  · exact .inr (seconds resolved)
  · exact .inr (seconds resolved)
  · refine .inr ⟨"ms", (step.attribute? "ms").getD "", ?_⟩
    unfold requiredMillis at resolved
    simp only at resolved
    split at resolved
    · cases resolved
    · exact (Except.error.inj resolved).symm
  · exact .inl (Except.error.inj resolved).symm

namespace DispatchContext

variable {context : DispatchContext} {configuration : Configuration} {step : ActionStep}
  {steps : List ActionStep} {before after : Progress} {events : List Event}

theorem driveDuration_error_cases {duration : Option Duration} {error : RunError}
    (given : context.driveDuration step duration = .error error) :
    duration = none ∧ (∃ cause, context.drive.defaultDuration = .error cause) ∧
      ∃ key value, error = .invalidValue step.commandName key value := by
  cases duration with
  | some duration => cases given
  | none =>
      rw [driveDuration] at given
      cases default : context.drive.defaultDuration with
      | ok duration =>
          rw [default] at given
          cases given
      | error cause =>
          rw [default] at given
          exact ⟨rfl, ⟨cause, rfl⟩, _, _, (Except.error.inj given).symm⟩

theorem noTable_of_stepError {marker : String}
    (wrong : StepError context configuration step (.missingBranchTable marker)) :
    step.isMarker = true ∧ configuration.branchTable = none := by
  generalize same : RunError.missingBranchTable marker = error at wrong
  cases wrong with
  | unresolved resolved =>
      subst same
      rcases Command.resolve_error_cases resolved with same | ⟨_, _, same⟩ <;> cases same
  | noTable isMarker missing => exact ⟨isMarker, missing⟩
  | classifier failure =>
      unfold RunError.ofClassifier at same
      split at same <;> cases same
  | device failure =>
      unfold RunError.ofDevice at same
      split at same <;> cases same
  | noDuration given =>
      subst same
      obtain ⟨_, _, _, _, same⟩ := driveDuration_error_cases given
      cases same

/-- Steps without a marker never come to what would run at one. -/
theorem runSteps_eq_of_plain (plain : ∀ step ∈ steps, step.isMarker = false)
    (branch other : Dispatch Flow) :
    context.runSteps branch steps = context.runSteps other steps := by
  induction steps with
  | nil => rfl
  | cons step rest inductionHypothesis =>
      rw [List.forall_mem_cons] at plain
      have same := inductionHypothesis plain.2
      rw [runSteps, runSteps]
      congr 1
      funext live
      cases live with
      | false => simp only [Bool.false_eq_true, if_false]
      | true =>
          simp only [if_true, Dispatch.bind_def]
          cases resolved : Command.resolve step with
          | error error =>
              simp only [beginStep_of_error resolved, Dispatch.lift_throw_bind]
          | ok command =>
              simp only [beginStep_of_ok resolved, Dispatch.bind_assoc, Dispatch.result_bind]
              cases command with
              | zoneChoice =>
                  have marker := Command.resolve_eq_zoneChoice_iff.mp resolved
                  rw [plain.1] at marker
                  cases marker
              | _ => simp only [same]

theorem classify_bind_congr {next other : List ActionStep → Dispatch Flow}
    (same : ∀ table, configuration.branchTable = some table → ∀ zone,
      next (table.get zone) = other (table.get zone)) :
    (classify configuration).bind next = (classify configuration).bind other := by
  unfold classify
  cases tabled : configuration.branchTable with
  | none =>
      have missing : Task.ofExcept (requireTable configuration) =
          Task.throw (.missingBranchTable branchMarker) := by
        rw [requireTable, tabled]
        rfl
      rw [missing]
      rfl
  | some table =>
      have present : Task.ofExcept (requireTable configuration) = Task.result table := by
        rw [requireTable, tabled]
        rfl
      rw [present]
      simp [Dispatch.bind_assoc, same table tabled]

theorem runBranch_eq (branches : configuration.Branches) (levels : Nat) :
    context.runBranch configuration (levels + 1) = context.runBranch configuration 1 := by
  rw [runBranch_succ, runBranch_succ]
  refine classify_bind_congr ?_
  intro table tabled zone
  exact runSteps_eq_of_plain (branches.plain table tabled zone) _ _

/-- Every run of a configuration, also one that is left waiting, is a sequence of visits. -/
theorem visits_of_branches {outcome : Outcome RunError Flow} (branches : configuration.Branches)
    (runs : Runs (context.runActions configuration before) events (outcome, after)) :
    ∃ visits, events = eventsOf visits ∧
      Visits context configuration before configuration.actions visits (outcome, after) := by
  have splices : Splices context configuration True
      (context.runBranch configuration (context.patience + 1)) := by
    refine splices_runBranch_succ ?_
    intro table tabled zone
    refine takesApart_of_splices ?_
    intro step member marker
    rw [branches.plain table tabled zone step member] at marker
    cases marker
  exact takesApart_of_splices (fun _ _ _ => splices) runs fun _ => trivial

def classifications (events : List Event) : Nat :=
  events.countP fun event => event.request = .robot .currentZone

@[simp]
theorem classifications_append (first second : List Event) :
    classifications (first ++ second) = classifications first + classifications second :=
  List.countP_append

theorem classifications_carryOut {command : Command} {outcome : Outcome RunError Unit}
    (runs : Runs (context.carryOut step command) events outcome) : classifications events = 0 := by
  have made := (Task.within_of_runs (carryOut_within step command) runs).1
  rw [classifications, List.countP_eq_zero]
  intro event member same
  have inCommand := made event member
  rw [of_decide_eq_true same] at inCommand
  exact inCommand

/-- Only a visit of the marker asks for the zone, and it asks once. -/
theorem classifications_visit {ending : Outcome RunError (Option (List ActionStep)) × Progress}
    (runs : Runs (context.visit configuration step before) events ending) :
    classifications events ≤ if step.isMarker then 1 else 0 := by
  have carried {command : Command} {doing : List Event} {stop : Outcome RunError Unit}
      (runs : Runs (context.carryOut step command) doing stop) :
      classifications (⟨.robot .isActive, true⟩ :: beginning step :: doing) = 0 := by
    have none : classifications doing = 0 := classifications_carryOut runs
    exact none
  obtain ⟨outcome, after⟩ := ending
  cases visited_of_runs runs with
  | found marker tabled => simp [marker, classifications, beginning, foundZone]
  | failed marker => simp [marker, classifications, beginning]
  | crashed marker => simp [marker, classifications, beginning]
  | carried other resolved carriedOut => simp [carried carriedOut]
  | stopped other resolved carriedOut passes => simp [carried carriedOut]
  | _ => exact Nat.zero_le _

/-- The visits of an agenda ask for the zone at most as often as markers stand on it. -/
theorem classifications_visits {visits : List Visit}
    {ending : Outcome RunError Flow × Progress} (branches : configuration.Branches)
    (visited : Visits context configuration before steps visits ending) :
    classifications (eventsOf visits) ≤ steps.countP ActionStep.isMarker := by
  have alone {step : ActionStep} {rest : List ActionStep} {before : Progress}
      {events : List Event} {ending : Outcome RunError (Option (List ActionStep)) × Progress}
      (visitedStep : Runs (context.visit configuration step before) events ending) :
      classifications (eventsOf [⟨step, events⟩]) ≤
        (step :: rest).countP ActionStep.isMarker := by
    have asked := classifications_visit visitedStep
    rw [List.countP_cons]
    simp only [eventsOf, List.flatMap_cons, List.flatMap_nil, List.append_nil]
    omega
  induction visited with
  | exhausted => exact Nat.zero_le _
  | lost visitedStep => exact alone visitedStep
  | ended visitedStep _ => exact alone visitedStep
  | @next _ step rest events spliced _ visits _ visitedStep _ inductionHypothesis =>
      have asked := classifications_visit visitedStep
      have plain : spliced.countP ActionStep.isMarker = 0 := by
        rw [List.countP_eq_zero]
        rcases spliced_of_visit visitedStep with ⟨_, table, tabled, zone, rfl⟩ | ⟨_, rfl⟩
        · intro other member
          rw [branches.plain table tabled zone other member]
          exact Bool.false_ne_true
        · simp
      rw [List.countP_append, plain] at inductionHypothesis
      have split : eventsOf (⟨step, events⟩ :: visits) = events ++ eventsOf visits := rfl
      rw [split, classifications_append, List.countP_cons]
      omega

theorem carryOut_of_visit_waiting
    (runs : Runs (context.visit configuration step before) events (.waiting, after)) :
    ∃ command part, Command.resolve step = .ok command ∧
      Runs (context.carryOut step command) part .waiting ∧ part <:+: events := by
  cases visited_of_runs runs with
  | stopped other resolved carriedOut passes =>
      cases passes
      exact ⟨_, _, resolved, carriedOut, (List.suffix_append [_, _] _).isInfix⟩

theorem carryOut_of_visits_waiting {visits : List Visit}
    (made : Visits context configuration before steps visits (.waiting, after))
    (among : ∀ step ∈ steps, step ∈ Check.allSteps configuration) :
    ∃ step ∈ Check.allSteps configuration, ∃ command part,
      Command.resolve step = .ok command ∧
      Runs (context.carryOut step command) part .waiting ∧ part <:+: eventsOf visits := by
  obtain ⟨step, isStep, _, _, _, runs, passes, within⟩ :=
    exists_ended_of_visits made (by simp) among
  cases passes
  obtain ⟨command, part, resolved, runs, inside⟩ := carryOut_of_visit_waiting runs
  exact ⟨step, isStep, command, part, resolved, runs, inside.trans within⟩

/-- The branch of a configuration bounds every run of it. -/
structure BranchesOnce (context : DispatchContext) (configuration : Configuration) : Prop where
  /-- What would run at a marker does not matter to the sequence of a zone. -/
  aside : ∀ table, configuration.branchTable = some table → ∀ zone branch other,
    context.runSteps branch (table.get zone) = context.runSteps other (table.get zone)
  /-- One level below the actions is enough. -/
  nesting : ∀ levels,
    context.runBranch configuration (levels + 1) = context.runBranch configuration 1
  /-- The table is never missed. -/
  tabled : ∀ before events after marker,
    ¬Runs (context.run configuration before) events (.error (.missingBranchTable marker), after)
  /-- The zone is found out at most once. -/
  once : ∀ before events ending,
    Runs (context.run configuration before) events ending → classifications events ≤ 1
  /-- A run that is left waiting waits for the command of one of its steps. -/
  patient : ∀ before events after,
    Runs (context.run configuration before) events (.waiting, after) →
    ∃ step ∈ Check.allSteps configuration, ∃ command part,
      Command.resolve step = .ok command ∧
      Runs (context.carryOut step command) part .waiting ∧ part <:+: events

theorem not_noTable {error : RunError} (branches : configuration.Branches) {marker : String}
    (isStep : step ∈ Check.allSteps configuration)
    (wrong : StepError context configuration step error) :
    error ≠ .missingBranchTable marker := by
  rintro rfl
  obtain ⟨isMarker, missing⟩ := noTable_of_stepError wrong
  rcases Check.mem_allSteps_iff.mp isStep with member | ⟨table, tabled, _⟩
  · have none := branches.absent.mp missing
    exact List.countP_eq_zero.mp none step member isMarker
  · rw [missing] at tabled
    cases tabled

theorem classifications_run {ending : Outcome RunError RunReport × Progress}
    (branches : configuration.Branches)
    (runs : Runs (context.run configuration before) events ending) :
    classifications events ≤ 1 := by
  obtain ⟨outcome, after⟩ := ending
  rcases runs_run_cases runs with ⟨rfl, _⟩ | ⟨acting, closing, stop, _, rfl, runsActions, concludes⟩
  · exact Nat.zero_le 1
  · obtain ⟨visits, rfl, visited⟩ := visits_of_branches branches runsActions
    have asked := classifications_visits branches visited
    have few : configuration.actions.countP ActionStep.isMarker ≤ 1 := by
      cases tabled : configuration.branchTable with
      | none => exact Nat.le_trans (Nat.le_of_eq (branches.absent.mp tabled)) (Nat.zero_le 1)
      | some table => exact Nat.le_of_eq (branches.present.mp (by rw [tabled]; rfl))
    have quiet : classifications closing = 0 := by
      cases concludes with
      | finished completion => cases completion <;> rfl
      | _ => rfl
    change classifications (eventsOf visits ++ closing) ≤ 1
    rw [classifications_append, quiet]
    omega

theorem carryOut_of_run_waiting (branches : configuration.Branches)
    (runs : Runs (context.run configuration before) events (.waiting, after)) :
    ∃ step ∈ Check.allSteps configuration, ∃ command part,
      Command.resolve step = .ok command ∧
      Runs (context.carryOut step command) part .waiting ∧ part <:+: events := by
  rcases runs_run_cases runs with ⟨_, same, _⟩ | ⟨acting, _, _, _, rfl, runsActions, concludes⟩
  · cases same
  · cases concludes with
    | finished completion => cases completion
    | waiting =>
        obtain ⟨visits, rfl, visited⟩ := visits_of_branches branches runsActions
        obtain ⟨step, isStep, command, part, resolved, waits, inside⟩ :=
          carryOut_of_visits_waiting visited fun step member =>
            Check.mem_allSteps_iff.mpr (.inl member)
        refine ⟨step, isStep, command, part, resolved, waits, ?_⟩
        rw [List.append_nil]
        exact inside.trans (List.suffix_append (opening context ++ [_]) _).isInfix

theorem branchesOnce_of_branches (branches : configuration.Branches) :
    context.BranchesOnce configuration where
  aside := fun table tabled zone =>
    runSteps_eq_of_plain (branches.plain table tabled zone)
  nesting := runBranch_eq branches
  tabled := by
    intro before events after marker runs
    obtain ⟨step, isStep, wrong⟩ := exists_stepError_of_run runs
    exact not_noTable branches isStep wrong rfl
  once := fun _ _ _ => classifications_run branches
  patient := fun _ _ _ => carryOut_of_run_waiting branches

/-- What an accepted document makes sure of, and what this makes sure of in every run. -/
theorem accepted_and_branchesOnce {root : Xml.Element} {selector : String}
    (read : Document.ofRoot root selector = .ok configuration) :
    Document.Accepted root selector configuration ∧
      ∀ context : DispatchContext, context.BranchesOnce configuration := by
  have accepted := Document.accepted_ofRoot read
  exact ⟨accepted, fun _ => branchesOnce_of_branches accepted.branches⟩

theorem accepted_and_branchesOnce_sample :
    Document.Accepted Document.sampleRoot "A" Document.sampleConfiguration ∧
      ∀ context : DispatchContext, context.BranchesOnce Document.sampleConfiguration :=
  accepted_and_branchesOnce Document.ofRoot_sampleRoot

end DispatchContext

end RobotRoutine
