import RobotRoutine.Proofs.Program.Obliging
import RobotRoutine.Proofs.Run.Settlement
import RobotRoutine.Proofs.Run.Willing

/-!
The offline check and the dispatcher.

The check looks at all steps that a run might come to, the dispatcher at those it does come to, and
both resolve them in the same way.  So what the check finds no fault with is never refused in a run,
and a run in a world that does its part ends as the steps on its agenda say.
-/

namespace RobotRoutine

open Program (Runs Event)

/-- An error by which the dispatcher refuses a configuration. -/
def RunError.IsRefusal : RunError → Prop
  | unsupportedCommand _ => True
  | invalidValue _ _ _ => True
  | missingBranchTable _ => True
  | _ => False

theorem RunError.not_isRefusal_ofDevice (failure : Failure) :
    ¬(RunError.ofDevice failure).IsRefusal := by
  unfold RunError.ofDevice
  split <;> exact id

theorem RunError.not_isRefusal_ofClassifier (failure : Failure) :
    ¬(RunError.ofClassifier failure).IsRefusal := by
  unfold RunError.ofClassifier
  split <;> exact id

/-- Settings that pass know how long a drive takes whose step does not say. -/
theorem Settings.exists_defaultDuration_of_validate {settings : Settings}
    (valid : settings.validate = .ok ()) :
    ∃ timed, settings.drive.defaultDuration = .ok timed := by
  unfold validate at valid
  split at valid
  · cases valid
  · split at valid
    · cases valid
    · cases default : settings.drive.defaultDuration with
      | ok timed => exact ⟨timed, rfl⟩
      | error error =>
          rw [default] at valid
          cases valid

def DispatchContext.under (context : DispatchContext) (settings : Settings) : DispatchContext :=
  { context with drive := settings.drive, timing := settings.timing }

namespace Check

def entries (step : ActionStep) : List String :=
  (unsupportedName? step).toList ++ (invalidText? step).toList

theorem length_entries (step : ActionStep) :
    (entries step).length = if (Command.resolve step).isOk then 0 else 1 := by
  cases resolved : Command.resolve step with
  | ok command =>
      simp [entries, unsupportedName?, invalidText?, resolved, Except.isOk, Except.toBool]
  | error error =>
      rcases Command.resolve_error_cases resolved with rfl | ⟨key, value, rfl⟩
      · simp [entries, unsupportedName?, invalidText?, resolved, Except.isOk, Except.toBool]
      · simp [entries, unsupportedName?, invalidText?, resolved, Except.isOk, Except.toBool]

theorem entries_eq_nil_iff {step : ActionStep} :
    entries step = [] ↔ ∃ command, Command.resolve step = .ok command := by
  rw [← List.length_eq_zero_iff, length_entries]
  cases resolved : Command.resolve step with
  | ok command => simp [Except.isOk, Except.toBool]
  | error error => simp [Except.isOk, Except.toBool]

theorem exists_command_of_no_entries {selector : String} {configuration : Configuration}
    (supported : (summary selector configuration).unsupported = [])
    (valid : (summary selector configuration).invalid = []) {step : ActionStep}
    (isStep : step ∈ allSteps configuration) : ∃ command, Command.resolve step = .ok command := by
  have noName : unsupportedName? step = none := List.filterMap_eq_nil_iff.mp supported step isStep
  have noText : invalidText? step = none := List.filterMap_eq_nil_iff.mp valid step isStep
  apply entries_eq_nil_iff.mp
  rw [entries, noName, noText]
  rfl

/-- A summary and the runs of a dispatcher say the same about the steps of a configuration. -/
structure Agrees (summary : CheckSummary) (context : DispatchContext)
    (configuration : Configuration) : Prop where
  /-- A configuration with which no fault is found is never refused. -/
  sound : summary.unsupported = [] → summary.invalid = [] → ∀ before events error after,
    Runs (context.run configuration before) events (.error error, after) → ¬error.IsRefusal
  /-- A run in which nobody fails, if it ends, ends completed if no step on the agenda of its zone
  fails to resolve, and otherwise with the error of the first one that does. -/
  ended : ∀ {zone : Zone} {events : List Event} {outcome : Outcome RunError RunReport}
    {after : Progress}, (∀ event ∈ events, Willing zone event.request event.reply) →
    Runs (context.run configuration .fresh) events (outcome, after) → outcome ≠ .waiting →
    EndsAsResolved (configuration.agenda zone) outcome
  /-- In a world that does its part, a run that is granted enough turns does end. -/
  exact : ∀ {σ : Type} {answer : (request : Call) → σ → request.Reply × σ} {zone : Zone}
    {clock : σ → Duration}, Cooperative answer context.timing.breakpointPoll zone clock →
    ∀ world : σ, ∃ outcome after later,
      Program.Settles answer
        (fun patience => (context.granted patience).run configuration .fresh) world
        ((outcome, after), later) ∧ EndsAsResolved (configuration.agenda zone) outcome
  /-- The two lists hold the entries of all steps, those of the three zones included. -/
  unsupported : summary.unsupported =
    (configuration.actions ++ (match configuration.branchTable with
      | none => []
      | some table => table.left ++ table.center ++ table.right)).filterMap unsupportedName?
  invalid : summary.invalid =
    (configuration.actions ++ (match configuration.branchTable with
      | none => []
      | some table => table.left ++ table.center ++ table.right)).filterMap invalidText?
  /-- A step that does not resolve has exactly one entry, and any other step none. -/
  once : ∀ step, (entries step).length = if (Command.resolve step).isOk then 0 else 1

theorem allSteps_eq (configuration : Configuration) :
    allSteps configuration =
      configuration.actions ++ (match configuration.branchTable with
        | none => []
        | some table => table.left ++ table.center ++ table.right) := by
  cases tabled : configuration.branchTable with
  | none => simp [allSteps, branchSteps, tabled]
  | some table => simp [allSteps, branchSteps, tabled, Zone.all, BranchTable.get]

/-- Where every step resolves and every drive has a duration, no step is refused. -/
theorem not_isRefusal_of_stepError {context : DispatchContext} {configuration : Configuration}
    {timed : Duration} (default : context.drive.defaultDuration = .ok timed)
    (branches : configuration.Branches) {step : ActionStep} {command : Command}
    (isStep : step ∈ allSteps configuration) (resolved : Command.resolve step = .ok command)
    {error : RunError} (wrong : StepError context configuration step error) :
    ¬error.IsRefusal := by
  cases wrong with
  | unresolved unresolved =>
      rw [resolved] at unresolved
      cases unresolved
  | noTable isMarker missing =>
      have wrong : StepError context configuration step (.missingBranchTable branchMarker) :=
        .noTable isMarker missing
      exact absurd rfl (DispatchContext.not_noTable branches isStep wrong)
  | classifier failure => exact RunError.not_isRefusal_ofClassifier failure
  | device failure => exact RunError.not_isRefusal_ofDevice failure
  | noDuration given =>
      obtain ⟨_, ⟨cause, failed⟩, _⟩ := DispatchContext.driveDuration_error_cases given
      rw [default] at failed
      cases failed

/-- The check of an accepted document agrees with every dispatcher under valid settings. -/
theorem agrees_of_ofFile {path selector : String} {contents : Except SystemError String}
    {configuration : Configuration} {settings : Settings}
    (accepted : Document.ofFile path contents selector = .ok configuration)
    (valid : settings.validate = .ok ()) (context : DispatchContext) :
    Agrees (summary selector configuration) (context.under settings) configuration := by
  have branches := Document.branches_ofFile accepted
  obtain ⟨timed, default⟩ := Settings.exists_defaultDuration_of_validate valid
  refine
    { sound := ?_
      ended := ?_
      exact := ?_
      unsupported := by rw [← allSteps_eq]; rfl
      invalid := by rw [← allSteps_eq]; rfl
      once := length_entries }
  · intro supported valued before events error after runs
    obtain ⟨step, isStep, wrong⟩ := DispatchContext.exists_stepError_of_run runs
    obtain ⟨command, resolved⟩ := exists_command_of_no_entries supported valued isStep
    exact not_isRefusal_of_stepError default branches isStep resolved wrong
  · intro zone events outcome after willing runs ended
    exact DispatchContext.endsAsResolved_of_run default branches willing runs ended
  · intro σ answer zone clock cooperative world
    exact DispatchContext.settles_run cooperative default branches .fresh world

def sampleText : String :=
  "<RobotAction><OpMode id='A'><parameters/><actions><sleep ms='5'/><dance/></actions></OpMode>" ++
  "</RobotAction>"

def sampleSteps : Configuration where
  loggingThreshold := none
  regionOfInterest := .empty
  tagsOfInterest := []
  startingPose := none
  actions := [⟨"sleep", [("ms", "5")]⟩, ⟨"dance", []⟩]
  branchTable := none

theorem agrees_of_ofFile_sample :
    Agrees (summary "A" sampleSteps) (sampleContext.under .initial) sampleSteps ∧
      ∃ error after later, Program.Settles (obliging .left)
        (fun patience => ((sampleContext.under .initial).granted patience).run sampleSteps .fresh)
        .zero ((.error error, after), later) := by
  have accepted : Document.ofFile "routine.xml" (.ok sampleText) "A" = .ok sampleSteps := by
    decide +kernel
  have valid : Settings.initial.validate = .ok () := by decide +kernel
  have agrees := agrees_of_ofFile accepted valid sampleContext
  obtain ⟨outcome, after, later, settles, ends⟩ :=
    agrees.exact (cooperative_obliging _ .left) .zero
  have fails : (firstError (sampleSteps.agenda .left)).isSome = true := by decide +kernel
  obtain ⟨error, wrong⟩ := Option.isSome_iff_exists.mp fails
  rw [EndsAsResolved, wrong] at ends
  subst ends
  exact ⟨agrees, error, after, later, settles⟩

end Check

end RobotRoutine
