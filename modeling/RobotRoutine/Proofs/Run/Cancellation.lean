import RobotRoutine.Proofs.Failure.Cancellation
import RobotRoutine.Proofs.Run.Branches
import RobotRoutine.Proofs.Run.Escape
import RobotRoutine.Proofs.Run.Interruption

/-!
What a dispatcher and its containment take as a cancellation.

The dispatcher judges a failure as it turns it into its error, and the containment judges that error
as it leaves the run.  The dispatcher looks for the stop request, and the containment also for a run
that was stopped.  So they agree on every run but those in which a device reports a stopped run:
these are left faulted, and then taken as cancelled.
-/

namespace RobotRoutine

open Program (Runs Event)

theorem RunError.stoppedRun_iff {error : RunError} :
    error.StoppedRun ↔
      error = .interrupted ∨ ∃ cause, error = .device cause ∧ cause.StoppedRun := by
  cases error <;> simp [RunError.StoppedRun]

theorem RunError.hasInterruption_ofDevice (failure : Failure) :
    (RunError.ofDevice failure).hasInterruption = false := by
  unfold RunError.ofDevice
  split
  case isTrue => rfl
  case isFalse without => exact eq_false_of_ne_true without

theorem RunError.hasInterruption_ofClassifier (failure : Failure) :
    (RunError.ofClassifier failure).hasInterruption = false := by
  unfold RunError.ofClassifier
  split
  case isTrue => rfl
  case isFalse without => exact eq_false_of_ne_true without

theorem ContainmentContext.containment_cases {context : ContainmentContext} {failure : Failure}
    {after : List Event} {containment : Containment}
    (runs : Runs (context.contain (.error failure)) after (.value containment)) :
    (failure.fault = .cancellation ∧ containment = .cancelled) ∨
      failure.fault ≠ .cancellation ∧ ∃ fault cycles, containment = .held fault cycles := by
  have protocol := protocol_of_calm runs (calm_of_peaceful runs trivial)
  cases (protocol_iff_of_failure? (Outcome.failure?_error failure)).mp protocol with
  | cancelled cancelled => exact .inl ⟨cancelled, rfl⟩
  | held shown => exact .inr ⟨ne_cancellation_of_placard? shown, _, _, rfl⟩

namespace DispatchContext

variable {context : DispatchContext} {configuration : Configuration} {before after : Progress}
  {events earlier later : List Event} {error : RunError}

/-- The stop request is never left in the chain of an error of a run. -/
theorem hasInterruption_of_run
    (runs : Runs (context.run configuration before) events (.error error, after)) :
    error.hasInterruption = false := by
  obtain ⟨step, _, wrong⟩ := exists_stepError_of_run runs
  cases wrong with
  | unresolved unresolved =>
      rcases Command.resolve_error_cases unresolved with rfl | ⟨_, _, rfl⟩ <;> rfl
  | noTable => rfl
  | classifier failure => exact RunError.hasInterruption_ofClassifier failure
  | device failure => exact RunError.hasInterruption_ofDevice failure
  | noDuration given =>
      obtain ⟨_, _, _, _, rfl⟩ := driveDuration_error_cases given
      rfl

theorem cancellation_iff_of_run
    (runs : Runs (context.run configuration before) events (.error error, after)) :
    (Failure.run error).fault = .cancellation ↔
      error = .interrupted ∨ ∃ cause, error = .device cause ∧ cause.StoppedRun := by
  rw [Failure.fault_eq_cancellation_iff, ← RunError.stoppedRun_iff]
  change error.hasInterruption = true ∨ error.StoppedRun ↔ error.StoppedRun
  simp [hasInterruption_of_run runs]

theorem stateOfError_cases (error : RunError) :
    (error = .interrupted ∧ stateOfError error = .aborted) ∨
      error ≠ .interrupted ∧ stateOfError error = .faulted := by
  cases error <;> simp [stateOfError]

/-- The failure of a classifier is the error of the run. -/
theorem error_of_classifier {failure : Failure} {outcome : Outcome RunError RunReport}
    (runs : Runs (context.run configuration before)
      (earlier ++ ⟨.robot .currentZone, Answer.failed failure⟩ :: later) (outcome, after)) :
    outcome = .error (.ofClassifier failure) := by
  rcases ending_of_failure runs rfl with ⟨same, _⟩ | ⟨inCommand, _⟩ | passedOver
  · exact same
  · exact inCommand.elim
  · generalize asked : (⟨.robot .currentZone, Answer.failed failure⟩ : Event) = event at passedOver
    cases passedOver <;> cases asked

/-- Where a dispatcher and its containment agree on what a cancellation is. -/
structure AgreesOnCancellation (context : DispatchContext) (guard : ContainmentContext) : Prop where
  device : ∀ failure : Failure,
    (RunError.ofDevice failure = .interrupted ↔ failure.fault = .cancellation) ↔
      ¬ failure.StoppedRun
  classifier : ∀ configuration before earlier failure later outcome after,
    Runs (context.run configuration before)
      (earlier ++ ⟨.robot .currentZone, Answer.failed failure⟩ :: later) (outcome, after) →
    ∃ error, outcome = .error error ∧
      ((error = .interrupted ↔ failure.fault = .cancellation) ↔ ¬ failure.StoppedRun)
  runs : ∀ configuration before events error after closing containment,
    Runs (context.run configuration before) events (.error error, after) →
    Runs (guard.contain (.error (.run error))) closing (.value containment) →
    ((after.state = .aborted ↔ containment = .cancelled) ∧
        (after.state = .faulted ↔ ∃ fault cycles, containment = .held fault cycles) ↔
      ¬ ∃ cause, error = .device cause ∧ cause.StoppedRun)

theorem agreesOnCancellation (context : DispatchContext) (guard : ContainmentContext) :
    context.AgreesOnCancellation guard where
  device failure := by
    rw [RunError.ofDevice_eq_interrupted_iff]
    exact failure.hasInterruption_iff_cancellation_iff
  classifier configuration before earlier failure later outcome after runs := by
    refine ⟨.ofClassifier failure, error_of_classifier runs, ?_⟩
    rw [RunError.ofClassifier_eq_interrupted_iff]
    exact failure.hasInterruption_iff_cancellation_iff
  runs configuration before events error after closing containment runs contains := by
    have fault := cancellation_iff_of_run runs
    have state := (state_of_run runs).2 error rfl
    have contained := ContainmentContext.containment_cases contains
    rcases stateOfError_cases error with ⟨rfl, aborted⟩ | ⟨other, faulted⟩
    · rw [state, aborted]
      rcases contained with ⟨_, rfl⟩ | ⟨kept, _⟩
      · simp
      · exact absurd (fault.mpr (.inl rfl)) kept
    · rw [state, faulted]
      rcases contained with ⟨cancelled, rfl⟩ | ⟨kept, _, _, rfl⟩
      · have stopped := (fault.mp cancelled).resolve_left other
        simp [stopped]
      · have unstopped : ¬ ∃ cause, error = .device cause ∧ cause.StoppedRun :=
          fun stopped => kept (fault.mpr (.inr stopped))
        simpa using unstopped

/-- A run whose sensor reports a run that was stopped is left faulted, and taken as cancelled. -/
theorem agreesOnCancellation_stoppedReading :
    ∃ events error after closing,
      Runs (sampleContext.run sampleDrive .fresh) events (.error error, after) ∧
      Runs (ContainmentContext.contain ⟨"T", .zero, 5⟩ (.error (.run error))) closing
        (.value .cancelled) ∧
      after.state = .faulted ∧ ∃ cause, error = .device cause ∧ cause.StoppedRun := by
  let answer := drivenBy (.failed (.run .interrupted)) (.ok ())
  let guard : ContainmentContext := ⟨"T", .zero, 5⟩
  have runs := Program.runs_exec answer (sampleContext.run sampleDrive .fresh) .zero
  have ended : (match ((sampleContext.run sampleDrive .fresh).exec answer .zero).1.1 with
      | .error error => decide ((Failure.run error).fault = .cancellation)
      | _ => false) = true := by decide +kernel
  have faulted : ((sampleContext.run sampleDrive .fresh).exec answer .zero).1.2.state =
      .faulted := by decide +kernel
  generalize ((sampleContext.run sampleDrive .fresh).exec answer .zero).1 = final
    at runs ended faulted
  obtain ⟨_ | error | _ | _ | _, after⟩ := final
  case error =>
    have contains : Runs (guard.contain (.error (.run error)))
        (guard.interrupted :: ContainmentContext.closing (.ok ())) (.value .cancelled) := by
      refine (ContainmentContext.runs_settle_of_cancellation (of_decide_eq_true ended) ?_).mpr
        ⟨.ok (), rfl, rfl⟩
      simp [ContainmentContext.interrupted, ContainmentContext.closing, Calm, Answer.IsCalm]
    have agree := (agreesOnCancellation sampleContext guard).runs _ _ _ _ _ _ _ runs contains
    refine ⟨_, error, after, _, runs, contains, faulted, ?_⟩
    by_contra none
    have disagree := (agree.mpr none).1
    rw [faulted] at disagree
    simp at disagree
  all_goals cases ended

end DispatchContext

end RobotRoutine
