import RobotRoutine.Proofs.Failure.Fault

/-!
Failures that are taken as a cancellation.

A dispatcher looks for the stop request in the chain of a failure, and finds a cancellation there
just if the stop request is among its links.  Whoever looks at the failure from outside finds one
more: a run that was stopped, and that nothing but contexts and devices report.  Failures of this
kind, and only these, are judged in two ways.
-/

namespace RobotRoutine

mutual

/-- Below contexts and device failures there is a run that was stopped. -/
def Failure.StoppedRun : Failure → Prop
  | .context _ cause => cause.StoppedRun
  | .run error => error.StoppedRun
  | .plain _ => False
  | .interrupted => False
  | .tagged _ _ => False
  | .document _ => False

def RunError.StoppedRun : RunError → Prop
  | .interrupted => True
  | .device cause => cause.StoppedRun
  | .classificationFailed _ => False
  | .unsupportedCommand _ => False
  | .invalidValue _ _ _ => False
  | .missingBranchTable _ => False

end

mutual

theorem Failure.hasInterruption_of_stoppedRun :
    (failure : Failure) → failure.StoppedRun → failure.hasInterruption = false
  | .context _ cause, stopped => cause.hasInterruption_of_stoppedRun stopped
  | .run error, stopped => error.hasInterruption_of_stoppedRun stopped

theorem RunError.hasInterruption_of_stoppedRun :
    (error : RunError) → error.StoppedRun → error.hasInterruption = false
  | .interrupted, _ => rfl
  | .device cause, stopped => cause.hasInterruption_of_stoppedRun stopped

end

/-- Below a link that names a subsystem only the stop request itself makes a cancellation. -/
theorem Fault.ofLinks_some_eq_cancellation_iff {message tag : String} {links : List LinkKind} :
    Fault.ofLinks message (some tag) links = .cancellation ↔ .stopRequest ∈ links := by
  induction links with
  | nil => simp [Fault.ofLinks]
  | cons link links inductionHypothesis =>
      cases link <;> simp [Fault.ofLinks, inductionHypothesis]

mutual

theorem Failure.ofLinks_eq_cancellation_iff (message : String) :
    (failure : Failure) → (Fault.ofLinks message none failure.links = .cancellation ↔
      failure.hasInterruption = true ∨ failure.StoppedRun)
  | .context _ cause => cause.ofLinks_eq_cancellation_iff message
  | .run error => error.ofLinks_eq_cancellation_iff message
  | .plain _ => by
      simp [Failure.links, Failure.hasInterruption, Failure.StoppedRun, Fault.ofLinks]
  | .interrupted => by
      simp [Failure.links, Failure.hasInterruption, Failure.StoppedRun, Fault.ofLinks]
  | .tagged _ _ => by
      simp [Failure.links, Failure.hasInterruption, Failure.StoppedRun, Fault.ofLinks]
  | .document _ => by
      simp [Failure.links, Failure.hasInterruption, Failure.StoppedRun, Fault.ofLinks,
        Fault.ofLinks_some_eq_cancellation_iff]

theorem RunError.ofLinks_eq_cancellation_iff (message : String) :
    (error : RunError) → (Fault.ofLinks message none error.links = .cancellation ↔
      error.hasInterruption = true ∨ error.StoppedRun)
  | .device cause => cause.ofLinks_eq_cancellation_iff message
  | .classificationFailed cause => by
      simp [RunError.links, RunError.hasInterruption, RunError.StoppedRun, Fault.ofLinks,
        Fault.ofLinks_some_eq_cancellation_iff, cause.stopRequest_mem_links_iff]
  | .interrupted => by
      simp [RunError.links, RunError.hasInterruption, RunError.StoppedRun, Fault.ofLinks]
  | .unsupportedCommand _ => by
      simp [RunError.links, RunError.hasInterruption, RunError.StoppedRun, Fault.ofLinks]
  | .invalidValue _ _ _ => by
      simp [RunError.links, RunError.hasInterruption, RunError.StoppedRun, Fault.ofLinks]
  | .missingBranchTable _ => by
      simp [RunError.links, RunError.hasInterruption, RunError.StoppedRun, Fault.ofLinks]

end

namespace Failure

variable {failure : Failure}

theorem fault_eq_cancellation_iff :
    failure.fault = .cancellation ↔ failure.hasInterruption = true ∨ failure.StoppedRun :=
  failure.ofLinks_eq_cancellation_iff _

/-- What looks for the stop request alone agrees with the fault, but for a stopped run. -/
theorem hasInterruption_iff_cancellation_iff :
    (failure.hasInterruption = true ↔ failure.fault = .cancellation) ↔ ¬ failure.StoppedRun := by
  rw [fault_eq_cancellation_iff]
  constructor
  · intro agree stopped
    have inside := agree.mpr (.inr stopped)
    rw [failure.hasInterruption_of_stoppedRun stopped] at inside
    cases inside
  · intro other
    simp [other]

end Failure

namespace RunError

variable {failure : Failure}

theorem ofDevice_eq_interrupted_iff :
    ofDevice failure = .interrupted ↔ failure.hasInterruption = true := by
  simp [ofDevice]

theorem ofClassifier_eq_interrupted_iff :
    ofClassifier failure = .interrupted ↔ failure.hasInterruption = true := by
  simp [ofClassifier]

end RunError

end RobotRoutine
