import RobotRoutine.Failure.Fault

/-!
Failures without a stop request.

A fault is a cancellation only if a link of its chain is the stop request or a run that was stopped
by it.  A failure without such a link stays without it when the dispatcher makes it an error of its
own, since the dispatcher looks for the stop request in the chain.
-/

namespace RobotRoutine

def LinkKind.IsStop : LinkKind → Prop
  | .stopRequest => True
  | .stoppedRun => True
  | _ => False

/-- No link of the chain is a stop request or a stopped run. -/
def Failure.Uninterrupted (failure : Failure) : Prop := ∀ link ∈ failure.links, ¬ link.IsStop

def RunError.Uninterrupted (error : RunError) : Prop := ∀ link ∈ error.links, ¬ link.IsStop

theorem Fault.ofLinks_ne_cancellation (message : String) {links : List LinkKind}
    (uninterrupted : ∀ link ∈ links, ¬ link.IsStop) (tag : Option String) :
    Fault.ofLinks message tag links ≠ .cancellation := by
  induction links generalizing tag with
  | nil => cases tag <;> simp [Fault.ofLinks]
  | cons link links inductionHypothesis =>
      rw [List.forall_mem_cons] at uninterrupted
      have rest := inductionHypothesis uninterrupted.2
      cases link with
      | stopRequest => exact absurd trivial uninterrupted.1
      | stoppedRun => exact absurd trivial uninterrupted.1
      | silent => cases tag <;> exact rest _
      | subsystem other => cases tag <;> exact rest _

theorem Failure.Uninterrupted.fault_ne_cancellation {failure : Failure}
    (uninterrupted : failure.Uninterrupted) : failure.fault ≠ .cancellation :=
  Fault.ofLinks_ne_cancellation _ uninterrupted none

mutual

/-- The stop request in a chain is one of its links. -/
theorem Failure.stopRequest_mem_links_iff :
    (failure : Failure) → (.stopRequest ∈ failure.links ↔ failure.hasInterruption = true)
  | .plain _ => by simp [Failure.links, Failure.hasInterruption]
  | .context _ cause => by
      simpa [Failure.links, Failure.hasInterruption] using cause.stopRequest_mem_links_iff
  | .interrupted => by simp [Failure.links, Failure.hasInterruption]
  | .tagged _ _ => by simp [Failure.links, Failure.hasInterruption]
  | .document _ => by simp [Failure.links, Failure.hasInterruption]
  | .run error => error.stopRequest_mem_links_iff

theorem RunError.stopRequest_mem_links_iff :
    (error : RunError) → (.stopRequest ∈ error.links ↔ error.hasInterruption = true)
  | .classificationFailed cause => by
      simpa [RunError.links, RunError.hasInterruption] using cause.stopRequest_mem_links_iff
  | .device cause => by
      simpa [RunError.links, RunError.hasInterruption] using cause.stopRequest_mem_links_iff
  | .unsupportedCommand _ => by simp [RunError.links, RunError.hasInterruption]
  | .invalidValue _ _ _ => by simp [RunError.links, RunError.hasInterruption]
  | .missingBranchTable _ => by simp [RunError.links, RunError.hasInterruption]
  | .interrupted => by simp [RunError.links, RunError.hasInterruption]

end

namespace Failure.Uninterrupted

variable {failure : Failure}

theorem hasInterruption_eq_false (uninterrupted : failure.Uninterrupted) :
    failure.hasInterruption = false := by
  cases inside : failure.hasInterruption with
  | false => rfl
  | true =>
      exact absurd trivial (uninterrupted _ (failure.stopRequest_mem_links_iff.mpr inside))

theorem ofDevice (uninterrupted : failure.Uninterrupted) :
    (RunError.ofDevice failure).Uninterrupted := by
  rw [RunError.ofDevice, uninterrupted.hasInterruption_eq_false]
  exact List.forall_mem_cons.mpr ⟨id, uninterrupted⟩

theorem ofClassifier (uninterrupted : failure.Uninterrupted) :
    (RunError.ofClassifier failure).Uninterrupted := by
  rw [RunError.ofClassifier, uninterrupted.hasInterruption_eq_false]
  exact List.forall_mem_cons.mpr ⟨id, uninterrupted⟩

theorem plain (text : String) : (Failure.plain text).Uninterrupted :=
  List.forall_mem_singleton.mpr id

theorem context (uninterrupted : failure.Uninterrupted) (text : String) :
    (Failure.context text failure).Uninterrupted :=
  List.forall_mem_cons.mpr ⟨id, uninterrupted⟩

theorem tagged (tag text : String) : (Failure.tagged tag text).Uninterrupted :=
  List.forall_mem_singleton.mpr id

theorem document (error : DocumentError) : (Failure.document error).Uninterrupted := by
  refine List.forall_mem_cons.mpr ⟨id, ?_⟩
  intro link member
  obtain ⟨_, _, rfl⟩ := List.mem_map.mp member
  exact id

end Failure.Uninterrupted

end RobotRoutine
