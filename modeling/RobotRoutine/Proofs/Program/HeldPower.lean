import RobotRoutine.Proofs.Program.Effects

/-!
Power that is held for the length of a task, taken apart.

Engaging the power and the body are left in the same way.  Leaving them is one zeroing, or nothing
if they were halted or left waiting, and the answer to the zeroing decides with their ending how the
whole ends.
-/

namespace RobotRoutine

open Program (Runs Event)

def zeroing (channel : ChannelId) (answer : Answer Unit) : Event :=
  ⟨.robot (.setPower channel Binary64.zero), answer⟩

namespace PowerHold

variable {ε α : Type} {effects : Effects ε} {toError : Failure → ε} {channel : ChannelId}
  {power : Binary64} {body : Task ε α} {events : List Event} {stop outcome : Outcome ε α}

theorem during_eq :
    during toError channel power body =
      Program.bind ((Task.setPower toError channel power).bind fun _ => body)
        (leave toError channel) := by
  refine congrArg (Program.call _) (funext fun answer => ?_)
  cases answer <;> rfl

theorem within_leave (zeroes : effects.calls (.robot (.setPower channel Binary64.zero)))
    (thrown : ∀ failure, effects.errors (toError failure)) (halts : effects.halts)
    (allowed : effects.Allows stop) : (leave toError channel stop).Within effects := by
  cases stop with
  | value value =>
      apply Task.within_bind (Task.within_setPower zeroes thrown)
      intro _
      exact Task.within_result value
  | error error =>
      refine ⟨zeroes, ?_⟩
      intro answer _
      cases answer with
      | crashed crash => trivial
      | _ => exact allowed
  | crash crash =>
      refine ⟨zeroes, ?_⟩
      intro answer _
      cases answer with
      | crashed again => exact halts
      | _ => trivial
  | halted => exact halts
  | waiting => exact allowed

/-- Holding a power adds power commands, errors of the device and halting to what the body does. -/
theorem within_during (command : effects.calls (.robot (.setPower channel power)))
    (zeroes : effects.calls (.robot (.setPower channel Binary64.zero)))
    (thrown : ∀ failure, effects.errors (toError failure)) (halts : effects.halts)
    (within : body.Within effects) : (during toError channel power body).Within effects := by
  rw [during_eq]
  have engaged := Task.within_bind (Task.within_setPower command thrown) fun _ => within
  exact Program.Keeps.bind engaged fun _ => within_leave zeroes thrown halts

/-- How a body is left that has ended in this way: what is done, and what becomes of the ending. -/
inductive Leaves (toError : Failure → ε) (channel : ChannelId) :
    Outcome ε α → List Event → Outcome ε α → Prop where
  | released {value} :
      Leaves toError channel (.value value) [zeroing channel (.ok ())] (.value value)
  | failed {value failure} :
      Leaves toError channel (.value value) [zeroing channel (.failed failure)]
        (.error (toError failure))
  | crashed {value crash} :
      Leaves toError channel (.value value) [zeroing channel (.crashed crash)] (.crash crash)
  | errorKept {error answer} :
      (∀ crash, answer ≠ .crashed crash) →
      Leaves toError channel (.error error) [zeroing channel answer] (.error error)
  | errorLost {error crash} :
      Leaves toError channel (.error error) [zeroing channel (.crashed crash)] (.crash crash)
  | crashKept {crash answer} :
      (∀ again, answer ≠ .crashed again) →
      Leaves toError channel (.crash crash) [zeroing channel answer] (.crash crash)
  | crashTwice {crash again} :
      Leaves toError channel (.crash crash) [zeroing channel (.crashed again)] .halted
  | halted : Leaves toError channel .halted [] .halted
  | waiting : Leaves toError channel .waiting [] .waiting

theorem leaves_of_runs (runs : Runs (leave toError channel stop) events outcome) :
    Leaves toError channel stop events outcome := by
  cases stop with
  | value value =>
      obtain ⟨answer, _, rfl, runsEnd⟩ := Program.runs_call_iff.mp runs
      cases answer <;> obtain ⟨rfl, rfl⟩ := Program.runs_done_iff.mp runsEnd
      · exact .released
      · exact .failed
      · exact .crashed
  | error error =>
      obtain ⟨answer, _, rfl, runsEnd⟩ := Program.runs_call_iff.mp runs
      cases answer <;> obtain ⟨rfl, rfl⟩ := Program.runs_done_iff.mp runsEnd
      case crashed => exact .errorLost
      all_goals exact .errorKept (by simp)
  | crash crash =>
      obtain ⟨answer, _, rfl, runsEnd⟩ := Program.runs_call_iff.mp runs
      cases answer <;> obtain ⟨rfl, rfl⟩ := Program.runs_done_iff.mp runsEnd
      case crashed => exact .crashTwice
      all_goals exact .crashKept (by simp)
  | halted =>
      obtain ⟨rfl, rfl⟩ := Program.runs_done_iff.mp runs
      exact .halted
  | waiting =>
      obtain ⟨rfl, rfl⟩ := Program.runs_done_iff.mp runs
      exact .waiting

end PowerHold

end RobotRoutine
