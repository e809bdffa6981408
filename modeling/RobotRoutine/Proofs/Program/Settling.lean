import Mathlib.Logic.Relation
import RobotRoutine.Proofs.Program.Runs

/-!
Programs that no longer wait once they are granted enough patience.

The loops of a run are granted a number of turns.  In a world that answers every call, a program
settles if all grants from some number on lead to the same ending; that ending is the one of the
program without any bound.
-/

namespace RobotRoutine

namespace Program

variable {α β σ : Type} {answer : (request : Call) → σ → request.Reply × σ}

theorem exec_bind (program : Program α) (next : α → Program β) (world : σ) :
    (program.bind next).exec answer world =
      (next (program.exec answer world).1).exec answer (program.exec answer world).2 := by
  induction program generalizing world with
  | done a => rfl
  | call request rest inductionHypothesis => exact inductionHypothesis _ _

/-- From some grant on, programs end in the same way. -/
def Settles (answer : (request : Call) → σ → request.Reply × σ) (programs : Nat → Program α)
    (world : σ) (ending : α × σ) : Prop :=
  ∃ enough, ∀ patience, enough ≤ patience → (programs patience).exec answer world = ending

/-- A program whose call is known to be answered in this way goes on with that reply. -/
theorem exec_call {request : Call} {next : request.Reply → Program α} {reply : request.Reply}
    {world : σ} (given : (answer request world).1 = reply) :
    (call request next).exec answer world = (next reply).exec answer (answer request world).2 := by
  subst given
  rfl

theorem settles_of_exec {programs : Nat → Program α} {world : σ} {ending : α × σ}
    (same : ∀ patience, (programs patience).exec answer world = ending) :
    Settles answer programs world ending :=
  ⟨0, fun patience _ => same patience⟩

theorem settles_bind {programs : Nat → Program α} {next : Nat → α → Program β} {a : α}
    {world middle : σ} {ending : β × σ} (first : Settles answer programs world (a, middle))
    (second : Settles answer (fun patience => next patience a) middle ending) :
    Settles answer (fun patience => (programs patience).bind (next patience)) world ending := by
  obtain ⟨enoughFirst, sameFirst⟩ := first
  obtain ⟨enoughSecond, sameSecond⟩ := second
  refine ⟨max enoughFirst enoughSecond, ?_⟩
  intro patience enough
  rw [exec_bind, sameFirst patience (by omega)]
  exact sameSecond patience (by omega)

/-- A world that is reached from another by calls, one at least. -/
def Later (answer : (request : Call) → σ → request.Reply × σ) : σ → σ → Prop :=
  Relation.TransGen fun earlier later => ∃ request, later = (answer request earlier).2

end Program

namespace Task

variable {ε α β σ : Type} {answer : (request : Call) → σ → request.Reply × σ}

theorem exec_bind_value {task : Task ε α} {next : α → Task ε β} {a : α} {world middle : σ}
    (gives : task.exec answer world = (.value a, middle)) :
    (task.bind next).exec answer world = (next a).exec answer middle := by
  refine (Program.exec_bind task (after next) world).trans ?_
  rw [gives]
  rfl

theorem exec_bind_error {task : Task ε α} {next : α → Task ε β} {error : ε} {world middle : σ}
    (gives : task.exec answer world = (.error error, middle)) :
    (task.bind next).exec answer world = (.error error, middle) := by
  refine (Program.exec_bind task (after next) world).trans ?_
  rw [gives]
  rfl

end Task

namespace Dispatch

open Program (Settles)

variable {α β σ : Type} {answer : (request : Call) → σ → request.Reply × σ} {world : σ}

theorem exec_lift (task : Task RunError α) (progress : Progress) (world : σ) :
    (lift task progress).exec answer world =
      (((task.exec answer world).1, progress), (task.exec answer world).2) :=
  Program.exec_bind task _ world

theorem exec_bind_value {part : Dispatch α} {next : α → Dispatch β} {a : α}
    {before middle : Progress} {later : σ}
    (gives : (part before).exec answer world = ((.value a, middle), later)) :
    (part.bind next before).exec answer world = (next a middle).exec answer later := by
  refine (Program.exec_bind (part before) (after next) world).trans ?_
  rw [gives]
  rfl

theorem settles_lift {tasks : Nat → Task RunError α} {outcome : Outcome RunError α}
    {later : σ} (settles : Settles answer tasks world (outcome, later)) (progress : Progress) :
    Settles answer (fun patience => lift (tasks patience) progress) world
      ((outcome, progress), later) := by
  obtain ⟨enough, ends⟩ := settles
  refine ⟨enough, fun patience some => ?_⟩
  rw [exec_lift, ends patience some]

theorem settles_bind_value {parts : Nat → Dispatch α} {next : Nat → α → Dispatch β}
    {a : α} {before middle : Progress} {later : σ} {ending : (Outcome RunError β × Progress) × σ}
    (first : Settles answer (fun patience => parts patience before) world
      ((.value a, middle), later))
    (second : Settles answer (fun patience => next patience a middle) later ending) :
    Settles answer (fun patience => (parts patience).bind (next patience) before) world ending :=
  Program.settles_bind first second

theorem settles_bind_exec {part : Dispatch α} {next : Nat → α → Dispatch β}
    {a : α} {before middle : Progress} {later : σ} {ending : (Outcome RunError β × Progress) × σ}
    (gives : (part before).exec answer world = ((.value a, middle), later))
    (second : Settles answer (fun patience => next patience a middle) later ending) :
    Settles answer (fun patience => part.bind (next patience) before) world ending :=
  settles_bind_value (Program.settles_of_exec fun _ => gives) second

theorem settles_bind_error {parts : Nat → Dispatch α} {next : Nat → α → Dispatch β}
    {error : RunError} {before middle : Progress} {later : σ}
    (first : Settles answer (fun patience => parts patience before) world
      ((.error error, middle), later)) :
    Settles answer (fun patience => (parts patience).bind (next patience) before) world
      ((.error error, middle), later) :=
  Program.settles_bind first (Program.settles_of_exec fun _ => rfl)

theorem settles_attempt_of_value {parts : Nat → Dispatch α} {a : α}
    {before middle : Progress} {later : σ}
    (settles : Settles answer (fun patience => parts patience before) world
      ((.value a, middle), later)) :
    Settles answer (fun patience => attempt (parts patience) before) world
      ((.value (.ok a), middle), later) :=
  Program.settles_bind settles (Program.settles_of_exec fun _ => rfl)

theorem settles_attempt_of_error {parts : Nat → Dispatch α} {error : RunError}
    {before middle : Progress} {later : σ}
    (settles : Settles answer (fun patience => parts patience before) world
      ((.error error, middle), later)) :
    Settles answer (fun patience => attempt (parts patience) before) world
      ((.value (.error error), middle), later) :=
  Program.settles_bind settles (Program.settles_of_exec fun _ => rfl)

end Dispatch

end RobotRoutine
