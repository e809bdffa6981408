import RobotRoutine.Proofs.Program.Runs

/-!
Programs that make the same calls.

Two programs simulate each other if they make the same calls as long as the replies are among those
allowed, and if the results in which they end then are related.  Since a program holds its behaviour
against all collaborators, this is a statement about two trees; it carries over to runs in both
directions, and to sequences of programs part by part.
-/

namespace RobotRoutine

open Program (Runs Event)

namespace Program

variable {α β γ δ : Type} {allowed : (request : Call) → request.Reply → Prop}

/-- The same calls under allowed replies, and related results. -/
inductive Simulates (allowed : (request : Call) → request.Reply → Prop) (related : α → β → Prop) :
    Program α → Program β → Prop where
  | done {a b} : related a b → Simulates allowed related (.done a) (.done b)
  | call {request next other} :
      (∀ reply, allowed request reply → Simulates allowed related (next reply) (other reply)) →
      Simulates allowed related (.call request next) (.call request other)

variable {related : α → β → Prop} {afterwards : γ → δ → Prop}

theorem Simulates.bind {program : Program α} {twin : Program β} {next : α → Program γ}
    {other : β → Program δ} (simulates : Simulates allowed related program twin)
    (goesOn : ∀ a b, related a b → Simulates allowed afterwards (next a) (other b)) :
    Simulates allowed afterwards (program.bind next) (twin.bind other) := by
  induction simulates with
  | done isRelated => exact goesOn _ _ isRelated
  | call _ inductionHypothesis => exact .call inductionHypothesis

/-- A run under allowed replies is a run of the twin. -/
theorem Simulates.runs {program : Program α} {twin : Program β} {events : List Event} {a : α}
    (simulates : Simulates allowed related program twin) (runs : Runs program events a)
    (replies : ∀ event ∈ events, allowed event.request event.reply) :
    ∃ b, related a b ∧ Runs twin events b := by
  induction simulates generalizing events with
  | done isRelated =>
      obtain ⟨rfl, rfl⟩ := runs_done_iff.mp runs
      exact ⟨_, isRelated, .done⟩
  | call _ inductionHypothesis =>
      obtain ⟨reply, rest, rfl, runsRest⟩ := runs_call_iff.mp runs
      rw [List.forall_mem_cons] at replies
      obtain ⟨b, isRelated, runsTwin⟩ := inductionHypothesis reply replies.1 runsRest replies.2
      exact ⟨b, isRelated, .call runsTwin⟩

theorem Simulates.symm {program : Program α} {twin : Program β}
    (simulates : Simulates allowed related program twin) :
    Simulates allowed (fun b a => related a b) twin program := by
  induction simulates with
  | done isRelated => exact .done isRelated
  | call _ inductionHypothesis => exact .call inductionHypothesis

end Program

/-- The ending of a part of a dispatch and that of a task: related values, or the same other
ending. -/
inductive Corresponds {α β : Type} (related : α → Progress → β → Prop) :
    Outcome RunError α × Progress → Outcome RunError β → Prop where
  | value {a progress b} :
      related a progress b → Corresponds related (.value a, progress) (.value b)
  | stop {stop progress outcome} :
      Outcome.Passes stop outcome → Corresponds related (stop, progress) outcome

namespace Dispatch

variable {α β γ δ : Type} {allowed : (request : Call) → request.Reply → Prop}
  {related : α → Progress → β → Prop} {afterwards : γ → Progress → δ → Prop}

theorem simulates_bind {part : Dispatch α} {task : Task RunError β} {next : α → Dispatch γ}
    {other : β → Task RunError δ} {before : Progress}
    (simulates : Program.Simulates allowed (Corresponds related) (part before) task)
    (goesOn : ∀ a middle b, related a middle b →
      Program.Simulates allowed (Corresponds afterwards) (next a middle) (other b)) :
    Program.Simulates allowed (Corresponds afterwards) (part.bind next before)
      (task.bind other) := by
  refine Program.Simulates.bind simulates ?_
  rintro _ _ (isRelated | passes)
  · exact goesOn _ _ _ isRelated
  · cases passes <;> exact .done (.stop (by constructor))

theorem simulates_lift (task : Task RunError α) (before : Progress) :
    Program.Simulates allowed (Corresponds fun a after b => b = a ∧ after = before)
      (lift task before) task := by
  unfold Task at task
  induction task with
  | done outcome =>
      cases outcome with
      | value a => exact .done (.value ⟨rfl, rfl⟩)
      | _ => exact .done (.stop (by constructor))
  | call request next inductionHypothesis =>
      exact .call fun reply _ => inductionHypothesis reply

end Dispatch

end RobotRoutine
