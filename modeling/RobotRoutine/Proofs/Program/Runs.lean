import RobotRoutine.Run.Dispatch

/-!
Runs of composed tasks, taken apart.

A run of a sequence of tasks is either a run of the first that gave a value, followed by a run of
what goes on with it, or a run of the first alone, whose ending is handed on.  The same holds of the
parts of a dispatch, which carry the progress along.
-/

namespace RobotRoutine

open Program (Runs Event)

/-- The same ending, which is no value, of two tasks. -/
inductive Outcome.Passes {ε α β : Type} : Outcome ε α → Outcome ε β → Prop where
  | error (error : ε) : Passes (.error error) (.error error)
  | crash (crash : Crash) : Passes (.crash crash) (.crash crash)
  | halted : Passes .halted .halted
  | waiting : Passes .waiting .waiting

namespace Outcome.Passes

variable {ε α β γ : Type}

theorem waiting_iff {stop : Outcome ε α} {outcome : Outcome ε β} (passes : stop.Passes outcome) :
    stop = .waiting ↔ outcome = .waiting := by
  cases passes <;> simp

theorem eq {stop outcome : Outcome ε α} (passes : stop.Passes outcome) : stop = outcome := by
  cases passes <;> rfl

theorem ne_value {stop : Outcome ε α} {outcome : Outcome ε β} (passes : stop.Passes outcome)
    (b : β) : outcome ≠ .value b := by
  cases passes <;> simp

theorem trans {stop : Outcome ε α} {middle : Outcome ε β} {outcome : Outcome ε γ}
    (passes : stop.Passes middle) (handedOn : middle.Passes outcome) : stop.Passes outcome := by
  cases passes <;> cases handedOn <;> constructor

theorem through {stop : Outcome ε α} {outcome : Outcome ε β} (passes : stop.Passes outcome) :
    ∃ middle : Outcome ε γ, stop.Passes middle ∧ middle.Passes outcome := by
  cases passes with
  | error error => exact ⟨.error error, .error error, .error error⟩
  | crash crash => exact ⟨.crash crash, .crash crash, .crash crash⟩
  | halted => exact ⟨.halted, .halted, .halted⟩
  | waiting => exact ⟨.waiting, .waiting, .waiting⟩

end Outcome.Passes

namespace Program

variable {α : Type}

@[simp]
theorem runs_done_iff {a result : α} {events : List Event} :
    Runs (.done a) events result ↔ events = [] ∧ result = a := by
  constructor
  · intro runs
    cases runs
    exact ⟨rfl, rfl⟩
  · rintro ⟨rfl, rfl⟩
    exact .done

theorem runs_call_iff {request : Call} {next : request.Reply → Program α}
    {events : List Event} {result : α} :
    Runs (.call request next) events result ↔
      ∃ reply rest, events = ⟨request, reply⟩ :: rest ∧ Runs (next reply) rest result := by
  constructor
  · intro runs
    cases runs with
    | call runsRest => exact ⟨_, _, rfl, runsRest⟩
  · rintro ⟨reply, rest, rfl, runsRest⟩
    exact .call runsRest

/-- A program has no two runs of which one goes on where the other ends. -/
theorem Runs.unique {program : Program α} {first second rest others : List Event} {a b : α}
    (runs : Runs program first a) (runsToo : Runs program second b)
    (same : first ++ rest = second ++ others) : first = second ∧ a = b := by
  induction runs generalizing second with
  | done =>
      obtain ⟨rfl, rfl⟩ := runs_done_iff.mp runsToo
      exact ⟨rfl, rfl⟩
  | call _ inductionHypothesis =>
      obtain ⟨reply, events, rfl, runsRest⟩ := runs_call_iff.mp runsToo
      injection same with sameEvent sameRest
      cases sameEvent
      obtain ⟨rfl, rfl⟩ := inductionHypothesis runsRest sameRest
      exact ⟨rfl, rfl⟩

/-- What follows the run of the first of two programs is a run of what goes on with its result. -/
theorem runs_bind_iff {β : Type} {program : Program α} {next : α → Program β}
    {first after : List Event} {a : α} {b : β} (runs : Runs program first a) :
    Runs (program.bind next) (first ++ after) b ↔ Runs (next a) after b := by
  constructor
  · intro runsBoth
    obtain ⟨others, rest, _, same, runsToo, runsNext⟩ := runs_of_bind runsBoth
    obtain ⟨rfl, rfl⟩ := runs.unique runsToo same
    rwa [List.append_cancel_left same]
  · exact runs_bind runs

/-- What holds of every reply of a world holds of those in a run. -/
theorem forall_events {σ : Type} {answer : (request : Call) → σ → request.Reply × σ}
    {replies : (request : Call) → request.Reply → Prop}
    (given : ∀ request world, replies request (answer request world).1) (program : Program α)
    (world : σ) : ∀ event ∈ program.events answer world, replies event.request event.reply := by
  induction program generalizing world with
  | done result => simp [Program.events]
  | call request next inductionHypothesis =>
      rw [Program.events, List.forall_mem_cons]
      exact ⟨given request world, inductionHypothesis _ _⟩

end Program

namespace Task

variable {ε α β : Type}

@[simp] theorem pure_def (a : α) : (pure a : Task ε α) = result a := rfl

@[simp] theorem bind_def (task : Task ε α) (next : α → Task ε β) :
    task >>= next = task.bind next := rfl

@[simp] theorem result_bind (a : α) (next : α → Task ε β) : (result a).bind next = next a := rfl

theorem runs_result_iff {a : α} {events : List Event} {outcome : Outcome ε α} :
    Runs (result a) events outcome ↔ events = [] ∧ outcome = .value a :=
  Program.runs_done_iff

theorem runs_after_iff {next : α → Task ε β} {stop : Outcome ε α} {events : List Event}
    {outcome : Outcome ε β} :
    Runs (after next stop) events outcome ↔
      (∃ a, stop = .value a ∧ Runs (next a) events outcome) ∨
        events = [] ∧ stop.Passes outcome := by
  cases stop with
  | value a =>
      constructor
      · intro runs
        exact .inl ⟨a, rfl, runs⟩
      · rintro (⟨_, same, runs⟩ | ⟨_, ⟨⟩⟩)
        cases same
        exact runs
  | _ =>
      simp only [after, throw, crash, halted, waiting, Program.runs_done_iff, reduceCtorEq,
        false_and, exists_false, false_or]
      apply and_congr_right
      intro _
      constructor
      · rintro rfl
        constructor
      · rintro ⟨⟩
        rfl

theorem runs_bind {task : Task ε α} {next : α → Task ε β} {events : List Event}
    {outcome : Outcome ε β} (runs : Runs (task.bind next) events outcome) :
    (∃ first second a, events = first ++ second ∧
      Runs task first (.value a) ∧ Runs (next a) second outcome) ∨
    ∃ stop, Runs task events stop ∧ stop.Passes outcome := by
  obtain ⟨first, second, ending, rfl, runsFirst, runsSecond⟩ := Program.runs_of_bind runs
  rcases runs_after_iff.mp runsSecond with ⟨a, rfl, runsNext⟩ | ⟨rfl, passes⟩
  · exact .inl ⟨first, second, a, rfl, runsFirst, runsNext⟩
  · rw [List.append_nil]
    exact .inr ⟨ending, runsFirst, passes⟩

theorem runs_bind_value {task : Task ε α} {next : α → Task ε β} {first second : List Event}
    {a : α} {outcome : Outcome ε β} (runsFirst : Runs task first (.value a))
    (runsSecond : Runs (next a) second outcome) :
    Runs (task.bind next) (first ++ second) outcome :=
  Program.runs_bind runsFirst runsSecond

end Task

namespace Dispatch

variable {α β : Type}

@[simp] theorem pure_def (a : α) : (pure a : Dispatch α) = result a := rfl

@[simp] theorem bind_def (part : Dispatch α) (next : α → Dispatch β) :
    part >>= next = part.bind next := rfl

@[simp] theorem result_bind (a : α) (next : α → Dispatch β) : (result a).bind next = next a := rfl

@[simp] theorem lift_result (a : α) : lift (Task.result a) = result a := rfl

@[simp] theorem lift_throw_bind (error : RunError) (next : α → Dispatch β) :
    (lift (Task.throw error)).bind next = lift (Task.throw error) := rfl

theorem runs_result_iff {a : α} {progress : Progress} {events : List Event}
    {ending : Outcome RunError α × Progress} :
    Runs (result a progress) events ending ↔ events = [] ∧ ending = (.value a, progress) :=
  Program.runs_done_iff

/-- A task that is made a part leaves the progress as it is. -/
theorem runs_lift_iff {task : Task RunError α} {progress : Progress} {events : List Event}
    {outcome : Outcome RunError α} {final : Progress} :
    Runs (lift task progress) events (outcome, final) ↔
      Runs task events outcome ∧ final = progress := by
  constructor
  · intro runs
    obtain ⟨first, second, ending, rfl, runsTask, runsDone⟩ := Program.runs_of_bind runs
    obtain ⟨rfl, same⟩ := Program.runs_done_iff.mp runsDone
    cases same
    rw [List.append_nil]
    exact ⟨runsTask, rfl⟩
  · rintro ⟨runsTask, rfl⟩
    rw [← List.append_nil events]
    exact Program.runs_bind runsTask .done

theorem runs_after_iff {next : α → Dispatch β} {stop : Outcome RunError α} {middle : Progress}
    {events : List Event} {outcome : Outcome RunError β} {final : Progress} :
    Runs (after next (stop, middle)) events (outcome, final) ↔
      (∃ a, stop = .value a ∧ Runs (next a middle) events (outcome, final)) ∨
        events = [] ∧ stop.Passes outcome ∧ final = middle := by
  cases stop with
  | value a =>
      constructor
      · intro runs
        exact .inl ⟨a, rfl, runs⟩
      · rintro (⟨_, same, runs⟩ | ⟨_, ⟨⟩, _⟩)
        cases same
        exact runs
  | _ =>
      simp only [after, Program.runs_done_iff, reduceCtorEq, false_and, exists_false, false_or,
        Prod.mk.injEq]
      apply and_congr_right
      intro _
      apply and_congr_left
      intro _
      constructor
      · rintro rfl
        constructor
      · rintro ⟨⟩
        rfl

theorem runs_bind {part : Dispatch α} {next : α → Dispatch β} {progress final : Progress}
    {events : List Event} {outcome : Outcome RunError β}
    (runs : Runs (part.bind next progress) events (outcome, final)) :
    (∃ first second a middle, events = first ++ second ∧
      Runs (part progress) first (.value a, middle) ∧
      Runs (next a middle) second (outcome, final)) ∨
    ∃ stop, Runs (part progress) events (stop, final) ∧ stop.Passes outcome := by
  obtain ⟨first, second, ⟨stop, middle⟩, rfl, runsFirst, runsSecond⟩ := Program.runs_of_bind runs
  rcases runs_after_iff.mp runsSecond with ⟨a, rfl, runsNext⟩ | ⟨rfl, passes, rfl⟩
  · exact .inl ⟨first, second, a, middle, rfl, runsFirst, runsNext⟩
  · rw [List.append_nil]
    exact .inr ⟨stop, runsFirst, passes⟩

theorem runs_bind_value {part : Dispatch α} {next : α → Dispatch β}
    {progress middle : Progress} {first second : List Event} {a : α}
    {ending : Outcome RunError β × Progress}
    (runsFirst : Runs (part progress) first (.value a, middle))
    (runsSecond : Runs (next a middle) second ending) :
    Runs (part.bind next progress) (first ++ second) ending :=
  Program.runs_bind runsFirst runsSecond

theorem runs_bind_stop {part : Dispatch α} {next : α → Dispatch β} {progress final : Progress}
    {events : List Event} {stop : Outcome RunError α} {outcome : Outcome RunError β}
    (runs : Runs (part progress) events (stop, final)) (passes : stop.Passes outcome) :
    Runs (part.bind next progress) events (outcome, final) := by
  rw [← List.append_nil events]
  exact Program.runs_bind runs (runs_after_iff.mpr (.inr ⟨rfl, passes, rfl⟩))

end Dispatch

end RobotRoutine
