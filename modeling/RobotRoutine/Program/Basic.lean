import RobotRoutine.Program.Call

/-!
Programs as trees of calls.

A program is done, or makes a call and goes on in a way that depends on the reply.  So a program
holds its behaviour against all collaborators at once: two programs that are equal make the same
calls in the same order and give the same result, whatever is answered.  `Runs` says which sequences
of calls and replies lead to which results; `exec` follows the one that a world answers.
-/

namespace RobotRoutine

/-- A tree of calls with a result at every leaf. -/
inductive Program (α : Type) where
  | done (result : α)
  | call (request : Call) (next : request.Reply → Program α)

namespace Program

variable {α β γ σ : Type}

def bind (program : Program α) (next : α → Program β) : Program β :=
  match program with
  | .done result => next result
  | .call request rest => .call request fun reply => (rest reply).bind next

instance : Monad Program where
  pure := .done
  bind := bind

@[simp] theorem pure_def (a : α) : (pure a : Program α) = .done a := rfl

@[simp] theorem bind_def (program : Program α) (next : α → Program β) :
    program >>= next = program.bind next := rfl

@[simp] theorem done_bind (a : α) (next : α → Program β) : (done a).bind next = next a := rfl

@[simp] theorem call_bind (request : Call) (rest : request.Reply → Program α)
    (next : α → Program β) :
    (call request rest).bind next = .call request fun reply => (rest reply).bind next := rfl

@[simp] theorem bind_done (program : Program α) : program.bind .done = program := by
  induction program with
  | done result => rfl
  | call request rest inductionHypothesis => simp [inductionHypothesis]

theorem bind_assoc (program : Program α) (f : α → Program β) (g : β → Program γ) :
    (program.bind f).bind g = program.bind fun a => (f a).bind g := by
  induction program with
  | done result => rfl
  | call request rest inductionHypothesis => simp [inductionHypothesis]

instance : LawfulMonad Program :=
  LawfulMonad.mk' Program (fun program => bind_done program) (fun _ _ => rfl) bind_assoc

def robot (request : RobotCall) : Program request.Reply := .call (.robot request) .done

def host (request : HostCall) : Program request.Reply := .call (.host request) .done

/-- A call together with the reply to it. -/
structure Event where
  request : Call
  reply : request.Reply

/-- The sequences of events that lead a program to a result. -/
inductive Runs : Program α → List Event → α → Prop where
  | done {result} : Runs (.done result) [] result
  | call {request next reply events result} :
      Runs (next reply) events result →
      Runs (.call request next) (⟨request, reply⟩ :: events) result

/-- Runs a program in a world that answers each call and changes by it. -/
def exec (answer : (request : Call) → σ → request.Reply × σ) : Program α → σ → α × σ
  | .done result, world => (result, world)
  | .call request next, world =>
      let (reply, world) := answer request world
      exec answer (next reply) world

def events (answer : (request : Call) → σ → request.Reply × σ) : Program α → σ → List Event
  | .done _, _ => []
  | .call request next, world =>
      ⟨request, (answer request world).1⟩ ::
        events answer (next (answer request world).1) (answer request world).2

theorem runs_exec (answer : (request : Call) → σ → request.Reply × σ) (program : Program α)
    (world : σ) : Runs program (program.events answer world) (program.exec answer world).1 := by
  induction program generalizing world with
  | done result => exact .done
  | call request next inductionHypothesis => exact .call (inductionHypothesis _ _)

/-- The events of a sequence of programs are those of the first and then those of the second. -/
theorem runs_bind {program : Program α} {next : α → Program β} {first second : List Event}
    {a : α} {b : β} (runsFirst : Runs program first a) (runsSecond : Runs (next a) second b) :
    Runs (program.bind next) (first ++ second) b := by
  induction runsFirst with
  | done => exact runsSecond
  | call _ inductionHypothesis => exact .call (inductionHypothesis runsSecond)

/-- Every run of a sequence of programs splits into runs of its parts. -/
theorem runs_of_bind {program : Program α} {next : α → Program β} {events : List Event} {b : β}
    (runs : Runs (program.bind next) events b) :
    ∃ first second a, events = first ++ second ∧ Runs program first a ∧ Runs (next a) second b := by
  induction program generalizing events with
  | done result => exact ⟨[], events, result, rfl, .done, runs⟩
  | call request rest inductionHypothesis =>
      rw [call_bind] at runs
      cases runs with
      | call runsRest =>
          obtain ⟨first, second, a, rfl, runsFirst, runsSecond⟩ := inductionHypothesis _ runsRest
          exact ⟨_ :: first, second, a, rfl, .call runsFirst, runsSecond⟩

end Program

end RobotRoutine
