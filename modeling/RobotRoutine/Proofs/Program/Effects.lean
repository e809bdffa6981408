import RobotRoutine.Proofs.Program.Runs

/-!
What a task may do.

The effects of a task are the calls it may make, the errors it may end with and whether it may be
left waiting or be halted.  They are read off the tree of the task, so they hold of every run of it,
and the effects of a composed task are those of its parts.
-/

namespace RobotRoutine

open Program (Runs Event)

namespace Program

variable {α β : Type}

/-- As long as the replies are among these, all calls and all results of a program are among
those. -/
def Keeps (replies : (request : Call) → request.Reply → Prop) (calls : Call → Prop)
    (results : α → Prop) : Program α → Prop
  | .done a => results a
  | .call request next =>
      calls request ∧
        ∀ reply, replies request reply → (next reply).Keeps replies calls results

variable {replies : (request : Call) → request.Reply → Prop} {calls : Call → Prop}
  {first : α → Prop} {second : β → Prop}

theorem Keeps.bind {program : Program α} {next : α → Program β}
    (keeps : program.Keeps replies calls first)
    (keepsNext : ∀ a, first a → (next a).Keeps replies calls second) :
    (program.bind next).Keeps replies calls second := by
  induction program with
  | done a => exact keepsNext a keeps
  | call request rest inductionHypothesis =>
      refine ⟨keeps.1, ?_⟩
      intro reply given
      exact inductionHypothesis reply (keeps.2 reply given)

theorem Keeps.mono {wider : Call → Prop} {weaker : α → Prop} {program : Program α}
    (keeps : program.Keeps replies calls first) (widens : ∀ call, calls call → wider call)
    (weakens : ∀ a, first a → weaker a) : program.Keeps replies wider weaker := by
  induction program with
  | done a => exact weakens a keeps
  | call request rest inductionHypothesis =>
      refine ⟨widens _ keeps.1, ?_⟩
      intro reply given
      exact inductionHypothesis reply (keeps.2 reply given)

theorem Keeps.of_runs {program : Program α} {events : List Event} {result : α}
    (keeps : program.Keeps replies calls first) (runs : Runs program events result)
    (given : ∀ event ∈ events, replies event.request event.reply) :
    (∀ event ∈ events, calls event.request) ∧ first result := by
  induction runs with
  | done => exact ⟨by simp, keeps⟩
  | call _ inductionHypothesis =>
      rw [List.forall_mem_cons] at given
      obtain ⟨made, ended⟩ := inductionHypothesis (keeps.2 _ given.1) given.2
      exact ⟨List.forall_mem_cons.mpr ⟨keeps.1, made⟩, ended⟩

end Program

def anyReply (request : Call) (_ : request.Reply) : Prop := True

structure Effects (ε : Type) where
  calls : Call → Prop
  errors : ε → Prop
  /-- May the task be left waiting? -/
  waits : Prop
  /-- May the task be halted by a crash within a crash? -/
  halts : Prop

namespace Effects

variable {ε α β : Type}

def Allows (effects : Effects ε) : Outcome ε α → Prop
  | .value _ => True
  | .error error => effects.errors error
  | .crash _ => True
  | .halted => effects.halts
  | .waiting => effects.waits

end Effects

namespace Task

variable {ε α β : Type} {effects : Effects ε}

/-- A task does no more than its effects say. -/
def Within (effects : Effects ε) (task : Task ε α) : Prop :=
  Program.Keeps anyReply effects.calls effects.Allows task

theorem within_result (a : α) : Within effects (result a) := trivial

theorem within_waiting (waits : effects.waits) : Within effects (waiting : Task ε α) := waits

theorem within_bind {task : Task ε α} {next : α → Task ε β} (within : Within effects task)
    (withinNext : ∀ a, Within effects (next a)) : Within effects (task.bind next) := by
  refine Program.Keeps.bind within ?_
  intro stop allowed
  cases stop with
  | value a => exact withinNext a
  | _ => exact allowed

theorem within_mono {wider : Effects ε} {task : Task ε α} (within : Within effects task)
    (calls : ∀ call, effects.calls call → wider.calls call)
    (errors : ∀ error, effects.errors error → wider.errors error)
    (waits : effects.waits → wider.waits) (halts : effects.halts → wider.halts) :
    Within wider task := by
  refine Program.Keeps.mono within calls ?_
  intro outcome allowed
  cases outcome with
  | error error => exact errors error allowed
  | waiting => exact waits allowed
  | halted => exact halts allowed
  | _ => trivial

theorem within_of_runs {task : Task ε α} {events : List Event} {outcome : Outcome ε α}
    (within : Within effects task) (runs : Runs task events outcome) :
    (∀ event ∈ events, effects.calls event.request) ∧ effects.Allows outcome :=
  Program.Keeps.of_runs within runs fun _ _ => trivial

theorem within_robot {request : RobotCall} (made : effects.calls (.robot request)) :
    Within effects (ofProgram (Program.robot request)) :=
  ⟨made, fun _ _ => trivial⟩

theorem within_host {request : HostCall} (made : effects.calls (.host request)) :
    Within effects (ofProgram (Program.host request)) :=
  ⟨made, fun _ _ => trivial⟩

theorem within_ofAnswer {toError : Failure → ε}
    (thrown : ∀ failure, effects.errors (toError failure)) (answer : Answer α) :
    Within effects (ofAnswer toError answer) := by
  cases answer with
  | failed failure => exact thrown failure
  | _ => trivial

theorem within_addItem {caption value : String}
    (made : effects.calls (.robot (.addItem caption value))) :
    Within effects (addItem caption value) := by
  refine ⟨made, ?_⟩
  rintro (_ | _) _ <;> trivial

theorem within_clearItems (made : effects.calls (.robot .clearItems)) :
    Within effects clearItems := by
  refine ⟨made, ?_⟩
  rintro (_ | _) _ <;> trivial

theorem within_readSensor {toError : Failure → ε} {channel : ChannelId}
    (made : effects.calls (.robot (.readSensor channel)))
    (thrown : ∀ failure, effects.errors (toError failure)) :
    Within effects (readSensor toError channel) :=
  ⟨made, fun answer _ => within_ofAnswer thrown answer⟩

theorem within_refresh {toError : Failure → ε} (made : effects.calls (.robot .refresh))
    (thrown : ∀ failure, effects.errors (toError failure)) :
    Within effects (refresh toError) :=
  ⟨made, fun answer _ => within_ofAnswer thrown answer⟩

theorem within_setPower {toError : Failure → ε} {channel : ChannelId} {power : Binary64}
    (made : effects.calls (.robot (.setPower channel power)))
    (thrown : ∀ failure, effects.errors (toError failure)) :
    Within effects (setPower toError channel power) :=
  ⟨made, fun answer _ => within_ofAnswer thrown answer⟩

theorem within_ofExcept {outcome : Except ε α}
    (thrown : ∀ error, outcome = .error error → effects.errors error) :
    Within effects (ofExcept outcome) := by
  cases outcome with
  | ok a => trivial
  | error error => exact thrown error rfl

end Task

end RobotRoutine
