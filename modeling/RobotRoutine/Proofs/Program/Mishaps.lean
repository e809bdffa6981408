import RobotRoutine.Proofs.Program.Runs

/-!
Replies that stop a task.

Who is asked may answer with a failure, or crash.  Most tasks look after neither: the first such
reply is the last event of their run, and it decides how the run ends.  Tasks of this kind are
brittle, and a sequence of brittle tasks is brittle.  Which failures stop a task, and with which
error, is left open: the display of a hold may fail as often as it will, that of a drive may not.
-/

namespace RobotRoutine

open Program (Runs Event)

inductive Mishap where
  | failed (failure : Failure)
  | crashed (crash : Crash)

def Answer.mishap? {α : Type} : Answer α → Option Mishap
  | .ok _ => none
  | .failed failure => some (.failed failure)
  | .crashed crash => some (.crashed crash)

def Receipt.mishap? : Receipt → Option Mishap
  | .returned => none
  | .crashed crash => some (.crashed crash)

/-- What went wrong with a call, going by the reply to it. -/
def Program.Event.mishap? : Event → Option Mishap
  | ⟨.robot .waitForStart, answer⟩ => answer.mishap?
  | ⟨.robot (.findChannel _), answer⟩ => answer.mishap?
  | ⟨.robot (.setPower _ _), answer⟩ => answer.mishap?
  | ⟨.robot (.setMode _ _), answer⟩ => answer.mishap?
  | ⟨.robot (.readSensor _), answer⟩ => answer.mishap?
  | ⟨.robot (.addItem _ _), receipt⟩ => receipt.mishap?
  | ⟨.robot .refresh, answer⟩ => answer.mishap?
  | ⟨.robot .clearItems, receipt⟩ => receipt.mishap?
  | ⟨.robot .flushDisplay, answer⟩ => answer.mishap?
  | ⟨.robot .currentZone, answer⟩ => answer.mishap?
  | _ => none

def Program.Event.Crashed (event : Event) (crash : Crash) : Prop :=
  event.mishap? = some (.crashed crash)

/-- An ending that owes nothing to a reply: neither an error nor a crash. -/
def Outcome.Peaceful {ε α : Type} : Outcome ε α → Prop
  | .error _ => False
  | .crash _ => False
  | _ => True

namespace Task

variable {ε α β : Type}

/-- The ending that the reply in an event makes of a task, if errors are made of failures in this
way. -/
def ending? (errors : Call → Failure → Option ε) (event : Event) : Option (Outcome ε Empty) :=
  match event.mishap? with
  | none => none
  | some (.failed failure) => (errors event.request failure).map .error
  | some (.crashed crash) => some (.crash crash)

variable {errors : Call → Failure → Option ε}

/-- A run that no reply stops, or one that ends with the reply that stops it. -/
inductive Breaks (errors : Call → Failure → Option ε) : List Event → Outcome ε α → Prop where
  | spared {events outcome} :
      (∀ event ∈ events, ending? errors event = none) → outcome.Peaceful →
      Breaks errors events outcome
  | broken {before last stop outcome} :
      (∀ event ∈ before, ending? errors event = none) → ending? errors last = some stop →
      stop.Passes outcome → Breaks errors (before ++ [last]) outcome

def Brittle (errors : Call → Failure → Option ε) (task : Task ε α) : Prop :=
  ∀ events outcome, Runs task events outcome → Breaks errors events outcome

theorem Breaks.prepend {before events : List Event} {outcome : Outcome ε α}
    (spared : ∀ event ∈ before, ending? errors event = none)
    (breaks : Breaks errors events outcome) : Breaks errors (before ++ events) outcome := by
  cases breaks with
  | spared sparedRest peaceful =>
      exact .spared (List.forall_mem_append.mpr ⟨spared, sparedRest⟩) peaceful
  | broken sparedRest stops passes =>
      rw [← List.append_assoc]
      exact .broken (List.forall_mem_append.mpr ⟨spared, sparedRest⟩) stops passes

/-- A run in which a reply stops the task ends with that reply. -/
theorem Breaks.of_ending {earlier later : List Event} {event : Event} {outcome : Outcome ε α}
    {stop : Outcome ε Empty} (breaks : Breaks errors (earlier ++ event :: later) outcome)
    (stops : ending? errors event = some stop) : later = [] ∧ stop.Passes outcome := by
  generalize same : earlier ++ event :: later = events at breaks
  cases breaks with
  | spared spared =>
      subst same
      have none := spared event (by simp)
      rw [stops] at none
      cases none
  | @broken before last _ _ spared stopsLast passes =>
      rcases List.eq_nil_or_concat later with rfl | ⟨others, final, rfl⟩
      · obtain ⟨rfl, here⟩ := List.append_inj' same rfl
        cases here
        cases stops.symm.trans stopsLast
        exact ⟨rfl, passes⟩
      · rw [List.concat_eq_append, ← List.cons_append, ← List.append_assoc] at same
        obtain ⟨rfl, _⟩ := List.append_inj' same rfl
        have none := spared event (by simp)
        rw [stops] at none
        cases none

/-- A run that ends with an error or a crash ends with the reply that it is made of. -/
theorem Breaks.exists_last {events : List Event} {outcome : Outcome ε α}
    (breaks : Breaks errors events outcome) (stopped : ¬ outcome.Peaceful) :
    ∃ before last stop, events = before ++ [last] ∧ ending? errors last = some stop ∧
      stop.Passes outcome := by
  cases breaks with
  | spared _ peaceful => exact absurd peaceful stopped
  | broken _ stops passes => exact ⟨_, _, _, rfl, stops, passes⟩

theorem brittle_done {outcome : Outcome ε α} (peaceful : outcome.Peaceful) :
    Brittle errors (Program.done outcome : Task ε α) := by
  intro events ended runs
  obtain ⟨rfl, rfl⟩ := Program.runs_done_iff.mp runs
  exact .spared (by simp) peaceful

theorem brittle_bind {task : Task ε α} {next : α → Task ε β} (brittle : task.Brittle errors)
    (brittleNext : ∀ a, (next a).Brittle errors) : (task.bind next).Brittle errors := by
  intro events outcome runs
  rcases runs_bind runs with
    ⟨first, second, a, rfl, runsFirst, runsSecond⟩ | ⟨stop, runsTask, passes⟩
  · cases brittle first _ runsFirst with
    | spared spared => exact (brittleNext a second outcome runsSecond).prepend spared
    | broken _ _ passes => exact absurd rfl (passes.ne_value a)
  · cases brittle events stop runsTask with
    | spared spared peaceful =>
        refine .spared spared ?_
        cases passes <;> exact peaceful
    | broken spared stops passesToo => exact .broken spared stops (passesToo.trans passes)

/-- After a call a brittle task goes on, or the reply ends it then and there. -/
theorem brittle_call {request : Call} {next : request.Reply → Task ε α}
    (each : ∀ reply,
      ending? errors ⟨request, reply⟩ = none ∧ (next reply).Brittle errors ∨
        ∃ stop outcome, ending? errors ⟨request, reply⟩ = some stop ∧
          next reply = Program.done outcome ∧ stop.Passes outcome) :
    Brittle errors (Program.call request next : Task ε α) := by
  intro events outcome runs
  obtain ⟨reply, rest, rfl, runsRest⟩ := Program.runs_call_iff.mp runs
  rcases each reply with ⟨goesOn, brittle⟩ | ⟨stop, ended, stops, same, passes⟩
  · have spared : ∀ event ∈ [(⟨request, reply⟩ : Event)], ending? errors event = none :=
      List.forall_mem_singleton.mpr goesOn
    exact (brittle rest outcome runsRest).prepend spared
  · rw [same] at runsRest
    obtain ⟨rfl, rfl⟩ := Program.runs_done_iff.mp runsRest
    change Breaks errors ([] ++ [_]) outcome
    exact .broken (List.forall_mem_nil _) stops passes

theorem brittle_robot {request : RobotCall}
    (safe : ∀ reply, Event.mishap? ⟨.robot request, reply⟩ = none) :
    (ofProgram (Program.robot request) : Task ε _).Brittle errors :=
  brittle_call fun reply => .inl ⟨by simp [ending?, safe reply], brittle_done trivial⟩

theorem brittle_host (request : HostCall) :
    (ofProgram (Program.host request) : Task ε _).Brittle errors :=
  brittle_call fun _ => .inl ⟨rfl, brittle_done trivial⟩

theorem brittle_addItem (caption value : String) :
    (addItem caption value : Task ε Unit).Brittle errors := by
  refine brittle_call ?_
  rintro (_ | c)
  · exact .inl ⟨rfl, brittle_done trivial⟩
  · exact .inr ⟨_, _, rfl, rfl, .crash c⟩

theorem brittle_clearItems : (clearItems : Task ε Unit).Brittle errors := by
  refine brittle_call ?_
  rintro (_ | c)
  · exact .inl ⟨rfl, brittle_done trivial⟩
  · exact .inr ⟨_, _, rfl, rfl, .crash c⟩

end Task

end RobotRoutine
