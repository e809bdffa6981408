import RobotRoutine.Proofs.Program.Runs
import RobotRoutine.Run.Containment

/-!
The protocol of the containment.

What follows the body of a guarded run depends on nothing but how the body ended and what is replied
then.  A fault is recorded once and shown in turns, each of which ends with a look at the stop
request; the first request that is seen ends the hold.  In the end the log is closed and the display
is flushed, on every path and once.  As long as nobody crashes, these are all the runs there are.
-/

namespace RobotRoutine

open Program (Runs Event)

def Answer.IsCalm {α : Type} : Answer α → Prop
  | .crashed _ => False
  | _ => True

/-- The reply of a collaborator that may fail but does not crash. -/
def Calm : (request : Call) → request.Reply → Prop
  | .robot .waitForStart, answer => answer.IsCalm
  | .robot (.findChannel _), answer => answer.IsCalm
  | .robot (.setPower _ _), answer => answer.IsCalm
  | .robot (.setMode _ _), answer => answer.IsCalm
  | .robot (.readSensor _), answer => answer.IsCalm
  | .robot (.addItem _ _), receipt => receipt = .returned
  | .robot .refresh, answer => answer.IsCalm
  | .robot .clearItems, receipt => receipt = .returned
  | .robot .flushDisplay, answer => answer.IsCalm
  | .robot .currentZone, answer => answer.IsCalm
  | _, _ => True

/-- The failure that a body leaves behind, if it does: a crash is a failure without a subsystem. -/
def Outcome.failure? : Outcome Failure Unit → Option Failure
  | .error failure => some failure
  | .crash c => some c.failure
  | _ => none

theorem Outcome.failure?_error (failure : Failure) :
    Outcome.failure? (.error failure) = some failure := rfl

theorem Outcome.failure?_crash (c : Crash) : Outcome.failure? (.crash c) = some c.failure := rfl

namespace ContainmentContext

variable {context : ContainmentContext} {fault : Fault} {stop : Outcome Failure Unit}
  {after : List Event} {outcome : Outcome Empty Containment}

/-- How a fault is recorded and shown. -/
structure Placard where
  recordTag : String
  recordText : String
  caption : String
  message : String

/-- The placard of a fault.  A cancellation has none. -/
def placard? (context : ContainmentContext) : Fault → Option Placard
  | .cancellation => none
  | .domain tag message => some ⟨tag, message, s!"{context.tag} fatal error", message⟩
  | .unclassified message =>
      some ⟨context.tag, s!"Unexpected failure: {message}", s!"{context.tag} fatal Exception",
        message⟩

variable {placard : Placard}

def Placard.recorded (placard : Placard) : Event :=
  ⟨.host (.record .error placard.recordTag placard.recordText), ()⟩

/-- A turn of a hold: the display is refreshed with one answer, the stop request found or not. -/
def turn (context : ContainmentContext) (placard : Placard) (refreshed : Answer Unit)
    (stop : Bool) : List Event :=
  [⟨.robot (.addItem placard.caption placard.message), Receipt.returned⟩,
    ⟨.robot .refresh, refreshed⟩,
    ⟨.robot .clearItems, Receipt.returned⟩,
    ⟨.host (.pause context.holdInterval), ()⟩,
    ⟨.robot .isStopRequested, stop⟩]

def Placard.turnCalls (placard : Placard) : List RobotCall :=
  [.addItem placard.caption placard.message, .refresh, .clearItems, .isStopRequested]

/-- Turns without a stop request, one for each answer. -/
def turns (context : ContainmentContext) (placard : Placard) (refreshed : List (Answer Unit)) :
    List Event :=
  refreshed.flatMap fun answer => context.turn placard answer false

theorem turns_cons (context : ContainmentContext) (placard : Placard) (answer : Answer Unit)
    (refreshed : List (Answer Unit)) :
    context.turns placard (answer :: refreshed) =
      context.turn placard answer false ++ context.turns placard refreshed :=
  List.flatMap_cons

/-- What holds of all events of its turns holds of a hold. -/
theorem forall_turns {holds : Event → Prop} {refreshed : List (Answer Unit)}
    (each : ∀ answer ∈ refreshed, ∀ event ∈ context.turn placard answer false, holds event) :
    ∀ event ∈ context.turns placard refreshed, holds event := by
  intro event member
  obtain ⟨answer, given, inTurn⟩ := List.mem_flatMap.mp member
  exact each answer given event inTurn

def closing (flushed : Answer Unit) : List Event :=
  [⟨.host .closeLog, ()⟩, ⟨.robot .flushDisplay, flushed⟩]

def interrupted (context : ContainmentContext) : Event :=
  ⟨.host (.record .info context.tag "Run interrupted"), ()⟩

/-- What may follow a failure, and what it gives. -/
inductive Aftermath (context : ContainmentContext) (failure : Failure) :
    List Event → Outcome Empty Containment → Prop where
  | cancelled {flushed} :
      failure.fault = .cancellation →
      Aftermath context failure (context.interrupted :: closing flushed) (.value .cancelled)
  | held {placard before last flushed} :
      context.placard? failure.fault = some placard → before.length < context.patience →
      Aftermath context failure
        (placard.recorded ::
          (context.turns placard before ++ context.turn placard last true ++ closing flushed))
        (.value (.held failure.fault (before.length + 1)))
  /-- The stop was not requested as long as there was patience. -/
  | holding {placard before} :
      context.placard? failure.fault = some placard → before.length = context.patience →
      Aftermath context failure (placard.recorded :: context.turns placard before) .waiting

/-- What may follow a body that ended in a certain way, and what it gives. -/
inductive Protocol (context : ContainmentContext) :
    Outcome Failure Unit → List Event → Outcome Empty Containment → Prop where
  | completed {flushed} :
      Protocol context (.value ()) (closing flushed) (.value .completed)
  | failed {stop failure after outcome} :
      stop.failure? = some failure → context.Aftermath failure after outcome →
      Protocol context stop after outcome
  | halted : Protocol context .halted [] .halted
  | waiting : Protocol context .waiting [] .waiting

theorem placard?_eq_none_iff : context.placard? fault = none ↔ fault = .cancellation := by
  cases fault <;> simp [placard?]

theorem ne_cancellation_of_placard? (shown : context.placard? fault = some placard) :
    fault ≠ .cancellation := by
  rintro rfl
  cases shown

theorem aftermath_iff_of_cancellation {failure : Failure}
    (cancelled : failure.fault = .cancellation) :
    context.Aftermath failure after outcome ↔
      ∃ flushed, after = context.interrupted :: closing flushed ∧ outcome = .value .cancelled := by
  constructor
  · intro aftermath
    cases aftermath with
    | cancelled => exact ⟨_, rfl, rfl⟩
    | held shown => exact absurd cancelled (ne_cancellation_of_placard? shown)
    | holding shown => exact absurd cancelled (ne_cancellation_of_placard? shown)
  · rintro ⟨flushed, rfl, rfl⟩
    exact .cancelled cancelled

theorem aftermath_iff_of_placard? {failure : Failure}
    (shown : context.placard? failure.fault = some placard) :
    context.Aftermath failure after outcome ↔
      (∃ before last flushed, before.length < context.patience ∧
        after = placard.recorded ::
          (context.turns placard before ++ context.turn placard last true ++ closing flushed) ∧
        outcome = .value (.held failure.fault (before.length + 1))) ∨
      ∃ before, before.length = context.patience ∧
        after = placard.recorded :: context.turns placard before ∧ outcome = .waiting := by
  constructor
  · intro aftermath
    cases aftermath with
    | cancelled cancelled => exact absurd cancelled (ne_cancellation_of_placard? shown)
    | held shownToo short =>
        cases shown.symm.trans shownToo
        exact .inl ⟨_, _, _, short, rfl, rfl⟩
    | holding shownToo long =>
        cases shown.symm.trans shownToo
        exact .inr ⟨_, long, rfl, rfl⟩
  · rintro (⟨before, last, flushed, short, rfl, rfl⟩ | ⟨before, long, rfl, rfl⟩)
    · exact .held shown short
    · exact .holding shown long

theorem caption_of_placard? (shown : context.placard? fault = some placard) :
    context.caption fault = placard.caption := by
  cases fault <;> cases shown <;> rfl

theorem message_of_placard? (shown : context.placard? fault = some placard) :
    fault.message?.getD "" = placard.message := by
  cases fault <;> cases shown <;> rfl

theorem runs_report_iff {next : Task Empty Containment}
    (shown : context.placard? fault = some placard) :
    Runs ((context.report fault).bind fun _ => next) after outcome ↔
      ∃ rest, after = placard.recorded :: rest ∧ Runs next rest outcome := by
  cases fault with
  | cancellation => cases shown
  | _ =>
      cases shown
      exact Program.runs_call_iff.trans ⟨fun ⟨_, found⟩ => found, fun found => ⟨(), found⟩⟩

theorem runs_finish_iff {containment : Containment}
    (calm : ∀ event ∈ after, Calm event.request event.reply) :
    Runs (finish containment) after outcome ↔
      ∃ flushed, after = closing flushed ∧ outcome = .value containment := by
  constructor
  · intro runs
    obtain ⟨_, _, rfl, runsFlush⟩ := Program.runs_call_iff.mp runs
    obtain ⟨flushed, _, rfl, runsRest⟩ := Program.runs_call_iff.mp runsFlush
    simp only [List.forall_mem_cons] at calm
    cases flushed with
    | crashed c => exact calm.2.1.elim
    | _ =>
        obtain ⟨rfl, rfl⟩ := Program.runs_done_iff.mp runsRest
        exact ⟨_, rfl, rfl⟩
  · rintro ⟨flushed, rfl, rfl⟩
    refine .call (.call ?_)
    simp only [closing, List.forall_mem_cons] at calm
    cases flushed with
    | crashed c => exact calm.2.1.elim
    | _ => exact .done

/-- A turn is over with the look at the stop request, which ends the hold or not. -/
theorem runs_holdTurns_succ_iff {turns before : Nat} {events : List Event}
    {ended : Outcome Empty Nat} (shown : context.placard? fault = some placard)
    (calm : ∀ event ∈ events, Calm event.request event.reply) :
    Runs (context.holdTurns fault before (turns + 1)) events ended ↔
      ∃ refreshed stop rest, events = context.turn placard refreshed stop ++ rest ∧
        Runs (if stop then Task.result (before + 1)
          else context.holdTurns fault (before + 1) turns) rest ended := by
  rw [holdTurns, caption_of_placard? shown, message_of_placard? shown]
  constructor
  · intro runs
    obtain ⟨receipt, _, rfl, runsRefresh⟩ := Program.runs_call_iff.mp runs
    rw [List.forall_mem_cons] at calm
    obtain rfl : receipt = .returned := calm.1
    obtain ⟨refreshed, _, rfl, runsClear⟩ := Program.runs_call_iff.mp runsRefresh
    rw [List.forall_mem_cons] at calm
    cases refreshed with
    | crashed c => exact calm.2.1.elim
    | _ =>
        obtain ⟨cleared, _, rfl, runsPause⟩ := Program.runs_call_iff.mp runsClear
        rw [List.forall_mem_cons] at calm
        obtain rfl : cleared = .returned := calm.2.2.1
        obtain ⟨_, _, rfl, runsPoll⟩ := Program.runs_call_iff.mp runsPause
        obtain ⟨stop, rest, rfl, runsRest⟩ := Program.runs_call_iff.mp runsPoll
        exact ⟨_, stop, rest, rfl, runsRest⟩
  · rintro ⟨refreshed, stop, rest, rfl, runs⟩
    simp only [turn, List.cons_append, List.forall_mem_cons] at calm
    refine .call (.call ?_)
    cases refreshed with
    | crashed c => exact calm.2.1.elim
    | _ => exact .call (.call (.call runs))

/-- The turns of a hold, as long as nobody crashes. -/
theorem runs_holdTurns_iff {turns before : Nat} {events : List Event}
    {ended : Outcome Empty Nat} (shown : context.placard? fault = some placard)
    (calm : ∀ event ∈ events, Calm event.request event.reply) :
    Runs (context.holdTurns fault before turns) events ended ↔
      (∃ refreshed last, refreshed.length < turns ∧
        events = context.turns placard refreshed ++ context.turn placard last true ∧
        ended = .value (before + refreshed.length + 1)) ∨
      ∃ refreshed, refreshed.length = turns ∧ events = context.turns placard refreshed ∧
        ended = .waiting := by
  induction turns generalizing before events with
  | zero =>
      refine Program.runs_done_iff.trans ?_
      constructor
      · rintro ⟨rfl, rfl⟩
        exact .inr ⟨[], rfl, rfl, rfl⟩
      · rintro (⟨_, _, impossible, _⟩ | ⟨refreshed, none, rfl, rfl⟩)
        · exact absurd impossible (Nat.not_lt_zero _)
        · rw [List.length_eq_zero_iff.mp none]
          exact ⟨rfl, rfl⟩
  | succ turns inductionHypothesis =>
      rw [runs_holdTurns_succ_iff shown calm]
      constructor
      · rintro ⟨answer, stop, rest, rfl, runs⟩
        rw [List.forall_mem_append] at calm
        cases stop with
        | true =>
            obtain ⟨rfl, rfl⟩ := Task.runs_result_iff.mp runs
            exact .inl ⟨[], answer, Nat.succ_pos turns, List.append_nil _, rfl⟩
        | false =>
            rcases (inductionHypothesis calm.2).mp runs with
              ⟨refreshed, last, short, rfl, rfl⟩ | ⟨refreshed, long, rfl, rfl⟩
            · refine .inl ⟨answer :: refreshed, last, Nat.succ_lt_succ short, ?_, ?_⟩
              · rw [turns_cons, List.append_assoc]
              · rw [List.length_cons, Nat.add_right_comm before 1, Nat.add_assoc before]
            · exact .inr ⟨answer :: refreshed, congrArg Nat.succ long, rfl, rfl⟩
      · rintro (⟨refreshed, last, short, rfl, rfl⟩ | ⟨refreshed, long, rfl, rfl⟩)
        · cases refreshed with
          | nil => exact ⟨last, true, [], (List.append_nil _).symm, .done⟩
          | cons answer refreshed =>
              rw [turns_cons, List.append_assoc] at calm ⊢
              rw [List.forall_mem_append] at calm
              refine ⟨answer, false, _, rfl, (inductionHypothesis calm.2).mpr (.inl ?_)⟩
              refine ⟨refreshed, last, Nat.lt_of_succ_lt_succ short, rfl, ?_⟩
              simp only [List.length_cons, Outcome.value.injEq]
              omega
        · cases refreshed with
          | nil => cases long
          | cons answer refreshed =>
              rw [turns_cons, List.forall_mem_append] at calm
              refine ⟨answer, false, _, rfl, (inductionHypothesis calm.2).mpr (.inr ?_)⟩
              exact ⟨refreshed, Nat.succ.inj long, rfl, rfl⟩

/-- A fault that is no cancellation is recorded, shown and held, and then the run is closed. -/
theorem settle_of_placard? {failure : Failure}
    (shown : context.placard? failure.fault = some placard) :
    context.settle failure =
      (context.report failure.fault).bind fun _ =>
        (context.hold failure.fault).bind fun cycles => finish (.held failure.fault cycles) := by
  unfold settle
  split
  case h_1 cancelled => exact absurd cancelled (ne_cancellation_of_placard? shown)
  case h_2 => rfl

theorem runs_settle_of_cancellation {failure : Failure} (cancelled : failure.fault = .cancellation)
    (calm : ∀ event ∈ after, Calm event.request event.reply) :
    Runs (context.settle failure) after outcome ↔
      ∃ flushed, after = context.interrupted :: closing flushed ∧ outcome = .value .cancelled := by
  rw [settle, cancelled]
  constructor
  · intro runs
    obtain ⟨_, rest, rfl, runsFinish⟩ := Program.runs_call_iff.mp runs
    rw [List.forall_mem_cons] at calm
    obtain ⟨flushed, rfl, rfl⟩ := (runs_finish_iff calm.2).mp runsFinish
    exact ⟨flushed, rfl, rfl⟩
  · rintro ⟨flushed, rfl, rfl⟩
    rw [List.forall_mem_cons] at calm
    exact .call ((runs_finish_iff calm.2).mpr ⟨flushed, rfl, rfl⟩)

theorem runs_settle_of_placard? {failure : Failure}
    (shown : context.placard? failure.fault = some placard)
    (calm : ∀ event ∈ after, Calm event.request event.reply) :
    Runs (context.settle failure) after outcome ↔
      (∃ before last flushed, before.length < context.patience ∧
        after = placard.recorded ::
          (context.turns placard before ++ context.turn placard last true ++ closing flushed) ∧
        outcome = .value (.held failure.fault (before.length + 1))) ∨
      ∃ before, before.length = context.patience ∧
        after = placard.recorded :: context.turns placard before ∧ outcome = .waiting := by
  rw [settle_of_placard? shown, runs_report_iff shown]
  constructor
  · rintro ⟨rest, rfl, runs⟩
    rw [List.forall_mem_cons] at calm
    rcases Task.runs_bind runs with
      ⟨holding, _, cycles, rfl, runsHold, runsFinish⟩ | ⟨ended, runsHold, passes⟩
    · rw [List.forall_mem_append] at calm
      obtain ⟨flushed, rfl, rfl⟩ := (runs_finish_iff calm.2.2).mp runsFinish
      rcases (runs_holdTurns_iff shown calm.2.1).mp runsHold with
        ⟨before, last, short, rfl, same⟩ | ⟨_, _, _, impossible⟩
      · cases same
        rw [Nat.zero_add]
        exact .inl ⟨before, last, flushed, short, rfl, rfl⟩
      · cases impossible
    · rcases (runs_holdTurns_iff shown calm.2).mp runsHold with
        ⟨_, _, _, _, rfl⟩ | ⟨before, long, rfl, rfl⟩
      · cases passes
      · cases passes
        exact .inr ⟨before, long, rfl, rfl⟩
  · rintro (⟨before, last, flushed, short, rfl, rfl⟩ | ⟨before, long, rfl, rfl⟩)
    · rw [List.forall_mem_cons, List.forall_mem_append] at calm
      have held : Runs (context.hold failure.fault) _ (.value (0 + before.length + 1)) :=
        (runs_holdTurns_iff shown calm.2.1).mpr (.inl ⟨before, last, short, rfl, rfl⟩)
      rw [Nat.zero_add] at held
      refine ⟨_, rfl, Program.runs_bind held ?_⟩
      exact (runs_finish_iff calm.2.2).mpr ⟨flushed, rfl, rfl⟩
    · rw [List.forall_mem_cons] at calm
      have holds : Runs (context.hold failure.fault) _ .waiting :=
        (runs_holdTurns_iff shown calm.2).mpr (.inr ⟨before, long, rfl, rfl⟩)
      refine ⟨_, rfl, ?_⟩
      rw [← List.append_nil (context.turns placard before)]
      exact Program.runs_bind holds .done

theorem runs_settle_iff {failure : Failure}
    (calm : ∀ event ∈ after, Calm event.request event.reply) :
    Runs (context.settle failure) after outcome ↔ context.Aftermath failure after outcome := by
  cases shown : context.placard? failure.fault with
  | none =>
      have cancelled := placard?_eq_none_iff.mp shown
      rw [runs_settle_of_cancellation cancelled calm, aftermath_iff_of_cancellation cancelled]
  | some placard => rw [runs_settle_of_placard? shown calm, aftermath_iff_of_placard? shown]

theorem protocol_iff_of_failure? {failure : Failure} (failed : stop.failure? = some failure) :
    context.Protocol stop after outcome ↔ context.Aftermath failure after outcome := by
  constructor
  · intro protocol
    cases protocol with
    | failed failedToo aftermath =>
        cases failed.symm.trans failedToo
        exact aftermath
    | _ => cases failed
  · exact .failed failed

/-- What follows a body is what the protocol says. -/
theorem runs_contain_iff (calm : ∀ event ∈ after, Calm event.request event.reply) :
    Runs (context.contain stop) after outcome ↔ context.Protocol stop after outcome := by
  cases stop with
  | error failure =>
      rw [contain, protocol_iff_of_failure? (Outcome.failure?_error failure)]
      exact runs_settle_iff calm
  | crash c =>
      rw [contain, protocol_iff_of_failure? (Outcome.failure?_crash c)]
      exact runs_settle_iff calm
  | value result =>
      rw [contain, runs_finish_iff calm]
      constructor
      · rintro ⟨flushed, rfl, rfl⟩
        exact .completed
      · intro protocol
        cases protocol with
        | completed => exact ⟨_, rfl, rfl⟩
        | failed impossible => cases impossible
  | halted =>
      refine Program.runs_done_iff.trans ⟨?_, ?_⟩
      · rintro ⟨rfl, rfl⟩
        exact .halted
      · intro protocol
        cases protocol with
        | halted => exact ⟨rfl, rfl⟩
        | failed impossible => cases impossible
  | waiting =>
      refine Program.runs_done_iff.trans ⟨?_, ?_⟩
      · rintro ⟨rfl, rfl⟩
        exact .waiting
      · intro protocol
        cases protocol with
        | waiting => exact ⟨rfl, rfl⟩
        | failed impossible => cases impossible

/-- A call of the robot that is no flush, or one of the host that does not close the log. -/
def KeepsOpen (call : Call) : Prop := call ≠ .host .closeLog ∧ call ≠ .robot .flushDisplay

theorem keepsOpen_turn {answer : Answer Unit} {stop : Bool} :
    ∀ event ∈ context.turn placard answer stop, KeepsOpen event.request := by
  simp [turn, KeepsOpen]

/-- Whatever a run gives, the log was closed and the display flushed then, and not before. -/
theorem exists_closing_of_protocol {containment : Containment}
    (protocol : context.Protocol stop after (.value containment)) :
    ∃ before flushed, after = before ++ closing flushed ∧
      ∀ event ∈ before, KeepsOpen event.request := by
  cases protocol with
  | completed => exact ⟨[], _, rfl, by simp⟩
  | failed _ aftermath =>
      cases aftermath with
      | cancelled => exact ⟨[context.interrupted], _, rfl, by simp [interrupted, KeepsOpen]⟩
      | @held placard before last flushed =>
          refine ⟨placard.recorded ::
            (context.turns placard before ++ context.turn placard last true), flushed, rfl, ?_⟩
          rw [List.forall_mem_cons, List.forall_mem_append]
          refine ⟨⟨by simp [Placard.recorded], by simp [Placard.recorded]⟩, ?_, ?_⟩
          · exact forall_turns fun _ _ => keepsOpen_turn
          · exact keepsOpen_turn

end ContainmentContext

end RobotRoutine
