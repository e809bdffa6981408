import Mathlib.Data.List.Induction
import RobotRoutine.Proofs.Run.Visits
import RobotRoutine.Simulation.Robot

/-!
A control in the hands of the host and of the engine.

However the calls through the clones interleave, the flags are those of one control that takes the
calls one after the other, since no clone has a flag or a period of its own.  So each answer can be
read off the calls before it: the start, the stop requests, and the presses since the last poll.  A
press pays for one poll at most, and a breakpoint is passed with a poll.
-/

namespace RobotRoutine

namespace ControlCall

/-- A press of the operator, also as a blank line. -/
def presses : ControlCall → Bool
  | .pressSignal => true
  | .applyLine line => Text.trim line = ""
  | _ => false

def asksStop : ControlCall → Bool
  | .requestStop => true
  | .applyLine line => Text.trim line = "stop" ∨ Text.trim line = "q"
  | _ => false

/-- The signal is up: a press has come, and no poll since then. -/
def Pressed (calls : List ControlCall) : Prop :=
  ∃ earlier press between, calls = earlier ++ press :: between ∧ press.presses = true ∧
    .operatorSignal ∉ between

variable {calls : List ControlCall} {call : ControlCall}

theorem not_pressed_nil : ¬Pressed [] := by
  rintro ⟨earlier, press, between, same, -⟩
  simp at same

theorem pressed_concat_iff :
    Pressed (calls ++ [call]) ↔
      call.presses = true ∨ Pressed calls ∧ call ≠ .operatorSignal := by
  constructor
  · rintro ⟨earlier, press, between, same, presses, unpolled⟩
    rcases List.eq_nil_or_concat between with rfl | ⟨between, last, rfl⟩
    · obtain ⟨-, ending⟩ := List.append_inj' same rfl
      cases ending
      exact .inl presses
    · rw [List.concat_eq_append, ← List.cons_append, ← List.append_assoc] at same
      obtain ⟨rfl, ending⟩ := List.append_inj' same rfl
      cases ending
      rw [List.concat_eq_append, List.mem_append, not_or] at unpolled
      refine .inr ⟨⟨earlier, press, between, rfl, presses, unpolled.1⟩, ?_⟩
      rintro rfl
      exact unpolled.2 (by simp)
  · rintro (presses | ⟨⟨earlier, press, between, rfl, presses, unpolled⟩, other⟩)
    · exact ⟨calls, call, [], rfl, presses, by simp⟩
    · refine ⟨earlier, press, between ++ [call], by simp, presses, ?_⟩
      simpa [unpolled] using other.symm

/-- The calls of the engine; the others are those of the host. -/
def request? : ControlCall → Option RobotCall
  | .waitForStart => some .waitForStart
  | .isActive => some .isActive
  | .isStopRequested => some .isStopRequested
  | .operatorSignal => some .operatorSignal
  | _ => none

end ControlCall

/-- A simulated robot leaves these calls to its control. -/
theorem SimulatedRobot.control_answer {call : ControlCall} {request : RobotCall}
    (asked : call.request? = some request) (robot : SimulatedRobot) (now : Duration)
    (sink : Sink) :
    (robot.answer now sink request).2.1.control = robot.control.afterCall call := by
  cases call <;> cases asked <;> rfl

namespace ConsoleControl

open ControlCall

variable (control : ConsoleControl) {calls : List ControlCall}

/-- The control after some calls, one after the other. -/
def afterCalls (calls : List ControlCall) : ConsoleControl := calls.foldl afterCall control

@[simp]
theorem afterCalls_concat (call : ControlCall) :
    control.afterCalls (calls ++ [call]) = (control.afterCalls calls).afterCall call := by
  simp [afterCalls]

theorem toRunTerm_afterCall (call : ControlCall) :
    (control.afterCall call).toRunTerm = control.toRunTerm := by
  cases call with
  | applyLine line =>
      simp only [afterCall, applyLine]
      split_ifs <;> rfl
  | _ => rfl

theorem toRunTerm_afterCalls (calls : List ControlCall) :
    (control.afterCalls calls).toRunTerm = control.toRunTerm := by
  induction calls using List.reverseRecOn with
  | nil => rfl
  | append_singleton calls call inductionHypothesis =>
      rw [afterCalls_concat, toRunTerm_afterCall, inductionHypothesis]

theorem started_afterCall (call : ControlCall) :
    (control.afterCall call).started = (control.started || call = .waitForStart) := by
  cases call with
  | applyLine line =>
      simp only [afterCall, applyLine]
      split_ifs <;> simp [pressSignal, requestStop]
  | _ => simp [afterCall, start, requestStop, pressSignal, takeSignal]

theorem stop_afterCall (call : ControlCall) :
    (control.afterCall call).stop = (control.stop || call.asksStop) := by
  cases call with
  | applyLine line =>
      simp only [afterCall, applyLine, asksStop]
      split_ifs with blank asked <;> simp [pressSignal, requestStop, *]
  | _ => simp [afterCall, start, requestStop, pressSignal, takeSignal, asksStop]

theorem signal_afterCall (call : ControlCall) :
    (control.afterCall call).signal =
      (call.presses || (control.signal && call ≠ .operatorSignal)) := by
  cases call with
  | applyLine line =>
      simp only [afterCall, applyLine, presses]
      split_ifs with blank asked <;> simp [pressSignal, requestStop, blank]
  | _ => simp [afterCall, start, requestStop, pressSignal, takeSignal, presses]

/-- A call that looks at the signal uses it up; only a press makes up for that. -/
theorem signal_afterCall_le (call : ControlCall) :
    (if call = .operatorSignal then control.signal.toNat else 0) +
        (control.afterCall call).signal.toNat ≤
      call.presses.toNat + control.signal.toNat := by
  rw [signal_afterCall]
  by_cases polls : call = .operatorSignal
  · subst polls
    simp [presses]
  · cases call.presses <;> cases control.signal <;> simp [polls]

variable {now period : Duration}

theorem started_afterCalls_iff :
    ((launch now period).afterCalls calls).started = true ↔ .waitForStart ∈ calls := by
  induction calls using List.reverseRecOn with
  | nil => simp [afterCalls, launch]
  | append_singleton calls call inductionHypothesis =>
      rw [afterCalls_concat, started_afterCall, Bool.or_eq_true, inductionHypothesis]
      simp [eq_comm]

theorem stop_afterCalls_iff :
    ((launch now period).afterCalls calls).stop = true ↔ ∃ call ∈ calls, call.asksStop = true := by
  induction calls using List.reverseRecOn with
  | nil => simp [afterCalls, launch]
  | append_singleton calls call inductionHypothesis =>
      rw [afterCalls_concat, stop_afterCall, Bool.or_eq_true, inductionHypothesis]
      simp [or_and_right, exists_or]

theorem signal_afterCalls_iff :
    ((launch now period).afterCalls calls).signal = true ↔ Pressed calls := by
  induction calls using List.reverseRecOn with
  | nil => simp [afterCalls, launch, not_pressed_nil]
  | append_singleton calls call inductionHypothesis =>
      rw [afterCalls_concat, signal_afterCall, pressed_concat_iff, ← inductionHypothesis]
      simp

end ConsoleControl

namespace SharedControl

open ControlCall

variable {shared last : SharedControl} {term : RunTerm} {events before later : List ControlEvent}
  {event : ControlEvent}

def callsOf (events : List ControlEvent) : List ControlCall := events.map ControlEvent.call

/-- All clones run on the same term. -/
def Agrees (term : RunTerm) (shared : SharedControl) : Prop := ∀ clone ∈ shared.clones, clone = term

theorem through_serve (shared : SharedControl) (clone : RunTerm) (moment : Duration)
    (call : ControlCall) :
    (shared.serve clone moment call).2.through clone = (shared.through clone).afterCall call :=
  congrArg (ConsoleControl.mk _)
    (ConsoleControl.toRunTerm_afterCall (shared.through clone) call).symm

/-- Each reply is that of one control which takes the calls one after the other. -/
theorem reply_of_follows (agrees : Agrees term shared) (follows : Follows shared events last)
    (split : events = before ++ event :: later) :
    event.reply =
      ((shared.through term).afterCalls (callsOf before)).reply event.moment event.call := by
  induction follows generalizing before with
  | rest => simp at split
  | clone member _ inductionHypothesis =>
      refine inductionHypothesis ?_ split
      exact List.forall_mem_cons.mpr ⟨agrees _ member, agrees⟩
  | @call shared last events clone moment call member _ _ inductionHypothesis =>
      obtain rfl := agrees clone member
      cases before with
      | nil =>
          cases split
          rfl
      | cons first before =>
          cases split
          rw [inductionHypothesis agrees rfl, through_serve]
          rfl

/-- The clock does not go back. -/
theorem ordered_of_follows (follows : Follows shared events last) :
    (∀ event ∈ events, shared.now ≤ event.moment) ∧
      events.Pairwise fun first second => first.moment ≤ second.moment := by
  induction follows with
  | rest => exact ⟨by simp, .nil⟩
  | clone _ _ inductionHypothesis => exact inductionHypothesis
  | call _ moment call _ onTime _ inductionHypothesis =>
      obtain ⟨later, ordered⟩ := inductionHypothesis
      refine ⟨?_, .cons later ordered⟩
      rw [List.forall_mem_cons]
      exact ⟨onTime, fun event member => Nat.le_trans onTime (later event member)⟩

/-- The replies to the polls of the operator, in their order. -/
def signals (events : List ControlEvent) : List Bool :=
  events.filterMap fun
    | ⟨_, .operatorSignal, reply⟩ => some reply
    | _ => none

def presses (events : List ControlEvent) : Nat := events.countP (·.call.presses)

theorem presses_cons (event : ControlEvent) (events : List ControlEvent) :
    presses (event :: events) = event.call.presses.toNat + presses events := by
  rw [presses, presses, List.countP_cons]
  cases event.call.presses <;> simp [Nat.add_comm]

theorem count_signals_serve_cons (clone : RunTerm) (moment : Duration) (call : ControlCall) :
    (signals ((shared.serve clone moment call).1 :: events)).count true =
      (if call = .operatorSignal then shared.flags.signal.toNat else 0) +
        (signals events).count true := by
  cases call with
  | operatorSignal =>
      change (shared.flags.signal :: signals events).count true = _
      cases shared.flags.signal <;> simp [Nat.add_comm]
  | _ => simp [signals, serve]

/-- A press pays for one poll at most, and so does a signal that was up at the beginning. -/
theorem count_signals_le (follows : Follows shared events last) :
    (signals events).count true + last.flags.signal.toNat ≤
      presses events + shared.flags.signal.toNat := by
  induction follows with
  | rest => simp [signals, presses]
  | clone _ _ inductionHypothesis => exact inductionHypothesis
  | @call shared last events clone moment call _ _ _ inductionHypothesis =>
      have step : (if call = .operatorSignal then shared.flags.signal.toNat else 0) +
          ((shared.through clone).afterCall call).signal.toNat ≤
            call.presses.toNat + shared.flags.signal.toNat :=
        (shared.through clone).signal_afterCall_le call
      change _ ≤ _ + ((shared.through clone).afterCall call).signal.toNat at inductionHypothesis
      rw [count_signals_serve_cons, presses_cons]
      change _ ≤ call.presses.toNat + presses events + _
      omega

end SharedControl

namespace DispatchContext

open Program (Runs Event)

variable {context : DispatchContext} {configuration : Configuration} {events : List Event}

/-- The replies that the operator has given to the polls of a run, in their order. -/
def operatorPolls (events : List Event) : List Bool :=
  events.filterMap fun
    | ⟨.robot .operatorSignal, reply⟩ => some reply
    | _ => none

/-- A breakpoint is passed with its last poll, and with no other. -/
theorem count_operatorPolls_operatorTurns {turns : Nat}
    (runs : Runs (context.operatorTurns turns) events (.value ())) :
    (operatorPolls events).count true = 1 := by
  induction turns generalizing events with
  | zero =>
      obtain ⟨_, same⟩ := Program.runs_done_iff.mp runs
      cases same
  | succ turns inductionHypothesis =>
      obtain ⟨pressed, rest, rfl, runsRest⟩ := Program.runs_call_iff.mp runs
      cases pressed with
      | true =>
          obtain ⟨rfl, -⟩ := Program.runs_done_iff.mp runsRest
          rfl
      | false =>
          obtain ⟨_, _, rfl, runsTurns⟩ := Program.runs_call_iff.mp runsRest
          have once := inductionHypothesis runsTurns
          exact once

/-- A visit that has passed a breakpoint. -/
structure PassesBreakpoint (context : DispatchContext) (configuration : Configuration)
    (visit : Visit) : Prop where
  breakpoint : Command.resolve visit.step = .ok .breakpoint
  passes : ∃ before spliced after,
    Runs (context.visit configuration visit.step before) visit.events (.value (some spliced), after)

theorem PassesBreakpoint.count_operatorPolls {visit : Visit}
    (passed : context.PassesBreakpoint configuration visit) :
    (operatorPolls visit.events).count true = 1 := by
  obtain ⟨breakpoint, before, spliced, after, runs⟩ := passed
  have plain := isMarker_eq_false breakpoint nofun
  generalize visit.events = events at runs
  cases visited_of_runs runs with
  | found marker =>
      rw [plain] at marker
      cases marker
  | stopped _ _ _ passes => exact absurd rfl (passes.ne_value _)
  | @carried command doing _ resolved carriedOut =>
      rw [breakpoint] at resolved
      cases resolved
      obtain ⟨_, _, rfl, runsTurns⟩ := Program.runs_call_iff.mp carriedOut
      have once := count_operatorPolls_operatorTurns runsTurns
      exact once

theorem count_operatorPolls_eventsOf {visits : List Visit}
    (passed : ∀ visit ∈ visits, context.PassesBreakpoint configuration visit) :
    (operatorPolls (eventsOf visits)).count true = visits.length := by
  induction visits with
  | nil => rfl
  | cons visit rest inductionHypothesis =>
      rw [List.forall_mem_cons] at passed
      have split : operatorPolls (eventsOf (visit :: rest)) =
          operatorPolls visit.events ++ operatorPolls (eventsOf rest) := List.filterMap_append
      rw [split, List.count_append, passed.1.count_operatorPolls, inductionHypothesis passed.2,
        List.length_cons, Nat.add_comm]

end DispatchContext

namespace SharedControl

open ControlCall DispatchContext

/-- What the calls through all clones of a control come to. -/
structure Coherent (term : RunTerm) (events : List ControlEvent) : Prop where
  isActive_iff {before later : List ControlEvent} {moment : Duration} {reply : Bool} :
    events = before ++ ⟨moment, .isActive, reply⟩ :: later →
      (reply = true ↔ .waitForStart ∈ callsOf before ∧
        (∀ call ∈ callsOf before, call.asksStop = false) ∧ moment - term.launched < term.period)
  isStopRequested_iff {before later : List ControlEvent} {moment : Duration} {reply : Bool} :
    events = before ++ ⟨moment, .isStopRequested, reply⟩ :: later →
      (reply = true ↔ (∃ call ∈ callsOf before, call.asksStop = true) ∨
        term.period ≤ moment - term.launched)
  operatorSignal_iff {before later : List ControlEvent} {moment : Duration} {reply : Bool} :
    events = before ++ ⟨moment, .operatorSignal, reply⟩ :: later →
      (reply = true ↔ Pressed (callsOf before))
  /-- A stop that has been seen once is seen for ever. -/
  stopped {before later : List ControlEvent} {moment : Duration} :
    events = before ++ ⟨moment, .isStopRequested, true⟩ :: later →
      (∀ now reply, ⟨now, .isStopRequested, reply⟩ ∈ later → reply = true) ∧
        ∀ now reply, ⟨now, .isActive, reply⟩ ∈ later → reply = false
  signals_le : (signals events).count true ≤ presses events
  /-- The breakpoints that a run passes, if the operator's answers in it come from these calls. -/
  breakpoints_le {context : DispatchContext} {configuration : Configuration}
    {trace : List Program.Event} {visits : List Visit} :
    (operatorPolls trace).Sublist (signals events) → (eventsOf visits).Sublist trace →
      (∀ visit ∈ visits, context.PassesBreakpoint configuration visit) →
        visits.length ≤ presses events

variable {now period : Duration} {last : SharedControl} {events before later : List ControlEvent}

theorem agrees_launch (now period : Duration) : Agrees ⟨now, period⟩ (launch now period) := by
  simp [Agrees, launch]

/-- The control that has taken the calls of some events. -/
def seen (now period : Duration) (before : List ControlEvent) : ConsoleControl :=
  (ConsoleControl.launch now period).afterCalls (callsOf before)

theorem reply_of_launch {event : ControlEvent} (follows : Follows (launch now period) events last)
    (split : events = before ++ event :: later) :
    event.reply = (seen now period before).reply event.moment event.call :=
  reply_of_follows (agrees_launch now period) follows split

theorem isStopRequested_seen_iff {moment : Duration} :
    (seen now period before).isStopRequested moment = true ↔
      (∃ call ∈ callsOf before, call.asksStop = true) ∨ period ≤ moment - now := by
  have term : (seen now period before).toRunTerm = ⟨now, period⟩ :=
    ConsoleControl.toRunTerm_afterCalls _ _
  rw [ConsoleControl.isStopRequested, term, Bool.or_eq_true, seen,
    ConsoleControl.stop_afterCalls_iff, decide_eq_true_iff]

theorem isActive_seen_iff {moment : Duration} :
    (seen now period before).isActive moment = true ↔
      .waitForStart ∈ callsOf before ∧ (seen now period before).isStopRequested moment = false := by
  rw [ConsoleControl.isActive, Bool.and_eq_true, Bool.not_eq_true', seen,
    ConsoleControl.started_afterCalls_iff]

/-- Neither a stop that was asked for nor the end of the period is taken back. -/
theorem isStopRequested_seen_append {between : List ControlEvent} {earlier moment : Duration}
    (notEarlier : earlier ≤ moment)
    (stopped : (seen now period before).isStopRequested earlier = true) :
    (seen now period (before ++ between)).isStopRequested moment = true := by
  rw [isStopRequested_seen_iff] at stopped ⊢
  rcases stopped with ⟨call, member, asks⟩ | elapsed
  · refine .inl ⟨call, ?_, asks⟩
    rw [callsOf, List.map_append]
    exact List.mem_append_left _ member
  · exact .inr (Nat.le_trans elapsed (Nat.sub_le_sub_right notEarlier _))

/-- Behind a stop that was seen, every answer is that of a stopped control. -/
theorem isStopRequested_of_later {moment : Duration} {event : ControlEvent}
    (follows : Follows (launch now period) events last)
    (split : events = before ++ ⟨moment, .isStopRequested, true⟩ :: later)
    (member : event ∈ later) :
    ∃ earlier, event.reply = (seen now period earlier).reply event.moment event.call ∧
      (seen now period earlier).isStopRequested event.moment = true := by
  obtain ⟨between, rest, rfl⟩ := List.append_of_mem member
  have seenStop := (reply_of_launch follows split).symm
  have ordered := (ordered_of_follows follows).2
  rw [split, List.pairwise_append] at ordered
  have notEarlier := List.rel_of_pairwise_cons ordered.2.1 member
  refine ⟨before ++ (⟨moment, .isStopRequested, true⟩ :: between), ?_, ?_⟩
  · have splitAgain : events =
        before ++ ⟨moment, .isStopRequested, true⟩ :: between ++ event :: rest := by simp [split]
    exact reply_of_launch follows splitAgain
  · exact isStopRequested_seen_append notEarlier seenStop

theorem coherent_of_follows (follows : Follows (launch now period) events last) :
    Coherent ⟨now, period⟩ events where
  isActive_iff := by
    intro before later moment reply split
    have replied : reply = (seen now period before).isActive moment := reply_of_launch follows split
    have within : ¬period ≤ moment - now ↔ moment - now < period := Nat.not_le
    rw [replied, isActive_seen_iff, ← Bool.not_eq_true, isStopRequested_seen_iff, not_or, within]
    simp
  isStopRequested_iff := by
    intro before later moment reply split
    have replied : reply = (seen now period before).isStopRequested moment :=
      reply_of_launch follows split
    rw [replied, isStopRequested_seen_iff]
  operatorSignal_iff := by
    intro before later moment reply split
    have replied : reply = (seen now period before).signal := reply_of_launch follows split
    rw [replied, seen, ConsoleControl.signal_afterCalls_iff]
  stopped := by
    intro before later moment split
    constructor
    · intro now reply member
      obtain ⟨earlier, replied, stopped⟩ := isStopRequested_of_later follows split member
      exact replied.trans stopped
    · intro now reply member
      obtain ⟨earlier, replied, stopped⟩ := isStopRequested_of_later follows split member
      have inactive := mt isActive_seen_iff.mp fun active =>
        Bool.false_ne_true (active.2.symm.trans stopped)
      rw [Bool.not_eq_true] at inactive
      exact replied.trans inactive
  signals_le := by
    have paid := count_signals_le follows
    change _ ≤ presses events + 0 at paid
    omega
  breakpoints_le := by
    intro context configuration trace visits answered among passed
    have paid := count_signals_le follows
    change _ ≤ presses events + 0 at paid
    have polled : (operatorPolls (eventsOf visits)).Sublist (signals events) :=
      (among.filterMap _).trans answered
    have few := polled.count_le true
    rw [count_operatorPolls_eventsOf passed] at few
    omega

/-- The host types a blank line through a clone of its own; the engine polls twice, and is stopped
by the end of the period. -/
def sampleEvents : List ControlEvent :=
  [⟨.ofSecs 1, .waitForStart, ()⟩, ⟨.ofSecs 2, .applyLine " ", ()⟩, ⟨.ofSecs 2, .isActive, true⟩,
    ⟨.ofSecs 3, .operatorSignal, true⟩, ⟨.ofSecs 4, .operatorSignal, false⟩,
    ⟨.ofSecs 60, .isStopRequested, true⟩, ⟨.ofSecs 61, .isActive, false⟩]

theorem coherent_of_follows_sample :
    (∃ last, Follows (launch Duration.zero (.ofSecs 60)) sampleEvents last) ∧
      Coherent ⟨Duration.zero, .ofSecs 60⟩ sampleEvents := by
  have follows : Follows (launch Duration.zero (.ofSecs 60)) sampleEvents
      ⟨⟨true, false, false⟩, List.replicate 2 ⟨Duration.zero, .ofSecs 60⟩, .ofSecs 61⟩ := by
    have both {clone : RunTerm} : clone ∈ [clone, clone] := .head _
    refine .clone (.head _) ?_
    refine .call _ (.ofSecs 1) .waitForStart both (by decide) ?_
    refine .call _ (.ofSecs 2) (.applyLine " ") both (by decide) ?_
    refine .call ⟨Duration.zero, .ofSecs 60⟩ (.ofSecs 2) .isActive both (by decide) ?_
    refine .call ⟨Duration.zero, .ofSecs 60⟩ (.ofSecs 3) .operatorSignal both (by decide) ?_
    refine .call ⟨Duration.zero, .ofSecs 60⟩ (.ofSecs 4) .operatorSignal both (by decide) ?_
    refine .call ⟨Duration.zero, .ofSecs 60⟩ (.ofSecs 60) .isStopRequested both (by decide) ?_
    refine .call ⟨Duration.zero, .ofSecs 60⟩ (.ofSecs 61) .isActive both (by decide) ?_
    exact .rest _
  exact ⟨⟨_, follows⟩, coherent_of_follows follows⟩

end SharedControl

end RobotRoutine
