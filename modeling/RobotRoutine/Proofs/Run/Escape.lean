import RobotRoutine.Proofs.Program.Effects
import RobotRoutine.Proofs.Program.Mishaps
import RobotRoutine.Proofs.Run.Containment

/-!
Crashes that leave the containment.

What ends the body of a guarded run is contained, a crash as well as a failure.  What follows the
body calls the same display again, and a crash there is nobody's: the first one unwinds the
containment itself.  If it comes in a turn of the hold, the log is still open and the display has
not been flushed; if it comes with the flush, nothing but the containment is missing.  So a
containment is given just if nobody crashes behind the body and the stop request comes in time.
-/

namespace RobotRoutine

open Program (Runs Event)

theorem calm_iff_not_crashed {event : Event} :
    Calm event.request event.reply ↔ ∀ crash, ¬ event.Crashed crash := by
  have answers {α : Type} (answer : Answer α) :
      answer.IsCalm ↔ ∀ crash, answer.mishap? ≠ some (.crashed crash) := by
    cases answer <;> simp [Answer.IsCalm, Answer.mishap?]
  have receipts (receipt : Receipt) :
      receipt = .returned ↔ ∀ crash, receipt.mishap? ≠ some (.crashed crash) := by
    cases receipt <;> simp [Receipt.mishap?]
  obtain ⟨request, reply⟩ := event
  cases request with
  | host request => simp [Calm, Event.Crashed, Event.mishap?]
  | robot request =>
      cases request with
      | addItem | clearItems => exact receipts reply
      | isActive | isStopRequested | operatorSignal => simp [Calm, Event.Crashed, Event.mishap?]
      | _ => exact answers reply

/-- Failures do not stop what follows a body; only crashes do. -/
def noErrors (_ : Call) (_ : Failure) : Option Empty := none

theorem ending?_noErrors_eq_some_iff {event : Event} {stop : Outcome Empty Empty} :
    Task.ending? noErrors event = some stop ↔
      ∃ crash, event.Crashed crash ∧ stop = .crash crash := by
  unfold Task.ending? Event.Crashed
  split
  case h_1 none => simp [none]
  case h_2 failed => simp [failed, noErrors]
  case h_3 crash crashed => simp [crashed, eq_comm]

namespace ContainmentContext

variable {context : ContainmentContext} {body : Task Failure Unit} {stop : Outcome Failure Unit}
  {events after : List Event} {outcome : Outcome Empty Containment} {containment : Containment}

theorem brittle_refresh :
    (Task.ignoringFailure (Program.robot .refresh)).Brittle noErrors := by
  refine Task.brittle_call ?_
  rintro (_ | _ | c)
  · exact .inl ⟨rfl, Task.brittle_done trivial⟩
  · exact .inl ⟨rfl, Task.brittle_done trivial⟩
  · exact .inr ⟨_, _, rfl, rfl, .crash c⟩

theorem brittle_finish (containment : Containment) : (finish containment).Brittle noErrors := by
  apply Task.brittle_bind (Task.brittle_host _)
  intro _
  refine Task.brittle_call ?_
  rintro (_ | _ | c)
  · exact .inl ⟨rfl, Task.brittle_done trivial⟩
  · exact .inl ⟨rfl, Task.brittle_done trivial⟩
  · exact .inr ⟨_, _, rfl, rfl, .crash c⟩

theorem brittle_holdTurns (fault : Fault) (before turns : Nat) :
    (context.holdTurns fault before turns).Brittle noErrors := by
  induction turns generalizing before with
  | zero => exact Task.brittle_done trivial
  | succ turns inductionHypothesis =>
      rw [holdTurns]
      apply Task.brittle_bind (Task.brittle_addItem _ _)
      intro _
      apply Task.brittle_bind brittle_refresh
      intro _
      apply Task.brittle_bind Task.brittle_clearItems
      intro _
      apply Task.brittle_bind (Task.brittle_host _)
      intro _
      apply Task.brittle_bind (Task.brittle_robot fun _ => rfl)
      intro stop
      split
      · exact Task.brittle_done trivial
      · exact inductionHypothesis (before + 1)

theorem brittle_report (fault : Fault) : (context.report fault).Brittle noErrors := by
  cases fault with
  | cancellation => exact Task.brittle_done trivial
  | domain tag message => exact Task.brittle_host _
  | unclassified message => exact Task.brittle_host _

theorem brittle_settle (failure : Failure) : (context.settle failure).Brittle noErrors := by
  unfold settle
  split
  · exact Task.brittle_bind (Task.brittle_host _) fun _ => brittle_finish _
  · apply Task.brittle_bind (brittle_report _)
    intro _
    apply Task.brittle_bind (brittle_holdTurns _ _ _)
    intro cycles
    exact brittle_finish _

/-- Whatever ended the body, the first crash behind it ends the containment. -/
theorem brittle_contain (stop : Outcome Failure Unit) :
    (context.contain stop).Brittle noErrors := by
  cases stop with
  | value _ => exact brittle_finish _
  | error failure => exact brittle_settle failure
  | crash crash => exact brittle_settle crash.failure
  | halted => exact Task.brittle_done trivial
  | waiting => exact Task.brittle_done trivial

/-- The calls by which a containment is found: they tell of a fault and look for the stop. -/
def FindingCall : Call → Prop
  | .robot (.addItem _ _) => True
  | .robot .refresh => True
  | .robot .clearItems => True
  | .robot .isStopRequested => True
  | .host (.pause _) => True
  | .host (.record _ _ _) => True
  | _ => False

/-- What is done before the log is closed. -/
def openEffects : Effects Empty where
  calls := FindingCall
  errors _ := True
  waits := True
  halts := True

theorem keepsOpen_of_findingCall {call : Call} (finding : FindingCall call) : KeepsOpen call := by
  constructor <;>
    · rintro rfl
      exact finding

theorem holdTurns_within (fault : Fault) (before turns : Nat) :
    (context.holdTurns fault before turns).Within openEffects := by
  induction turns generalizing before with
  | zero => exact Task.within_waiting trivial
  | succ turns inductionHypothesis =>
      rw [holdTurns]
      apply Task.within_bind (Task.within_addItem trivial)
      intro _
      have refreshed : (Task.ignoringFailure (Program.robot .refresh)).Within openEffects := by
        refine ⟨trivial, ?_⟩
        rintro (_ | _ | _) _ <;> trivial
      apply Task.within_bind refreshed
      intro _
      apply Task.within_bind (Task.within_clearItems trivial)
      intro _
      apply Task.within_bind (Task.within_host trivial)
      intro _
      apply Task.within_bind (Task.within_robot trivial)
      intro stop
      split
      · exact Task.within_result _
      · exact inductionHypothesis (before + 1)

theorem report_within (fault : Fault) : (context.report fault).Within openEffects := by
  cases fault with
  | cancellation => exact Task.within_result ()
  | domain tag message => exact Task.within_host trivial
  | unclassified message => exact Task.within_host trivial

/-- A containment is found first, with the log open, and then the run is closed. -/
theorem exists_settle_eq (failure : Failure) :
    ∃ finding : Task Empty Containment,
      context.settle failure = finding.bind finish ∧ finding.Within openEffects := by
  unfold settle
  split
  case h_1 =>
    refine ⟨(Task.record .info context.tag "Run interrupted").bind fun _ =>
      Task.result .cancelled, (Task.bind_assoc _ _ _).symm, ?_⟩
    exact Task.within_bind (Task.within_host trivial) fun _ => Task.within_result _
  case h_2 =>
    refine ⟨(context.report failure.fault).bind fun _ =>
      (context.hold failure.fault).bind fun cycles =>
        Task.result (.held failure.fault cycles), ?_, ?_⟩
    · simp [Task.bind_assoc]
    · apply Task.within_bind (report_within _)
      intro _
      apply Task.within_bind (holdTurns_within _ _ _)
      intro cycles
      exact Task.within_result _

theorem exists_contain_eq (stop : Outcome Failure Unit) :
    ∃ finding : Task Empty Containment,
      context.contain stop = finding.bind finish ∧ finding.Within openEffects := by
  cases stop with
  | value _ => exact ⟨Task.result .completed, rfl, Task.within_result _⟩
  | error failure => exact exists_settle_eq failure
  | crash crash => exact exists_settle_eq crash.failure
  | halted => exact ⟨Task.halted, rfl, trivial⟩
  | waiting => exact ⟨Task.waiting, rfl, trivial⟩

theorem runs_finish_cases (runs : Runs (finish containment) after outcome) :
    ∃ flushed, after = closing flushed ∧
      (outcome = .value containment ∨
        ∃ crash, flushed = .crashed crash ∧ outcome = .crash crash) := by
  obtain ⟨_, _, rfl, runsFlush⟩ := Program.runs_call_iff.mp runs
  obtain ⟨flushed, _, rfl, runsRest⟩ := Program.runs_call_iff.mp runsFlush
  cases flushed with
  | crashed crash =>
      obtain ⟨rfl, rfl⟩ := Program.runs_done_iff.mp runsRest
      exact ⟨_, rfl, .inr ⟨crash, rfl, rfl⟩⟩
  | _ =>
      obtain ⟨rfl, rfl⟩ := Program.runs_done_iff.mp runsRest
      exact ⟨_, rfl, .inl rfl⟩

/-- A run that ended with a crash had not begun to close, or it was the flush that crashed. -/
theorem closing_of_crash {crash : Crash} (runs : Runs (context.contain stop) after (.crash crash)) :
    (∀ event ∈ after, KeepsOpen event.request) ∨
      ∃ before, after = before ++ closing (.crashed crash) ∧
        ∀ event ∈ before, KeepsOpen event.request := by
  obtain ⟨finding, same, within⟩ := context.exists_contain_eq stop
  rw [same] at runs
  rcases Task.runs_bind runs with
    ⟨before, last, found, rfl, runsFinding, runsFinish⟩ | ⟨ended, runsFinding, passes⟩
  · have keeps : ∀ event ∈ before, KeepsOpen event.request := fun event member =>
      keepsOpen_of_findingCall ((Task.within_of_runs within runsFinding).1 event member)
    obtain ⟨_, rfl, impossible | ⟨_, rfl, given⟩⟩ := runs_finish_cases runsFinish
    · cases impossible
    · cases given
      exact .inr ⟨before, rfl, keeps⟩
  · exact .inl fun event member =>
      keepsOpen_of_findingCall ((Task.within_of_runs within runsFinding).1 event member)

/-- How the containment bears what its collaborators do behind the body. -/
structure Endures (context : ContainmentContext) (stop : Outcome Failure Unit)
    (after : List Event) (outcome : Outcome Empty Containment) : Prop where
  /-- Of a body that was not halted, a containment is given if nobody crashes and the stop comes. -/
  contained : (∃ containment, outcome = .value containment) ↔
    stop ≠ .halted ∧ outcome ≠ .waiting ∧ ∀ event ∈ after, ∀ crash, ¬ event.Crashed crash
  finished : ∀ containment, outcome = .value containment →
    ∃ before flushed, after = before ++ closing flushed ∧
      ∀ event ∈ before, KeepsOpen event.request
  closed : ∀ containment host last, outcome = .value containment →
    Host.Follows host after last → last.log.writer = none
  /-- The crash that escapes is the first and last thing to go so wrong behind the body. -/
  escaped : ∀ crash, outcome = .crash crash ↔
    ∃ before last, after = before ++ [last] ∧ last.Crashed crash
  unfinished : ∀ crash, outcome = .crash crash →
    (∀ event ∈ after, KeepsOpen event.request) ∨
      ∃ before, after = before ++ closing (.crashed crash) ∧
        ∀ event ∈ before, KeepsOpen event.request
  waiting : outcome = .waiting →
    stop = .waiting ∨ after.filterMap stopPoll? = List.replicate context.patience false

theorem protocol_of_calm (runs : Runs (context.contain stop) after outcome)
    (calm : ∀ event ∈ after, ∀ crash, ¬ event.Crashed crash) :
    context.Protocol stop after outcome :=
  (runs_contain_iff fun event member => calm_iff_not_crashed.mpr (calm event member)).mp runs

/-- As long as nothing crashed behind the body, the containment ended in no crash either. -/
theorem calm_of_peaceful (runs : Runs (context.contain stop) after outcome)
    (peaceful : outcome.Peaceful) : ∀ event ∈ after, ∀ crash, ¬ event.Crashed crash := by
  intro event member crash crashed
  obtain ⟨earlier, later, rfl⟩ := List.append_of_mem member
  obtain ⟨_, passes⟩ := (brittle_contain stop _ _ runs).of_ending
    (ending?_noErrors_eq_some_iff.mpr ⟨crash, crashed, rfl⟩)
  cases passes
  exact peaceful

theorem stopPolls_of_waiting (protocol : context.Protocol stop after .waiting) :
    stop = .waiting ∨ after.filterMap stopPoll? = List.replicate context.patience false := by
  cases protocol with
  | waiting => exact .inl rfl
  | failed failed aftermath =>
      cases aftermath with
      | @holding _ before _ long =>
          rw [← long]
          exact .inr (stopPolls_turns before)

theorem endures_of_runs (runs : Runs (context.contain stop) after outcome) :
    context.Endures stop after outcome where
  contained := by
    constructor
    · rintro ⟨containment, rfl⟩
      refine ⟨?_, by simp, calm_of_peaceful runs trivial⟩
      rintro rfl
      obtain ⟨_, impossible⟩ := Program.runs_done_iff.mp runs
      cases impossible
    · rintro ⟨running, ended, calm⟩
      cases protocol_of_calm runs calm with
      | completed => exact ⟨_, rfl⟩
      | failed _ aftermath =>
          cases aftermath with
          | holding => exact absurd rfl ended
          | _ => exact ⟨_, rfl⟩
      | halted => exact absurd rfl running
      | waiting => exact absurd rfl ended
  finished := by
    rintro containment rfl
    exact exists_closing_of_protocol (protocol_of_calm runs (calm_of_peaceful runs trivial))
  closed := by
    rintro containment host last rfl follows
    obtain ⟨before, flushed, rfl, _⟩ :=
      exists_closing_of_protocol (protocol_of_calm runs (calm_of_peaceful runs trivial))
    exact writer_of_closing follows
  escaped := by
    intro crash
    constructor
    · rintro rfl
      obtain ⟨before, last, stopped, same, stops, passes⟩ :=
        (brittle_contain stop _ _ runs).exists_last id
      obtain ⟨_, crashed, rfl⟩ := ending?_noErrors_eq_some_iff.mp stops
      cases passes
      exact ⟨before, last, same, crashed⟩
    · rintro ⟨before, last, rfl, crashed⟩
      obtain ⟨_, passes⟩ := (brittle_contain stop _ _ runs).of_ending
        (ending?_noErrors_eq_some_iff.mpr ⟨crash, crashed, rfl⟩)
      cases passes
      rfl
  unfinished := by
    rintro crash rfl
    exact closing_of_crash runs
  waiting := by
    rintro rfl
    exact stopPolls_of_waiting (protocol_of_calm runs (calm_of_peaceful runs trivial))

/-- Every run of a guarded body is a run of the body, and what follows it is borne in this way. -/
theorem guard_endures (runs : Runs (context.guard body) events outcome) :
    ∃ first after stop, events = first ++ after ∧ Runs body first stop ∧
      context.Endures stop after outcome := by
  obtain ⟨first, after, stop, same, ends, runsContain⟩ := Program.runs_of_bind runs
  exact ⟨first, after, stop, same, ends, endures_of_runs runsContain⟩

/-- A display that crashes as it is shown the fault of a body. -/
def crashingHold : List Event :=
  [⟨.host (.record .error "T" "Unexpected failure: bus timeout"), ()⟩,
    ⟨.robot (.addItem "T fatal Exception" "bus timeout"), Receipt.returned⟩,
    ⟨.robot .refresh, Answer.crashed (.text "display gone")⟩]

/-- The crash of the display leaves the containment, the log open and the display not flushed. -/
theorem guard_endures_crashingHold :
    Runs (ContainmentContext.guard ⟨"T", .zero, 5⟩ (Task.throw (.plain "bus timeout")))
      crashingHold (.crash (.text "display gone")) ∧
    ∀ event ∈ crashingHold, KeepsOpen event.request := by
  have runs : Runs (ContainmentContext.guard ⟨"T", .zero, 5⟩ (Task.throw (.plain "bus timeout")))
      crashingHold (.crash (.text "display gone")) := .call (.call (.call .done))
  refine ⟨runs, ?_⟩
  obtain ⟨first, after, stop, same, ends, endures⟩ := guard_endures runs
  obtain ⟨rfl, rfl⟩ := Program.runs_done_iff.mp ends
  rw [List.nil_append] at same
  subst same
  rcases endures.unfinished _ rfl with keepsOpen | ⟨before, closed, _⟩
  · exact keepsOpen
  · have last := congrArg List.getLast? closed
    simp [crashingHold, closing] at last

end ContainmentContext

end RobotRoutine
