import RobotRoutine.Proofs.Run.CutDrive
import RobotRoutine.Proofs.Run.Phases
import RobotRoutine.Proofs.Simulation.Robot
import RobotRoutine.Simulation.Session

/-!
What the exit status of a run tells.

The status is made of how the run was contained, and the containment knows no more of the body than
that it gave a value or failed: the report of the dispatcher is dropped on the way.  So a run that
is cut off by a stop request, or by the end of its period, is a success like one that is completed.
It would be cancelled only if a stop request came as a failure, and a simulated robot has none.
-/

namespace RobotRoutine

open Program (Runs Event)

namespace CommandLine

open Autonomous

variable {plan : RunPlan} {patience : Nat} {selector : String} {containment : Containment}
  {events acting : List Event} {stop : Outcome Failure Unit} {status : ExitStatus}

def statusOf : Containment → ExitStatus
  | .completed => .success
  | .cancelled => .cancelled
  | .held _ _ => .held

theorem status_of_conclude (runs : Runs (conclude selector containment) events (.value status)) :
    status = statusOf containment := by
  cases containment with
  | held fault cycles =>
      obtain ⟨_, rest, _, runsRest⟩ := Program.runs_call_iff.mp runs
      obtain ⟨_, same⟩ := Task.runs_result_iff.mp runsRest
      cases same
      rfl
  | _ =>
      obtain ⟨_, same⟩ := Task.runs_result_iff.mp runs
      cases same
      rfl

/-- How a plan is carried out: the log is opened, the body acts and is contained, and the status is
that of the containment. -/
theorem runs_execute_cases (runs : Runs (plan.execute patience) events (.value status)) :
    ∃ acting after rest stop containment, events =
        opened plan.request :: (acting ++ (after ++ rest)) ∧
      Runs (body plan.request patience) acting stop ∧
      Runs (ContainmentContext.contain
        ⟨plan.request.selector, plan.request.settings.timing.holdInterval, patience⟩ stop)
        after (.value containment) ∧
      status = statusOf containment := by
  obtain ⟨first, rest, containment, rfl, runsRun, runsConclude⟩ := Task.runs_of_bind_value runs
  obtain ⟨_, _, rfl, runsGuard⟩ := Program.runs_call_iff.mp runsRun
  change Runs (Program.bind (body plan.request patience) _) _ _ at runsGuard
  obtain ⟨acting, after, stop, rfl, runsBody, runsContain⟩ := Program.runs_of_bind runsGuard
  refine ⟨acting, after, rest, stop, containment, ?_, runsBody, runsContain, ?_⟩
  · simp [opened]
  · exact status_of_conclude runsConclude

section Command

variable {alliance : Alliance} {zone : Zone} {settings : String} {document : Option String}
  {maxRunSecs : Nat}

/-- The host's part of a run ends with what is asked for on the command line, under some settings,
or with an error that was printed. -/
theorem prepared_of_start {prepared : Plan}
    (runs : Runs (start (.run selector alliance zone settings document maxRunSecs)) events
      (.value prepared)) :
    prepared = .finished .invalid ∨
      ∃ chosen, prepared = .run ⟨⟨selector, alliance, chosen⟩, zone, .ofSecs maxRunSecs⟩ := by
  obtain ⟨first, second, stop, rfl, runsPrepare, runsRest⟩ := Program.runs_of_bind runs
  cases stop with
  | value plan =>
      obtain ⟨_, same⟩ := Task.runs_result_iff.mp runsRest
      cases same
      obtain ⟨_, _, chosen, _, _, runsPlan⟩ := Task.runs_of_bind_value runsPrepare
      obtain ⟨_, same⟩ := Task.runs_result_iff.mp runsPlan
      cases same
      exact .inr ⟨chosen, rfl⟩
  | error failure =>
      obtain ⟨_, _, _, runsEnd⟩ := Program.runs_call_iff.mp runsRest
      obtain ⟨_, same⟩ := Task.runs_result_iff.mp runsEnd
      cases same
      exact .inl rfl
  | _ =>
      obtain ⟨_, same⟩ := Program.runs_done_iff.mp runsRest
      cases same

/-- What the command line runs in a world is a plan with the replies of simulated robots. -/
theorem exists_runs_of_runCommand {world : World}
    (ended : (world.runCommand (.run selector alliance zone settings document maxRunSecs)
      patience).1 = .value status) :
    status = .invalid ∨ ∃ chosen events,
      Runs (RunPlan.execute ⟨⟨selector, alliance, chosen⟩, zone, .ofSecs maxRunSecs⟩ patience)
        events (.value status) ∧
      ∀ event ∈ events, FromSimulation event.request event.reply := by
  have runs := Program.runs_exec World.answer
    (start (.run selector alliance zone settings document maxRunSecs)) world
  unfold World.runCommand at ended
  unfold World.exec at ended
  split at ended
  case h_1 finished same =>
    rw [same] at runs
    cases ended
    rcases prepared_of_start runs with invalid | ⟨_, impossible⟩
    · cases invalid
      exact .inl rfl
    · cases impossible
  case h_2 plan prepared same =>
    rw [same] at runs
    rcases prepared_of_start runs with impossible | ⟨chosen, planned⟩
    · cases impossible
    · have executes :=
        Program.runs_exec World.answer (plan.execute patience) (prepared.launch plan)
      rw [ended] at executes
      cases planned
      exact .inr ⟨chosen, _, executes, Program.forall_events World.fromSimulation_answer _ _⟩
  all_goals cases ended

end Command

/-- A body that gave a value is a success, one that failed was held, and there is nothing else. -/
def ExitsBy (stop : Outcome Failure Unit) (status : ExitStatus) : Prop :=
  stop = .value () ∧ status = .success ∨ ∃ failure, stop.failure? = some failure ∧ status = .held

/-- What the status of a run tells of its body and of the dispatcher. -/
structure ExitTells (plan : RunPlan) (patience : Nat) (acting : List Event)
    (stop : Outcome Failure Unit) (status : ExitStatus) : Prop where
  exits : ExitsBy stop status
  /-- A run that comes to dispatch its steps is a success with any report, be it that of a completed
  or that of an aborted run. -/
  dispatched :
    (∃ contents channel configuration dispatching ended final,
      phases acting = startup plan.request contents channel ++ phases dispatching ∧
      Document.ofFile plan.request.settings.documentPath contents plan.request.selector =
        .ok configuration ∧
      Runs ((dispatchContext plan.request patience channel).run configuration .fresh) dispatching
        (ended, final) ∧
      (status = .success ↔ ∃ report, ended = .value report) ∧
      ∀ report, ended = .value report →
        (dispatchContext plan.request patience channel).Tells dispatching report) ∨
    status = .held ∧ ∃ contents channel, ∀ event ∈ phases acting,
      ∃ step ∈ startup plan.request contents channel, event.request = step.request

theorem exitsBy_of_protocol {context : ContainmentContext}
    (runs : Runs (body plan.request patience) acting stop)
    (given : ∀ event ∈ acting, Uninterrupted event.request event.reply)
    (protocol : context.Protocol stop events (.value containment)) :
    ExitsBy stop (statusOf containment) := by
  cases protocol with
  | completed => exact .inl ⟨rfl, rfl⟩
  | failed failed aftermath =>
      cases aftermath with
      | cancelled cancelled =>
          have other := fault_ne_cancellation_of_body runs given failed
          exact absurd cancelled other
      | held => exact .inr ⟨_, failed, rfl⟩

theorem ExitsBy.success_iff (exits : ExitsBy stop status) :
    status = .success ↔ stop = .value () := by
  rcases exits with ⟨rfl, rfl⟩ | ⟨failure, failed, rfl⟩
  · simp
  · have noValue : stop ≠ .value () := by
      rintro rfl
      cases failed
    simp [noValue]

/-- The dispatcher gives the body a value by giving it a report. -/
theorem bodyEnding_eq_value_iff {ended : Outcome RunError RunReport} :
    bodyEnding ended = .value () ↔ ∃ report, ended = .value report := by
  cases ended <;> simp [bodyEnding]

/-- A run of a simulated robot is a success with whatever the dispatcher reports, and is never
cancelled. -/
theorem exitTells_of_execute (runs : Runs (plan.execute patience) events (.value status))
    (simulated : ∀ event ∈ events, FromSimulation event.request event.reply) :
    ∃ acting rest stop, events = opened plan.request :: (acting ++ rest) ∧
      Runs (body plan.request patience) acting stop ∧
      ExitTells plan patience acting stop status := by
  obtain ⟨acting, after, rest, stop, containment, rfl, runsBody, runsContain, rfl⟩ :=
    runs_execute_cases runs
  rw [List.forall_mem_cons, List.forall_mem_append, List.forall_mem_append] at simulated
  obtain ⟨_, inBody, inContainment, _⟩ := simulated
  have calm : ∀ event ∈ after, Calm event.request event.reply :=
    fun event member => (inContainment event member).calm
  have uninterrupted : ∀ event ∈ acting, Uninterrupted event.request event.reply :=
    fun event member => (inBody event member).uninterrupted
  have protocol := (ContainmentContext.runs_contain_iff calm).mp runsContain
  have exits := exitsBy_of_protocol runsBody uninterrupted protocol
  refine ⟨acting, after ++ rest, stop, rfl, runsBody, { exits, dispatched := ?_ }⟩
  rcases dispatches_or_among runsBody with
    ⟨contents, channel, configuration, dispatching, ending, final, same, loaded, runsRun, rfl⟩ |
      ⟨noValue, among⟩
  · refine .inl ⟨contents, channel, configuration, dispatching, ending, final, same, loaded,
      runsRun, ?_⟩
    constructor
    · rw [exits.success_iff, bodyEnding_eq_value_iff]
    · rintro report rfl
      exact DispatchContext.tells_of_run runsRun
  · refine .inr ⟨?_, among⟩
    rcases exits with ⟨gave, _⟩ | ⟨_, _, held⟩
    · exact absurd gave (noValue ())
    · exact held

/-- A simulated robot on a desk: every file reads as the same document, and nothing but pauses and
calls to the robot takes time. -/
structure Desk where
  robot : SimulatedRobot
  document : String
  clock : Duration

def Desk.answer : (request : Call) → Desk → request.Reply × Desk
  | .robot call, desk =>
      let (reply, robot, _) := desk.robot.answer desk.clock Sink.unlimited call
      (reply, { desk with robot, clock := desk.clock + .ofMicros 1 })
  | .host (.pause duration), desk => ((), { desk with clock := desk.clock + duration })
  | .host (.readText _), desk => (.ok desk.document, desk)
  | .host call, desk => (obligingHost desk.clock call, desk)

theorem Desk.fromSimulation_answer (request : Call) (desk : Desk) :
    FromSimulation request (desk.answer request).1 := by
  cases request with
  | host call => trivial
  | robot call => exact ⟨_, _, _, rfl⟩

def briefPlan : RunPlan where
  request := ⟨"TEST", .red, .initial⟩
  zone := .center
  period := .ofSecs 1

/-- A desk with a document of two steps, of which the first outlasts the run period. -/
def briefDesk : Desk where
  robot := SimulatedRobot.launch .zero briefPlan.request.settings.drive.channel briefPlan.period
    briefPlan.zone
  document := "<RobotAction><OpMode id='TEST'><parameters/><actions><sleep ms='1500'/>" ++
    "<sleep ms='0'/></actions></OpMode></RobotAction>"
  clock := .zero

theorem completions_phases {context : DispatchContext} :
    context.completions (phases events) = context.completions events := by
  rw [DispatchContext.completions, DispatchContext.completions, phases, List.countP_filter]
  congr 1
  funext event
  obtain ⟨call | call, reply⟩ := event
  · exact Bool.and_true _
  · simp

def succeeds : Outcome Empty ExitStatus → Bool
  | .value .success => true
  | _ => false

theorem eq_of_succeeds {ended : Outcome Empty ExitStatus} (succeeded : succeeds ended = true) :
    ended = .value .success := by
  unfold succeeds at succeeded
  split at succeeded
  · rfl
  · cases succeeded

/-- A run that is cut off by the end of its period exits like one that is completed. -/
theorem exitTells_of_execute_brief :
    ∃ acting rest contents channel configuration dispatching report final,
      Runs (briefPlan.execute 9) (opened briefPlan.request :: (acting ++ rest)) (.value .success) ∧
      phases acting = startup briefPlan.request contents channel ++ phases dispatching ∧
      Runs ((dispatchContext briefPlan.request 9 channel).run configuration .fresh) dispatching
        (.value report, final) ∧
      report.state = .aborted ∧ false ∈ polls dispatching := by
  have runs := Program.runs_exec Desk.answer (briefPlan.execute 9) briefDesk
  have simulated :=
    Program.forall_events Desk.fromSimulation_answer (briefPlan.execute 9) briefDesk
  have success : ((briefPlan.execute 9).exec Desk.answer briefDesk).1 = .value .success :=
    eq_of_succeeds (by decide +kernel)
  have unshown (channel : ChannelId) : (dispatchContext briefPlan.request 9 channel).completions
      ((briefPlan.execute 9).events Desk.answer briefDesk) = 0 := by
    change DispatchContext.completions (dispatchContext briefPlan.request 9 ⟨0⟩) _ = 0
    decide +kernel
  rw [success] at runs
  obtain ⟨acting, rest, stop, same, _, tells⟩ := exitTells_of_execute runs simulated
  rw [same] at runs unshown
  rcases tells.dispatched with
    ⟨contents, channel, configuration, dispatching, ended, final, course, _, runsRun, gives,
      told⟩ | ⟨impossible, _⟩
  · obtain ⟨report, rfl⟩ := gives.mp rfl
    have notMore := unshown channel
    refine ⟨acting, rest, contents, channel, configuration, dispatching, report, final, runs,
      course, runsRun, ?_⟩
    rcases told report rfl with ⟨_, shown⟩ | ⟨aborted, _, lost⟩
    · rw [← completions_phases] at shown notMore
      rw [← List.singleton_append, phases_append, phases_append, course] at notMore
      simp only [DispatchContext.completions, List.countP_append] at shown notMore
      omega
    · exact ⟨aborted, lost⟩
  · cases impossible

end CommandLine

end RobotRoutine
