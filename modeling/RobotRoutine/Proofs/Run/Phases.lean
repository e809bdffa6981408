import RobotRoutine.Proofs.Run.MotorSafety
import RobotRoutine.Proofs.Run.Protocol
import RobotRoutine.Proofs.Run.Startup
import RobotRoutine.Proofs.Run.VisitEffects

/-!
The order of the phases of a whole run.

Nothing is asked of the hardware before there is something to run, and no power is commanded before
the start.  Power is commanded by the dispatcher alone, in pairs of which the second is zero; so if
the body is left, by whatever it may be, the last power that was commanded is zero, and the
containment commands none.
-/

namespace RobotRoutine

open Program (Runs Event)

def Call.IsHardware : Call → Prop
  | .robot (.findChannel _) => True
  | .robot (.setPower _ _) => True
  | .robot (.setMode _ _) => True
  | .robot (.readSensor _) => True
  | _ => False

/-- A call that neither touches the hardware nor waits for the start. -/
def Call.IsIdle (call : Call) : Prop := ¬ call.IsHardware ∧ call ≠ .robot .waitForStart

theorem powerCommands_phases (events : List Event) :
    powerCommands (phases events) = powerCommands events :=
  filterMap_phases (fun _ _ => rfl) events

/-- The phases tell whether a run is idle, since the other calls are for the host. -/
theorem idle_of_phases {events : List Event}
    (idle : ∀ event ∈ phases events, event.request.IsIdle) :
    ∀ event ∈ events, event.request.IsIdle := by
  intro event member
  obtain ⟨call | call, reply⟩ := event
  · exact idle _ (List.mem_filter.mpr ⟨member, rfl⟩)
  · simp [Call.IsIdle, Call.IsHardware]

theorem powerCommands_eq_nil_of_idle {events : List Event}
    (idle : ∀ event ∈ events, event.request.IsIdle) : powerCommands events = [] := by
  apply powerCommands_eq_nil
  intro event member
  have isIdle := (idle event member).1
  unfold Call.LeavesPower
  split
  case h_1 same =>
    rw [same] at isIdle
    exact isIdle trivial
  case h_2 => trivial

/-- An event that is not among the first ones has all of them before it. -/
theorem exists_eq_append_of_not_mem {first second before later : List Event} {event : Event}
    (same : first ++ second = before ++ event :: later) (other : event ∉ first) :
    ∃ rest, before = first ++ rest := by
  rcases List.append_eq_append_iff.mp same with ⟨rest, behind, _⟩ | ⟨rest, rfl, behind⟩
  · exact ⟨rest, behind⟩
  · cases rest with
    | nil => exact ⟨[], by simp⟩
    | cons head rest =>
        injection behind with here
        subst here
        exact absurd (by simp) other

theorem exists_eq_append_cons_of_not_mem {first second before later : List Event} {event : Event}
    (same : first ++ second = before ++ event :: later) (other : event ∉ second) :
    ∃ rest, first = before ++ event :: rest := by
  rcases List.append_eq_append_iff.mp same with ⟨rest, _, rfl⟩ | ⟨rest, inFirst, behind⟩
  · exact absurd (by simp) other
  · cases rest with
    | nil =>
        rw [List.nil_append] at behind
        subst behind
        exact absurd (by simp) other
    | cons head rest =>
        injection behind with here
        subst here
        exact ⟨rest, inFirst⟩

namespace ContainmentContext

variable {context : ContainmentContext} {stop : Outcome Failure Unit} {after : List Event}
  {outcome : Outcome Empty Containment}

theorem idle_turn {placard : Placard} {answer : Answer Unit} {stop : Bool} :
    ∀ event ∈ context.turn placard answer stop, event.request.IsIdle := by
  simp [turn, Call.IsIdle, Call.IsHardware]

/-- The containment itself leaves the robot alone. -/
theorem idle_of_protocol (protocol : context.Protocol stop after outcome) :
    ∀ event ∈ after, event.request.IsIdle := by
  have idleClosing (flushed : Answer Unit) : ∀ event ∈ closing flushed, event.request.IsIdle := by
    simp [closing, Call.IsIdle, Call.IsHardware]
  have idleRecord (placard : Placard) : placard.recorded.request.IsIdle := by
    simp [Placard.recorded, Call.IsIdle, Call.IsHardware]
  cases protocol with
  | completed => exact idleClosing _
  | failed _ aftermath =>
      cases aftermath with
      | cancelled =>
          refine List.forall_mem_cons.mpr ⟨?_, idleClosing _⟩
          simp [interrupted, Call.IsIdle, Call.IsHardware]
      | held =>
          refine List.forall_mem_cons.mpr ⟨idleRecord _, ?_⟩
          rw [List.forall_mem_append, List.forall_mem_append]
          exact ⟨⟨forall_turns fun _ _ => idle_turn, idle_turn⟩, idleClosing _⟩
      | holding =>
          exact List.forall_mem_cons.mpr ⟨idleRecord _, forall_turns fun _ _ => idle_turn⟩
  | halted => simp
  | waiting => simp

end ContainmentContext

namespace DispatchContext

/-- A dispatcher leaves it to others to flush the display. -/
theorem ne_flushDisplay_of_run {context : DispatchContext} {configuration : Configuration}
    {before final : Progress} {events : List Event} {outcome : Outcome RunError RunReport}
    (runs : Runs (context.run configuration before) events (outcome, final))
    (ended : outcome ≠ .waiting) : ∀ event ∈ events, event.request ≠ .robot .flushDisplay := by
  rcases visits_run_cases runs ended with
    ⟨rfl, _⟩ | ⟨visits, closing, stop, middle, rfl, made, _, concludes⟩
  · simp [opening, notice]
  · have acts : ∀ event ∈ eventsOf visits, event.request ≠ .robot .flushDisplay := by
      intro event member same
      have made := calls_of_visits made event member
      rw [same] at made
      simp [Call.InCommand, Call.InLoop] at made
    have closes : ∀ event ∈ closing, event.request ≠ .robot .flushDisplay := by
      cases concludes with
      | finished completion => cases completion <;> simp [notice]
      | _ => simp [notice]
    simp only [opening, notice, List.forall_mem_append, List.forall_mem_cons]
    exact ⟨⟨by simp, by simp, by simp⟩, by simp, acts, closes⟩

end DispatchContext

namespace Autonomous

variable {request : AutonomousRequest} {patience : Nat} {events acting after : List Event}
  {stop : Outcome Failure Unit} {outcome : Outcome Empty Containment}

/-- The only power of a start-up is zero, and it does not flush the display. -/
theorem zero_of_startup {contents : Except SystemError String} {channel : ChannelId} :
    ∀ step ∈ startup request contents channel, step.request ≠ .robot .flushDisplay ∧
      ∀ motor power, step.request = .robot (.setPower motor power) → power = Binary64.zero := by
  simp [startup, driveSteps, announceSteps]

theorem ne_waiting_of_bodyEnding {stopped : Outcome RunError RunReport}
    (ended : bodyEnding stopped ≠ .waiting) : stopped ≠ .waiting := by
  rintro rfl
  exact ended rfl

/-- A body comes as far as the dispatcher, or makes only calls of the start-up. -/
theorem dispatches_or_among (runs : Runs (body request patience) acting stop) :
    (∃ contents channel configuration dispatching stopped final,
      phases acting = startup request contents channel ++ phases dispatching ∧
      Document.ofFile request.settings.documentPath contents request.selector =
        .ok configuration ∧
      Runs ((dispatchContext request patience channel).run configuration .fresh) dispatching
        (stopped, final) ∧
      stop = bodyEnding stopped) ∨
    (∀ u, stop ≠ .value u) ∧ ∃ contents channel, ∀ event ∈ phases acting,
      ∃ step ∈ startup request contents channel, event.request = step.request := by
  by_cases unknown : request.alliance = .unknown
  · obtain ⟨none, refused⟩ := refused_of_unknown unknown runs
    refine .inr ⟨none, .ok "", ⟨0⟩, ?_⟩
    rw [refused]
    simp
  · obtain ⟨contents, channel, proceeds⟩ := exists_proceeds_of_body unknown runs
    rcases proceeds.through_or_among with ⟨rest, same, dispatches⟩ | ⟨none, among⟩
    · obtain ⟨configuration, dispatching, stopped, final, loaded, runsRun, rfl, ends⟩ := dispatches
      exact .inl ⟨contents, channel, configuration, dispatching, stopped, final, same, loaded,
        runsRun, ends⟩
    · exact .inr ⟨none, contents, channel, among⟩

theorem ne_flushDisplay_of_body (runs : Runs (body request patience) acting stop)
    (ended : stop ≠ .waiting) : ∀ event ∈ acting, event.request ≠ .robot .flushDisplay := by
  have inPhases : ∀ event ∈ phases acting, event.request ≠ .robot .flushDisplay := by
    rcases dispatches_or_among runs with
      ⟨contents, channel, _, dispatching, stopped, _, same, _, runsRun, rfl⟩ | ⟨_, _, _, among⟩
    · rw [same, List.forall_mem_append]
      refine ⟨fun step isStep => (zero_of_startup step isStep).1, ?_⟩
      intro event member
      have notWaiting := ne_waiting_of_bodyEnding ended
      refine DispatchContext.ne_flushDisplay_of_run runsRun notWaiting event ?_
      exact (List.mem_filter.mp member).1
    · intro event member
      obtain ⟨step, isStep, same⟩ := among event member
      rw [same]
      exact (zero_of_startup step isStep).1
  intro event member flushes
  refine inPhases event (List.mem_filter.mpr ⟨member, ?_⟩) flushes
  rw [flushes]
  rfl

/-- As long as there is no start, no power but zero is commanded. -/
theorem zero_of_among {contents : Except SystemError String} {channel : ChannelId}
    (among : ∀ event ∈ events, ∃ step ∈ startup request contents channel,
      event.request = step.request) {motor : ChannelId} {power : Binary64} {answer : Answer Unit}
    (commanded : ⟨.robot (.setPower motor power), answer⟩ ∈ events) : power = Binary64.zero := by
  obtain ⟨step, isStep, same⟩ := among _ commanded
  exact (zero_of_startup step isStep).2 motor power same.symm

theorem mem_of_mem_powerCommands {motor : ChannelId} {power : Binary64}
    (commanded : (motor, power) ∈ powerCommands events) :
    ∃ answer, ⟨.robot (.setPower motor power), answer⟩ ∈ events := by
  obtain ⟨event, member, same⟩ := List.mem_filterMap.mp commanded
  unfold powerCommand? at same
  split at same
  case h_1 answer =>
    cases same
    exact ⟨answer, member⟩
  case h_2 => cases same

/-- What was last commanded before a body was left is zero. -/
theorem zero_of_body (runs : Runs (body request patience) acting stop) (ended : stop ≠ .waiting)
    {motor : ChannelId} {power : Binary64}
    (last : (powerCommands acting).getLast? = some (motor, power)) : power = Binary64.zero := by
  rw [← powerCommands_phases] at last
  rcases dispatches_or_among runs with
    ⟨contents, channel, _, dispatching, stopped, _, same, _, runsRun, rfl⟩ | ⟨_, _, _, among⟩
  · obtain ⟨directions, pairs⟩ :=
      DispatchContext.exists_directions_of_run runsRun (ne_waiting_of_bodyEnding ended)
    have prepared : powerCommands (startup request contents channel) = [(channel, Binary64.zero)] :=
      rfl
    rw [same, powerCommands_append, powerCommands_phases, pairs, prepared, List.getLast?_append]
      at last
    by_cases none : directions = []
    · rw [none] at last
      cases last
      rfl
    · rw [DispatchContext.getLast?_flatMap_drivePower none] at last
      cases last
      rfl
  · obtain ⟨answer, member⟩ := mem_of_mem_powerCommands (List.mem_of_getLast? last)
    exact zero_of_among among member

/-- A power but zero that is commanded in a body has the start behind it. -/
theorem started_of_body (runs : Runs (body request patience) acting stop)
    {before later : List Event} {motor : ChannelId} {power : Binary64} {answer : Answer Unit}
    (split : acting = before ++ ⟨.robot (.setPower motor power), answer⟩ :: later)
    (powered : power ≠ Binary64.zero) : ⟨.robot .waitForStart, Answer.ok ()⟩ ∈ before := by
  have splitPhases : phases acting =
      phases before ++ ⟨.robot (.setPower motor power), answer⟩ :: phases later := by
    rw [split, phases_append, phases_cons_of_isPhase rfl]
  rcases dispatches_or_among runs with ⟨contents, channel, _, _, _, _, same, _⟩ | ⟨_, _, _, among⟩
  · rw [same] at splitPhases
    have other : ⟨.robot (.setPower motor power), answer⟩ ∉ startup request contents channel :=
      fun member => powered ((zero_of_startup _ member).2 motor power rfl)
    obtain ⟨rest, startedBefore⟩ := exists_eq_append_of_not_mem splitPhases other
    have started : ⟨.robot .waitForStart, Answer.ok ()⟩ ∈ phases before := by
      rw [startedBefore]
      simp [startup]
    exact (List.mem_filter.mp started).1
  · have member : ⟨.robot (.setPower motor power), answer⟩ ∈ phases acting := by
      rw [splitPhases]
      simp
    exact absurd (zero_of_among among member) powered

/-- A body that has nothing to run leaves the robot alone. -/
theorem idle_of_body (runs : Runs (body request patience) acting stop)
    (nothing : request.alliance = .unknown ∨ ∀ contents configuration,
      ⟨.host (.readText request.settings.documentPath), contents⟩ ∈ acting →
      Document.ofFile request.settings.documentPath contents request.selector ≠
        .ok configuration) :
    ∀ event ∈ acting, event.request.IsIdle := by
  apply idle_of_phases
  by_cases unknown : request.alliance = .unknown
  · rw [(refused_of_unknown unknown runs).2]
    simp
  · obtain ⟨contents, channel, proceeds⟩ := exists_proceeds_of_body unknown runs
    generalize same : phases acting = made at proceeds
    cases proceeds with
    | next succeeds _ =>
        obtain ⟨configuration, loaded⟩ := succeeds
        have member :
            ⟨.host (.readText request.settings.documentPath), contents⟩ ∈ phases acting := by
          rw [same]
          simp
        have unloaded := nothing.resolve_left unknown contents configuration
        exact absurd loaded (unloaded (List.mem_filter.mp member).1)
    | broken fails =>
        rw [List.forall_mem_singleton]
        simp [Call.IsIdle, Call.IsHardware]

def opened (request : AutonomousRequest) : Event :=
  ⟨.host (.openLog request.settings.logDirectory request.selector), ()⟩

/-- What a run does in its body and in the containment is in the order of its phases. -/
structure InOrder (request : AutonomousRequest) (patience : Nat) (acting after : List Event)
    (stop : Outcome Failure Unit) (outcome : Outcome Empty Containment) : Prop where
  refused : request.alliance = .unknown → (∀ u, stop ≠ .value u) ∧ phases acting = []
  order : request.alliance ≠ .unknown → ∃ contents channel,
    Proceeds request.selector (∀ u, stop ≠ .value u)
      (Dispatches request patience contents channel stop) (startup request contents channel)
      (phases acting)
  /-- With an alliance that is unknown or a document that cannot be loaded, nothing is done. -/
  idle : (request.alliance = .unknown ∨ ∀ contents configuration,
      ⟨.host (.readText request.settings.documentPath), contents⟩ ∈ acting →
      Document.ofFile request.settings.documentPath contents request.selector ≠
        .ok configuration) →
    ∀ event ∈ acting ++ after, event.request.IsIdle
  /-- There is no power but zero before the start. -/
  started : ∀ before motor power answer later,
    acting ++ after = before ++ ⟨.robot (.setPower motor power), answer⟩ :: later →
    power ≠ Binary64.zero → ⟨.robot .waitForStart, Answer.ok ()⟩ ∈ before
  /-- At every event of the containment the last power that was commanded is zero. -/
  still : ∀ before event later motor power, after = before ++ event :: later →
    (powerCommands (acting ++ before)).getLast? = some (motor, power) → power = Binary64.zero
  flushed : ∀ containment, outcome = .value containment →
    ∃ before answer, acting ++ after = before ++ [⟨.robot .flushDisplay, answer⟩] ∧
      ∀ event ∈ before, event.request ≠ .robot .flushDisplay

theorem ne_waiting_of_protocol {context : ContainmentContext} {event : Event} {rest : List Event}
    (protocol : context.Protocol stop (event :: rest) outcome) : stop ≠ .waiting := by
  rintro rfl
  cases protocol with
  | failed impossible => cases impossible

theorem inOrder_of_protocol {context : ContainmentContext}
    (runs : Runs (body request patience) acting stop)
    (protocol : context.Protocol stop after outcome) :
    InOrder request patience acting after stop outcome where
  refused unknown := refused_of_unknown unknown runs
  order known := exists_proceeds_of_body known runs
  idle nothing := List.forall_mem_append.mpr
    ⟨idle_of_body runs nothing, ContainmentContext.idle_of_protocol protocol⟩
  started := by
    intro before motor power answer later same powered
    have other : ⟨.robot (.setPower motor power), answer⟩ ∉ after := fun member =>
      (ContainmentContext.idle_of_protocol protocol _ member).1 trivial
    obtain ⟨rest, inBody⟩ := exists_eq_append_cons_of_not_mem same other
    exact started_of_body runs inBody powered
  still := by
    rintro before event later motor power rfl last
    have quiet : powerCommands before = [] := by
      apply powerCommands_eq_nil_of_idle
      intro other member
      exact ContainmentContext.idle_of_protocol protocol other (List.mem_append_left _ member)
    rw [powerCommands_append, quiet, List.append_nil] at last
    refine zero_of_body runs ?_ last
    cases before with
    | nil => exact ne_waiting_of_protocol protocol
    | cons _ _ => exact ne_waiting_of_protocol protocol
  flushed := by
    rintro containment rfl
    have ended : stop ≠ .waiting := by
      rintro rfl
      cases protocol with
      | failed impossible => cases impossible
    obtain ⟨before, flushed, rfl, keeps⟩ := ContainmentContext.exists_closing_of_protocol protocol
    refine ⟨acting ++ (before ++ [⟨.host .closeLog, ()⟩]), flushed, by
      simp [ContainmentContext.closing], ?_⟩
    rw [List.forall_mem_append, List.forall_mem_append]
    exact ⟨ne_flushDisplay_of_body runs ended, fun event member => (keeps event member).2, by simp⟩

/-- Every run opens its log, acts and is contained, and if nobody crashes in the containment, all
of it is in order. -/
theorem run_inOrder (runs : Runs (run request patience) events outcome) :
    ∃ acting after stop, events = opened request :: (acting ++ after) ∧
      Runs (body request patience) acting stop ∧
      ((∀ event ∈ after, Calm event.request event.reply) →
        InOrder request patience acting after stop outcome) := by
  obtain ⟨_, _, rfl, runsGuard⟩ := Program.runs_call_iff.mp runs
  change Runs (Program.bind (body request patience) _) _ _ at runsGuard
  obtain ⟨acting, after, stop, rfl, runsBody, runsContain⟩ := Program.runs_of_bind runsGuard
  refine ⟨acting, after, stop, rfl, runsBody, ?_⟩
  intro calm
  exact inOrder_of_protocol runsBody ((ContainmentContext.runs_contain_iff calm).mp runsContain)

def sampleRequest : AutonomousRequest where
  selector := "A"
  alliance := .red
  settings := .initial

/-- A world with a document of one drive, in which the sensor fails whenever it is read. -/
def failingSensor : (request : Call) → Duration → request.Reply × Duration
  | .robot (.readSensor _), clock => (.failed (.plain "no bus"), clock)
  | .host (.readText _), clock =>
      (.ok ("<RobotAction><OpMode id='A'><parameters/><actions><forward_by_time seconds='9'/>" ++
        "</actions></OpMode></RobotAction>"), clock)
  | request, clock => obliging .left request clock

theorem calm_failingSensor (request : Call) (clock : Duration) :
    Calm request (failingSensor request clock).1 := by
  rcases request with call | call
  · cases call <;> trivial
  · cases call <;> trivial

theorem run_inOrder_of_failure :
    ∃ acting after stop,
      (run sampleRequest 9).events failingSensor .zero =
        opened sampleRequest :: (acting ++ after) ∧
      InOrder sampleRequest 9 acting after stop
        ((run sampleRequest 9).exec failingSensor .zero).1 ∧
      (powerCommands (acting ++ after)).length = 3 := by
  have runs := Program.runs_exec failingSensor (run sampleRequest 9) .zero
  have calm := Program.forall_events calm_failingSensor (run sampleRequest 9) .zero
  obtain ⟨acting, after, stop, same, _, inOrder⟩ := run_inOrder runs
  rw [same, List.forall_mem_cons, List.forall_mem_append] at calm
  have powers : (powerCommands ((run sampleRequest 9).events failingSensor .zero)).length = 3 := by
    decide +kernel
  rw [same] at powers
  exact ⟨acting, after, stop, same, inOrder calm.2.2, powers⟩

end Autonomous

end RobotRoutine
