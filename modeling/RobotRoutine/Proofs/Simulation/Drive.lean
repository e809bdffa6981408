import RobotRoutine.Proofs.CommandLine.ExitStatus
import RobotRoutine.Proofs.Number.FullPower
import RobotRoutine.Proofs.Run.Calls
import RobotRoutine.Proofs.Simulation.Motors

/-!
Runs on simulated hardware.

Settings that were loaded have a power that is no more than full power and a default duration that
can be timed, and the hardware of a simulated run has just the motor that they name.  So the body of
such a run finds its motor first, asks nothing of any other one, and is never failed by the
hardware; and once a run is over, the motor stands still in the mode that the start-up gave it.
-/

namespace RobotRoutine

open Program (Runs Event)
open CommandLine (Desk)

/-! Settings that were loaded. -/

theorem Settings.isPower_of_validate {settings : Settings} (valid : settings.validate = .ok ()) :
    settings.drive.power.IsPower := by
  unfold validate at valid
  split at valid
  · cases valid
  · split at valid
    · cases valid
    case isFalse inRange =>
      rw [Bool.not_eq_true', Bool.not_eq_false, Bool.and_eq_true] at inRange
      exact ⟨inRange.1, inRange.2⟩

theorem SettingsFile.validate_of_validated {settings loaded : Settings}
    (valid : validated settings = .ok loaded) : loaded.validate = .ok () := by
  unfold validated at valid
  split at valid
  case h_1 accepted =>
    cases valid
    exact accepted
  case h_2 => cases valid

theorem Task.eq_ok_of_runs_ofExcept {ε α : Type} {result : Except ε α} {events : List Event} {a : α}
    (runs : Runs (ofExcept result) events (.value a)) : result = .ok a := by
  cases result with
  | ok value =>
      obtain ⟨_, same⟩ := Task.runs_result_iff.mp runs
      cases same
      rfl
  | error error =>
      obtain ⟨_, same⟩ := Program.runs_done_iff.mp runs
      cases same

/-- Whatever the host answers, settings that are loaded are valid. -/
theorem SettingsFile.validate_of_load {path : String} {settings : Settings} {events : List Event}
    (loaded : Runs (load path) events (.value settings)) : settings.validate = .ok () := by
  obtain ⟨_, _, present, rfl, _, runsRest⟩ := Task.runs_of_bind_value loaded
  cases present with
  | true =>
      rw [if_pos rfl] at runsRest
      obtain ⟨_, _, text, rfl, _, runsParse⟩ := Task.runs_of_bind_value runsRest
      have parsed := Task.eq_ok_of_runs_ofExcept runsParse
      unfold parse at parsed
      split at parsed
      · exact validate_of_validated parsed
      · cases parsed
  | false =>
      rw [if_neg Bool.false_ne_true] at runsRest
      exact validate_of_validated (Task.eq_ok_of_runs_ofExcept runsRest)

theorem CommandLine.validate_of_loadFor {path : String} {document : Option String}
    {settings : Settings} {events : List Event}
    (loaded : Runs (loadFor path document) events (.value settings)) :
    settings.validate = .ok () := by
  obtain ⟨reading, rest, base, rfl, runsLoad, runsEnd⟩ := Task.runs_of_bind_value loaded
  obtain ⟨rfl, same⟩ := Task.runs_result_iff.mp runsEnd
  cases same
  have valid : base.validate = .ok () := SettingsFile.validate_of_load runsLoad
  exact valid

/-- A command line that has made a run of itself has loaded its settings. -/
theorem CommandLine.validate_of_start {selector settingsPath : String} {alliance : Alliance}
    {zone : Zone} {document : Option String} {maxRunSecs : Nat} {plan : RunPlan}
    {events : List Event}
    (runs : Runs (start (.run selector alliance zone settingsPath document maxRunSecs)) events
      (.value (.run plan))) :
    plan.request.settings.validate = .ok () := by
  obtain ⟨_, _, stop, rfl, runsPrepare, runsRest⟩ := Program.runs_of_bind runs
  cases stop with
  | value prepared =>
      obtain ⟨_, same⟩ := Task.runs_result_iff.mp runsRest
      cases same
      obtain ⟨_, _, chosen, rfl, runsLoad, runsPlan⟩ := Task.runs_of_bind_value runsPrepare
      obtain ⟨_, same⟩ := Task.runs_result_iff.mp runsPlan
      cases same
      exact validate_of_loadFor runsLoad
  | error failure =>
      obtain ⟨_, _, _, runsEnd⟩ := Program.runs_call_iff.mp runsRest
      obtain ⟨_, same⟩ := Task.runs_result_iff.mp runsEnd
      cases same
  | _ =>
      obtain ⟨_, same⟩ := Program.runs_done_iff.mp runsRest
      cases same

theorem Program.Keeps.restrict {α : Type} {replies fewer : (request : Call) → request.Reply → Prop}
    {calls : Call → Prop} {results : α → Prop} {program : Program α}
    (keeps : program.Keeps replies calls results)
    (given : ∀ request reply, fewer request reply → replies request reply) :
    program.Keeps fewer calls results := by
  induction program with
  | done a => exact keeps
  | call request next inductionHypothesis =>
      refine ⟨keeps.1, ?_⟩
      intro reply isGiven
      exact inductionHypothesis reply (keeps.2 reply (given request reply isGiven))

/-- The calls of a run whose motor is the first one. -/
def DriveSettings.Asks (drive : DriveSettings) : Call → Prop
  | .robot (.findChannel name) => name = drive.channel
  | .robot (.setPower channel power) => channel = ⟨0⟩ ∧
      (power = Binary64.zero ∨ ∃ direction : Direction, power = direction.power drive.power)
  | .robot (.setMode channel _) => channel = ⟨0⟩
  | .robot (.readSensor channel) => channel = ⟨0⟩
  | _ => True

/-- The settings are not to blame for the ending of a task, and its value is one of these. -/
def Outcome.Sound {α : Type} (values : α → Prop) : Outcome Failure α → Prop
  | .value a => values a
  | .error failure =>
      ∀ command text, failure ≠ .run (.invalidValue command "default_duration_secs" text)
  | _ => True

namespace Task

variable {α β : Type} {drive : DriveSettings} {values : α → Prop} {others : β → Prop}

/-- With a motor that obeys, a task asks nothing of another one and comes to a sound ending. -/
def Drives (drive : DriveSettings) (values : α → Prop) (task : Task Failure α) : Prop :=
  Program.Keeps (Obeys drive.channel) drive.Asks (Outcome.Sound values) task

theorem drives_result {a : α} (isValue : values a) : Drives drive values (result a) := isValue

theorem drives_bind {task : Task Failure α} {next : α → Task Failure β}
    (drives : task.Drives drive values)
    (drivesNext : ∀ a, values a → (next a).Drives drive others) :
    (task.bind next).Drives drive others := by
  refine Program.Keeps.bind drives ?_
  intro stop sound
  cases stop with
  | value a => exact drivesNext a sound
  | _ => exact sound

theorem drives_host {request : HostCall} :
    (ofProgram (Program.host request)).Drives drive fun _ => True :=
  ⟨trivial, fun _ _ => trivial⟩

theorem drives_findChannel {toError : Failure → Failure} :
    (findChannel toError drive.channel).Drives drive (· = ⟨0⟩) := by
  refine ⟨rfl, ?_⟩
  intro answer obeys
  obtain rfl := obeys rfl
  exact drives_result rfl

theorem drives_setPower {channel : ChannelId} {power : Binary64}
    (asked : drive.Asks (.robot (.setPower channel power))) :
    (setPower id channel power).Drives drive fun _ => True := by
  refine ⟨asked, ?_⟩
  intro answer obeys
  obtain rfl := obeys asked.1
  trivial

theorem drives_setMode {channel : ChannelId} {mode : MotorMode} (first : channel = ⟨0⟩) :
    (setMode id channel mode).Drives drive fun _ => True := by
  refine ⟨first, ?_⟩
  intro answer obeys
  obtain rfl := obeys first
  trivial

end Task

namespace Autonomous

variable {request : AutonomousRequest} {patience : Nat} {drive : DriveSettings}

theorem drives_loadConfiguration (request : AutonomousRequest) :
    (loadConfiguration request).Drives drive fun _ => True := by
  refine ⟨trivial, ?_⟩
  intro contents _
  change (Task.ofExcept (Except.mapError _ (Document.ofFile _ contents _))).Drives drive _
  cases Document.ofFile request.settings.documentPath contents request.selector with
  | ok configuration => exact Task.drives_result trivial
  | error error => exact fun _ _ => nofun

theorem drives_initializeDrive (drive : DriveSettings) :
    (initializeDrive drive).Drives drive (· = ⟨0⟩) := by
  refine Task.drives_bind Task.drives_findChannel fun channel first => ?_
  refine Task.drives_bind (Task.drives_setPower ⟨first, .inl rfl⟩) fun _ _ => ?_
  refine Task.drives_bind (Task.drives_setMode first) fun _ _ => ?_
  refine Task.drives_bind (Task.drives_setMode first) fun _ _ => ?_
  exact Task.drives_result first

theorem drives_announce (phase : String) : (announce phase).Drives drive fun _ => True := by
  have shown : (Task.addItem autonomousTag phase).Drives drive fun _ => True := by
    refine ⟨trivial, ?_⟩
    rintro (_ | _) _ <;> trivial
  have refreshed : (Task.refresh id).Drives drive fun _ => True := by
    refine ⟨trivial, ?_⟩
    intro answer obeys
    cases answer with
    | failed failure => exact fun command text => obeys failure rfl _
    | _ => trivial
  exact Task.drives_bind shown fun _ _ => Task.drives_bind refreshed fun _ _ => Task.drives_host

theorem drives_dispatch {context : DispatchContext} (configuration : Configuration)
    (first : context.driveChannel = ⟨0⟩)
    (timed : ∃ duration, context.drive.defaultDuration = .ok duration) :
    (dispatch context configuration).Drives context.drive fun _ => True := by
  have asks (call : Call) (makes : context.Makes call) : context.drive.Asks call := by
    cases call with
    | robot call =>
        cases call with
        | setPower channel power => exact ⟨makes.1.trans first, makes.2⟩
        | readSensor channel => exact makes.trans first
        | findChannel name => exact makes.elim
        | setMode channel mode => exact makes.elim
        | _ => trivial
    | host call => trivial
  have within := (DispatchContext.within_run context configuration .fresh).restrict
    fun (request : Call) (reply : request.Reply) (_ : Obeys context.drive.channel request reply) =>
      (trivial : anyReply request reply)
  have reports : Program.Keeps (Obeys context.drive.channel) context.drive.Asks
      context.runEffects.Allows
      (Program.bind (context.run configuration .fresh) fun ending => .done ending.1) :=
    (within.mono asks fun _ => id).bind fun _ allowed => allowed
  refine reports.bind ?_
  intro stop allowed
  cases stop with
  | error error =>
      rintro command text ⟨⟩
      obtain ⟨duration, isTimed⟩ := timed
      obtain ⟨refusal, refused⟩ := allowed command text rfl
      rw [isTimed] at refused
      cases refused
  | _ => trivial

/-- The body of a run finds its motor, asks nothing of another one and is not ended by its
settings. -/
theorem drives_body
    (timed : ∃ duration, request.settings.drive.defaultDuration = .ok duration) :
    (body request patience).Drives request.settings.drive fun _ => True := by
  have checked : (Task.ofExcept (checkAlliance request.alliance)).Drives request.settings.drive
      fun _ => True := by
    cases request.alliance with
    | unknown => exact fun _ _ => nofun
    | _ => exact Task.drives_result trivial
  have waits : (Task.waitForStart id).Drives request.settings.drive fun _ => True := by
    refine ⟨trivial, ?_⟩
    rintro answer rfl
    trivial
  refine Task.drives_bind Task.drives_host fun _ _ => ?_
  refine Task.drives_bind checked fun _ _ => ?_
  refine Task.drives_bind (drives_loadConfiguration request) fun configuration _ => ?_
  refine Task.drives_bind Task.drives_host fun _ _ => ?_
  refine Task.drives_bind Task.drives_host fun _ _ => ?_
  refine Task.drives_bind (drives_initializeDrive _) fun channel first => ?_
  refine Task.drives_bind (drives_announce _) fun _ _ => ?_
  refine Task.drives_bind waits fun _ _ => ?_
  refine Task.drives_bind (drives_announce _) fun _ _ => ?_
  exact Task.drives_bind (drives_dispatch configuration first timed) fun _ _ =>
    Task.drives_result trivial

/-! The mode of the motor. -/

/-- Steps whose replies all succeed are gone through. -/
theorem exists_rest_of_proceeds {selector : String} {stops : Prop} {continues : List Event → Prop}
    {steps others events : List Event}
    (proceeds : Proceeds selector stops continues (steps ++ others) events)
    (succeed : ∀ step ∈ steps, ∀ reply, ⟨step.request, reply⟩ ∈ events →
      Succeeds selector step.request reply) :
    ∃ rest, events = steps ++ rest ∧ Proceeds selector stops continues others rest := by
  induction steps generalizing events with
  | nil => exact ⟨events, rfl, proceeds⟩
  | cons step steps inductionHypothesis =>
      rw [List.forall_mem_cons] at succeed
      cases proceeds with
      | next _ proceeds =>
          obtain ⟨rest, rfl, goesOn⟩ :=
            inductionHypothesis proceeds fun other isStep reply member =>
              succeed.2 other isStep reply (List.mem_cons_of_mem _ member)
          exact ⟨rest, rfl, goesOn⟩
      | broken _ fails => exact absurd (succeed.1 _ List.mem_cons_self) fails

theorem modeCommands_eq_nil {events : List Event}
    (leave : ∀ event ∈ events, ∀ channel mode, event.request ≠ .robot (.setMode channel mode)) :
    modeCommands events = [] := by
  rw [modeCommands, List.filterMap_eq_nil_iff]
  intro event member
  unfold modeCommand?
  split
  · exact absurd rfl (leave _ member _ _)
  · rfl

theorem modeCommands_phases (events : List Event) :
    modeCommands (phases events) = modeCommands events :=
  filterMap_phases (fun _ _ => rfl) events

variable {acting : List Event} {stop : Outcome Failure Unit}

/-- The steps by which a drive is prepared once its motor was found. -/
def prepareSteps (channel : ChannelId) : List Event :=
  [⟨.robot (.setPower channel Binary64.zero), Answer.ok ()⟩,
    ⟨.robot (.setMode channel .stopAndResetEncoder), Answer.ok ()⟩,
    ⟨.robot (.setMode channel .runUsingEncoder), Answer.ok ()⟩]

/-- Behind the preparation of the drive no mode is set. -/
theorem modeCommands_of_start {contents : Except SystemError String} {channel : ChannelId}
    {rest : List Event}
    (proceeds : Proceeds request.selector (∀ u, stop ≠ .value u)
      (Dispatches request patience contents channel stop)
      (announceSteps "Waiting for start ..." ++
        (⟨.robot .waitForStart, Answer.ok ()⟩ :: announceSteps "Running ...")) rest) :
    modeCommands rest = [] := by
  have steps : ∀ step ∈ announceSteps "Waiting for start ..." ++
      (⟨.robot .waitForStart, Answer.ok ()⟩ :: announceSteps "Running ..."),
      ∀ channel mode, step.request ≠ .robot (.setMode channel mode) := by
    simp [announceSteps]
  apply modeCommands_eq_nil
  rcases proceeds.through_or_among with ⟨dispatching, rfl, dispatches⟩ | ⟨_, among⟩
  · obtain ⟨configuration, events, ended, final, _, runs, rfl, _⟩ := dispatches
    refine List.forall_mem_append.mpr ⟨steps, ?_⟩
    intro event member channel mode same
    have made := ((DispatchContext.within_run _ configuration .fresh).of_runs runs
      fun _ _ => trivial).1 event (List.mem_filter.mp member).1
    rw [same] at made
    exact made
  · intro event member channel mode same
    obtain ⟨step, isStep, sameRequest⟩ := among event member
    exact steps step isStep channel mode (sameRequest.symm.trans same)

/-- If the motor is looked for, it is given the two modes of the start-up and no other one. -/
theorem modeCommands_of_body (runs : Runs (body request patience) acting stop)
    (obeys : ∀ event ∈ acting, Obeys request.settings.drive.channel event.request event.reply)
    (sought : ∃ event ∈ acting, ∃ name, event.request = .robot (.findChannel name)) :
    modeCommands acting = [(⟨0⟩, .stopAndResetEncoder), (⟨0⟩, .runUsingEncoder)] := by
  obtain ⟨event, member, name, seeks⟩ := sought
  have soughtInPhases : event ∈ phases acting :=
    List.mem_filter.mpr ⟨member, by rw [seeks]; rfl⟩
  replace obeys : ∀ event ∈ phases acting,
      Obeys request.settings.drive.channel event.request event.reply :=
    fun event member => obeys event (List.mem_filter.mp member).1
  by_cases unknown : request.alliance = .unknown
  · rw [(refused_of_unknown unknown runs).2] at soughtInPhases
    cases soughtInPhases
  · obtain ⟨contents, channel, proceeds⟩ := exists_proceeds_of_body unknown runs
    rw [← modeCommands_phases]
    generalize phases acting = made at *
    cases proceeds with
    | broken _ _ =>
        cases List.mem_singleton.mp soughtInPhases
        cases seeks
    | next _ proceeds =>
        cases proceeds with
        | @broken _ _ reply _ _ fails =>
            have answered := obeys ⟨.robot (.findChannel request.settings.drive.channel), reply⟩
              (by simp)
            exact absurd ⟨_, answered rfl⟩ fails
        | @next _ _ later _ proceeds =>
            have found := obeys ⟨.robot (.findChannel request.settings.drive.channel),
              Answer.ok channel⟩ (by simp)
            obtain rfl : channel = ⟨0⟩ := Answer.ok.inj (found rfl)
            change Proceeds _ _ _ (prepareSteps ⟨0⟩ ++ _) _ at proceeds
            have succeed : ∀ step ∈ prepareSteps ⟨0⟩, ∀ reply, ⟨step.request, reply⟩ ∈ later →
                Succeeds request.selector step.request reply := by
              simp only [prepareSteps, List.forall_mem_cons]
              have answered (call : RobotCall) (reply : call.Reply)
                  (member : ⟨.robot call, reply⟩ ∈ later) :
                  Obeys request.settings.drive.channel (.robot call) reply :=
                obeys ⟨.robot call, reply⟩ (by simp [member])
              refine ⟨?_, ?_, ?_, by simp⟩
              · exact fun reply member => answered (.setPower _ _) reply member rfl
              · exact fun reply member => answered (.setMode _ _) reply member rfl
              · exact fun reply member => answered (.setMode _ _) reply member rfl
            obtain ⟨rest, rfl, goesOn⟩ := exists_rest_of_proceeds proceeds succeed
            have none := modeCommands_of_start goesOn
            change (_ :: _ :: modeCommands rest) = _
            rw [none]

/-! Whole runs. -/

/-- The reply of hardware that did what it was asked for. -/
def Complies : (request : Call) → request.Reply → Prop
  | .robot (.findChannel _), answer => ∃ channel, answer = .ok channel
  | .robot (.setPower _ _), answer => answer = .ok ()
  | .robot (.setMode _ _), answer => answer = .ok ()
  | .robot (.readSensor _), answer => ∃ position, answer = .ok position
  | _, _ => True

theorem complies_of_asks {request : Call} {reply : request.Reply} (asks : drive.Asks request)
    (obeys : Obeys drive.channel request reply) : Complies request reply := by
  cases request with
  | robot call =>
      cases call with
      | findChannel name => exact ⟨_, obeys asks⟩
      | setPower channel power => exact obeys asks.1
      | setMode channel mode => exact obeys asks
      | readSensor channel => exact obeys asks
      | _ => trivial
  | host call => trivial

theorem asks_of_idle {request : Call} (idle : request.IsIdle) : drive.Asks request := by
  cases request with
  | robot call => cases call <;> first | trivial | exact absurd trivial idle.1
  | host call => trivial

/-- A run on simulated hardware, in whatever way it ends. -/
structure SafelyDriven (request : AutonomousRequest) (patience : Nat) (events : List Event)
    (outcome : Outcome Empty Containment) (motors : Motors) : Prop where
  complies : ∀ event ∈ events, Complies event.request event.reply
  /-- All power is zero or of one size, one way or the other, and the motor takes it as it is. -/
  powers : ∃ size : Binary64, size.IsPower ∧ ∀ command ∈ powerCommands events,
    Binary64.IsCommand size command.2 ∧
      Binary64.clamp (-Binary64.one) Binary64.one command.2 = command.2
  /-- The body is not ended by the default duration of the settings. -/
  timed : ∃ acting after stop, events = opened request :: (acting ++ after) ∧
    Runs (body request patience) acting stop ∧
    ∀ command text, stop ≠ .error (.run (.invalidValue command "default_duration_secs" text))
  still : ∀ containment, outcome = .value containment → motors.power ⟨0⟩ = Binary64.zero
  ready : ∀ containment, outcome = .value containment →
    (∃ event ∈ events, ∃ name, event.request = .robot (.findChannel name)) →
    motors.mode? ⟨0⟩ = some .runUsingEncoder

variable {events after : List Event} {outcome : Outcome Empty Containment}

/-- The power commands of a run that asks only its own motor are those of its drives. -/
theorem isCommand_of_asks {events : List Event} (isPower : drive.power.IsPower)
    (asks : ∀ event ∈ events, drive.Asks event.request) :
    ∀ command ∈ powerCommands events,
      command.1 = ⟨0⟩ ∧ Binary64.IsCommand drive.power command.2 := by
  rintro ⟨channel, power⟩ member
  obtain ⟨answer, isEvent⟩ := mem_of_mem_powerCommands member
  obtain ⟨first, rfl | ⟨direction, rfl⟩⟩ := asks _ isEvent
  · exact ⟨first, .inl rfl⟩
  · exact ⟨first, Binary64.isCommand_direction isPower direction⟩

theorem first_of_mem_modeCommands {events : List Event}
    (asks : ∀ event ∈ events, drive.Asks event.request) :
    ∀ command ∈ modeCommands events, command.1 = ⟨0⟩ := by
  rintro ⟨channel, mode⟩ member
  obtain ⟨event, isEvent, same⟩ := List.mem_filterMap.mp member
  unfold modeCommand? at same
  split at same
  case h_1 =>
    cases same
    exact asks _ isEvent
  case h_2 => cases same

/-- A run opens its log, acts and is contained. -/
theorem exists_protocol_of_run (runs : Runs (run request patience) events outcome)
    (calm : ∀ event ∈ events, Calm event.request event.reply) :
    ∃ acting after stop, events = opened request :: (acting ++ after) ∧
      Runs (body request patience) acting stop ∧
      ContainmentContext.Protocol
        ⟨request.selector, request.settings.timing.holdInterval, patience⟩ stop after outcome := by
  obtain ⟨_, _, rfl, runsGuard⟩ := Program.runs_call_iff.mp runs
  change Runs (Program.bind (body request patience) _) _ _ at runsGuard
  obtain ⟨acting, after, stop, rfl, runsBody, runsContain⟩ := Program.runs_of_bind runsGuard
  rw [List.forall_mem_cons, List.forall_mem_append] at calm
  exact ⟨acting, after, stop, rfl, runsBody,
    (ContainmentContext.runs_contain_iff calm.2.2).mp runsContain⟩

theorem ne_waiting_of_contained {context : ContainmentContext} {containment : Containment}
    (protocol : context.Protocol stop after (.value containment)) : stop ≠ .waiting := by
  rintro rfl
  cases protocol with
  | failed impossible => cases impossible

/-- Only the body of a run commands power and modes. -/
theorem commands_of_protocol (request : AutonomousRequest) (acting : List Event)
    {context : ContainmentContext} (protocol : context.Protocol stop after outcome) :
    powerCommands (opened request :: (acting ++ after)) = powerCommands acting ∧
      modeCommands (opened request :: (acting ++ after)) = modeCommands acting := by
  have idle := ContainmentContext.idle_of_protocol protocol
  have noMode : modeCommands after = [] := by
    apply modeCommands_eq_nil
    intro event member channel mode same
    have isIdle := (idle event member).1
    rw [same] at isIdle
    exact isIdle trivial
  constructor
  · change powerCommands (acting ++ after) = _
    rw [powerCommands_append, powerCommands_eq_nil_of_idle idle, List.append_nil]
  · change modeCommands (acting ++ after) = _
    rw [modeCommands, List.filterMap_append, ← modeCommands, ← modeCommands, noMode,
      List.append_nil]

/-- Only the body of a run looks for a motor. -/
theorem mem_body_of_findChannel {context : ContainmentContext} {event : Event} {name : String}
    (protocol : context.Protocol stop after outcome)
    (member : event ∈ opened request :: (acting ++ after))
    (seeks : event.request = .robot (.findChannel name)) : event ∈ acting := by
  rcases List.mem_cons.mp member with rfl | member
  · cases seeks
  · refine (List.mem_append.mp member).resolve_right fun behind => ?_
    have isIdle := (ContainmentContext.idle_of_protocol protocol event behind).1
    rw [seeks] at isIdle
    exact isIdle trivial

theorem safelyDriven_of_valid {now : Duration} {motors : Motors}
    (valid : request.settings.validate = .ok ())
    (runs : Runs (run request patience) events outcome)
    (driven : DrivenBy (Motors.ofNames now [request.settings.drive.channel]) events motors) :
    SafelyDriven request patience events outcome motors := by
  have isPower := Settings.isPower_of_validate valid
  have single : (Motors.ofNames now [request.settings.drive.channel]).motors =
      [Motor.atRest now request.settings.drive.channel] := rfl
  have obeys := driven.obeys single
  obtain ⟨acting, after, stop, rfl, runsBody, protocol⟩ :=
    exists_protocol_of_run runs fun event member => (driven.fromSimulation event member).calm
  have idle := ContainmentContext.idle_of_protocol protocol
  obtain ⟨samePowers, sameModes⟩ := commands_of_protocol request acting protocol
  have obeysActing : ∀ event ∈ acting,
      Obeys request.settings.drive.channel event.request event.reply :=
    fun event member => obeys event (List.mem_cons_of_mem _ (List.mem_append_left _ member))
  obtain ⟨asksActing, sound⟩ := Program.Keeps.of_runs
    (drives_body (Settings.exists_defaultDuration_of_validate valid)) runsBody obeysActing
  have asks : ∀ event ∈ opened request :: (acting ++ after),
      request.settings.drive.Asks event.request := by
    rw [List.forall_mem_cons, List.forall_mem_append]
    exact ⟨trivial, asksActing, fun event member => asks_of_idle (idle event member)⟩
  have commands := isCommand_of_asks isPower asks
  have whole (command : ChannelId × Binary64)
      (member : command ∈ powerCommands (opened request :: (acting ++ after))) :
      Binary64.clamp (-Binary64.one) Binary64.one command.2 = command.2 :=
    Binary64.clamp_command isPower (commands command member).2
  obtain ⟨last, alone, lastPower, lastMode⟩ := driven.exists_last single
    (fun command member => ⟨(commands command member).1, whole command member⟩)
    (first_of_mem_modeCommands asks)
  rw [samePowers] at lastPower
  rw [sameModes] at lastMode
  refine
    { complies := fun event member => complies_of_asks (asks event member) (obeys event member)
      powers := ⟨_, isPower, fun command member =>
        ⟨(commands command member).2, whole command member⟩⟩
      timed := ⟨acting, after, stop, rfl, runsBody, ?_⟩
      still := ?_
      ready := ?_ }
  · rintro command text rfl
    exact sound command text rfl
  · rintro containment rfl
    rw [Motors.power, alone]
    change last.power = Binary64.zero
    rw [lastPower, DrivenBy.lastOr]
    cases command : (powerCommands acting).getLast? with
    | none => rfl
    | some command => exact zero_of_body runsBody (ne_waiting_of_contained protocol) command
  · rintro containment rfl ⟨event, member, name, seeks⟩
    have inBody := mem_body_of_findChannel protocol member seeks
    rw [Motors.mode?, alone]
    change some last.mode = _
    rw [lastMode, modeCommands_of_body runsBody obeysActing ⟨event, inBody, name, seeks⟩]
    rfl

/-- The run that a command line makes of itself in a world is driven safely. -/
theorem safelyDriven_of_start {world prepared : World} {selector settingsPath : String}
    {alliance : Alliance} {zone : Zone} {document : Option String} {maxRunSecs : Nat}
    {plan : CommandLine.RunPlan}
    (started : world.exec (CommandLine.start
      (.run selector alliance zone settingsPath document maxRunSecs)) =
        (.value (.run plan), prepared)) :
    SafelyDriven plan.request patience
      ((run plan.request patience).events World.answer (prepared.launch plan))
      ((prepared.launch plan).exec (run plan.request patience)).1
      ((prepared.launch plan).exec (run plan.request patience)).2.robot.motors := by
  have runs := Program.runs_exec World.answer
    (CommandLine.start (.run selector alliance zone settingsPath document maxRunSecs)) world
  change Program.exec World.answer _ world = _ at started
  rw [started] at runs
  have valid := CommandLine.validate_of_start runs
  exact safelyDriven_of_valid valid (Program.runs_exec World.answer _ _)
    (World.drivenBy_events _ (prepared.launch plan))

/-- With settings that were loaded, every run on the simulated hardware that they name, whatever the
document, the console and the display do, is driven safely. -/
theorem run_safelyDriven {settingsPath selector : String} {document : Option String}
    {settings : Settings} {alliance : Alliance} {reading : List Event} {now : Duration}
    {motors : Motors}
    (loaded : Runs (CommandLine.loadFor settingsPath document) reading (.value settings))
    (runs : Runs (run ⟨selector, alliance, settings⟩ patience) events outcome)
    (driven : DrivenBy (Motors.ofNames now [settings.drive.channel]) events motors) :
    SafelyDriven ⟨selector, alliance, settings⟩ patience events outcome motors :=
  safelyDriven_of_valid (CommandLine.validate_of_loadFor loaded) runs driven

/-- A robot on a desk that drives for a moment, under the initial settings. -/
def driveDesk : Desk where
  robot := SimulatedRobot.launch .zero Settings.initial.drive.channel (.ofSecs 9) .center
  document := "<RobotAction><OpMode id='A'><parameters/><actions>" ++
    "<forward_by_time seconds='0.02'/></actions></OpMode></RobotAction>"
  clock := .zero

theorem drivenBy_events_desk {α : Type} (program : Program α) (desk : Desk) :
    DrivenBy desk.robot.motors (program.events Desk.answer desk)
      (program.exec Desk.answer desk).2.robot.motors := by
  have hostCall (call : HostCall) (desk : Desk) :
      (Desk.answer (.host call) desk).2.robot.motors = desk.robot.motors := by
    cases call <;> rfl
  exact drivenBy_events Desk.robot (fun _ _ => ⟨_, _, rfl, rfl⟩) hostCall program desk

def isCompleted : Outcome Empty Containment → Bool
  | .value .completed => true
  | _ => false

theorem run_safelyDriven_desk :
    let ended := (run sampleRequest 9).exec Desk.answer driveDesk
    let events := (run sampleRequest 9).events Desk.answer driveDesk
    SafelyDriven sampleRequest 9 events ended.1 ended.2.robot.motors ∧
      isCompleted ended.1 = true ∧ (powerCommands events).length = 3 := by
  have loaded : Runs (CommandLine.loadFor "settings.toml" none)
      [⟨.host (.pathExists "settings.toml"), false⟩] (.value Settings.initial) :=
    .call .done
  have runs := Program.runs_exec Desk.answer (run sampleRequest 9) driveDesk
  have driven := drivenBy_events_desk (run sampleRequest 9) driveDesk
  exact ⟨run_safelyDriven loaded runs driven, by decide +kernel, by decide +kernel⟩

end Autonomous

end RobotRoutine
