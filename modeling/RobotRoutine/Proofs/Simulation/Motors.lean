import RobotRoutine.Proofs.Run.MotorSafety
import RobotRoutine.Proofs.Simulation.Robot

/-!
Simulated motors along a run.

What a simulated robot answers about its motors depends on them alone, so a run can be followed with
nothing else of the robot in mind.  A single motor obeys whatever is asked of its channel, and in
the end it has the power and the mode that were commanded last.
-/

namespace RobotRoutine

open Program (Event)

/-- Events in which the calls to the robot are answered by simulated robots, each with the motors
that the one before has left.  All else, moments and consoles included, is free at every call. -/
inductive DrivenBy : Motors → List Event → Motors → Prop where
  | nil {motors : Motors} : DrivenBy motors [] motors
  | robot {events : List Event} {final : Motors} (robot : SimulatedRobot) (now : Duration)
      (sink : Sink) (call : RobotCall)
      (rest : DrivenBy (robot.answer now sink call).2.1.motors events final) :
      DrivenBy robot.motors (⟨.robot call, (robot.answer now sink call).1⟩ :: events) final
  | host {motors final : Motors} {events : List Event} (call : HostCall) (reply : call.Reply)
      (rest : DrivenBy motors events final) :
      DrivenBy motors (⟨.host call, reply⟩ :: events) final

/-- The mode that an event commands, on whatever channel. -/
def modeCommand? : Event → Option (ChannelId × MotorMode)
  | ⟨.robot (.setMode channel mode), _⟩ => some (channel, mode)
  | _ => none

def modeCommands (events : List Event) : List (ChannelId × MotorMode) :=
  events.filterMap modeCommand?

theorem modeCommands_setMode (channel : ChannelId) (mode : MotorMode) (answer : Answer Unit)
    (events : List Event) :
    modeCommands (⟨.robot (.setMode channel mode), answer⟩ :: events) =
      (channel, mode) :: modeCommands events := rfl

/-- A reply of a robot whose only motor has this name. -/
def Obeys (name : String) : (request : Call) → request.Reply → Prop
  | .robot (.findChannel asked), answer => asked = name → answer = .ok ⟨0⟩
  | .robot (.setPower channel _), answer => channel = ⟨0⟩ → answer = .ok ()
  | .robot (.setMode channel _), answer => channel = ⟨0⟩ → answer = .ok ()
  | .robot (.readSensor channel), answer => channel = ⟨0⟩ → ∃ position, answer = .ok position
  | .robot .waitForStart, answer => answer = .ok ()
  | .robot .refresh, answer => ∀ failure, answer = .failed failure → ∀ error, failure ≠ .run error
  | _, _ => True

/-- The motor on the first channel after a call. -/
def Motor.after (motor : Motor) (now : Duration) : RobotCall → Motor
  | .setPower ⟨0⟩ power => motor.setPower now power
  | .setMode ⟨0⟩ mode => motor.setMode now mode
  | _ => motor

theorem Motor.name_after (motor : Motor) (now : Duration) (call : RobotCall) :
    (motor.after now call).name = motor.name := by
  unfold after
  split
  · rfl
  · unfold setMode
    split <;> rfl
  · rfl

theorem Motor.power_setMode (motor : Motor) (now : Duration) (mode : MotorMode) :
    (motor.setMode now mode).power = motor.power := by
  cases mode <;> rfl

theorem Motor.mode_setMode (motor : Motor) (now : Duration) (mode : MotorMode) :
    (motor.setMode now mode).mode = mode := by
  cases mode <;> rfl

namespace Motors

variable {motors : Motors} {motor : Motor} {channel : ChannelId}

theorem motor_first (single : motors.motors = [motor]) : motors.motor ⟨0⟩ = .ok motor := by
  rw [Motors.motor, single]
  rfl

theorem exists_motor_error (single : motors.motors = [motor]) (other : channel ≠ ⟨0⟩) :
    ∃ failure, motors.motor channel = .error failure := by
  obtain ⟨index⟩ := channel
  cases index with
  | zero => exact absurd rfl other
  | succ index => exact ⟨_, by rw [Motors.motor, single]; rfl⟩

theorem findChannel_single (single : motors.motors = [motor]) :
    motors.findChannel motor.name = .ok ⟨0⟩ := by
  rw [findChannel, single]
  simp

end Motors

theorem ConsoleDisplay.exists_context_of_writeItems {sink : Sink} {items : List (String × String)}
    {failure : Failure} (failed : (writeItems sink items).1 = .error failure) :
    ∃ cause, failure = .context "write telemetry" cause := by
  induction items generalizing sink with
  | nil => cases failed
  | cons item rest inductionHypothesis =>
      unfold writeItems at failed
      split at failed
      case h_1 => exact inductionHypothesis failed
      case h_2 =>
        cases failed
        exact ⟨_, rfl⟩

namespace SimulatedRobot

variable {robot : SimulatedRobot} {motor : Motor}

theorem motors_withMotors (single : robot.motors.motors = [motor]) {channel : ChannelId}
    {next : Motor → Except Failure Motors} {changed : Motor}
    (here : channel = ⟨0⟩ → ∃ after, next motor = .ok after ∧ after.motors = [changed])
    (elsewhere : channel ≠ ⟨0⟩ → changed = motor) :
    (robot.withMotors ((robot.motors.motor channel).bind next)).2.motors.motors = [changed] := by
  by_cases first : channel = ⟨0⟩
  · obtain ⟨after, same, alone⟩ := here first
    rw [first, Motors.motor_first single]
    change (robot.withMotors (next motor)).2.motors.motors = _
    rw [same]
    exact alone
  · obtain ⟨failure, failed⟩ := Motors.exists_motor_error single first
    rw [failed, elsewhere first]
    exact single

/-- Whatever is asked of a robot with one motor, it has one motor afterwards. -/
theorem motors_answer (single : robot.motors.motors = [motor]) (now : Duration) (sink : Sink)
    (call : RobotCall) :
    (robot.answer now sink call).2.1.motors.motors = [motor.after now call] := by
  cases call with
  | setPower channel power =>
      refine motors_withMotors single ?_ ?_
      · rintro rfl
        exact ⟨_, rfl, by simp [Motors.put, single, Motor.after]⟩
      · intro other
        obtain ⟨_ | index⟩ := channel
        · exact absurd rfl other
        · rfl
  | setMode channel mode =>
      refine motors_withMotors single ?_ ?_
      · rintro rfl
        exact ⟨_, rfl, by simp [Motors.put, single, Motor.after]⟩
      · intro other
        obtain ⟨_ | index⟩ := channel
        · exact absurd rfl other
        · rfl
  | _ => exact single

theorem obeys_answer (single : robot.motors.motors = [motor]) (now : Duration) (sink : Sink)
    (call : RobotCall) :
    Obeys motor.name (.robot call) (robot.answer now sink call).1 := by
  have first := Motors.motor_first single
  cases call with
  | findChannel name =>
      rintro rfl
      exact congrArg answerOf (Motors.findChannel_single single)
  | setPower channel power =>
      rintro rfl
      change (robot.withMotors (robot.motors.setPower now ⟨0⟩ power)).1 = .ok ()
      rw [withMotors_eq, Motors.setPower, first]
      rfl
  | setMode channel mode =>
      rintro rfl
      change (robot.withMotors (robot.motors.setMode now ⟨0⟩ mode)).1 = .ok ()
      rw [withMotors_eq, Motors.setMode, first]
      rfl
  | readSensor channel =>
      rintro rfl
      refine ⟨motor.positionAt now, ?_⟩
      change answerOf (robot.motors.position now ⟨0⟩) = _
      rw [Motors.position, first]
      rfl
  | waitForStart => rfl
  | refresh =>
      intro failure failed error
      change answerOf (robot.display.refresh sink).1 = .failed failure at failed
      cases result : (robot.display.refresh sink).1 with
      | ok u =>
          rw [result] at failed
          cases failed
      | error other =>
          rw [result] at failed
          cases failed
          obtain ⟨cause, rfl⟩ := ConsoleDisplay.exists_context_of_writeItems result
          exact nofun
  | _ => trivial

end SimulatedRobot

namespace DrivenBy

variable {motors final : Motors} {motor : Motor} {events first second : List Event}

theorem fromSimulation (driven : DrivenBy motors events final) :
    ∀ event ∈ events, FromSimulation event.request event.reply := by
  induction driven with
  | nil => simp
  | robot robot now sink call _ inductionHypothesis =>
      exact List.forall_mem_cons.mpr ⟨⟨robot, now, sink, rfl⟩, inductionHypothesis⟩
  | host call reply _ inductionHypothesis =>
      exact List.forall_mem_cons.mpr ⟨trivial, inductionHypothesis⟩

theorem obeys (driven : DrivenBy motors events final) (single : motors.motors = [motor]) :
    ∀ event ∈ events, Obeys motor.name event.request event.reply := by
  induction driven generalizing motor with
  | nil => simp
  | robot robot now sink call _ inductionHypothesis =>
      have after := SimulatedRobot.motors_answer single now sink call
      rw [← motor.name_after now call]
      refine List.forall_mem_cons.mpr ⟨?_, inductionHypothesis after⟩
      rw [motor.name_after now call]
      exact SimulatedRobot.obeys_answer single now sink call
  | host call reply _ inductionHypothesis =>
      exact List.forall_mem_cons.mpr ⟨trivial, inductionHypothesis single⟩

/-- The value that was commanded last, or else the one that there was. -/
def lastOr {α : Type} (commands : List (ChannelId × α)) (before : α) : α :=
  (commands.getLast?.map Prod.snd).getD before

theorem lastOr_cons {α : Type} (channel : ChannelId) (value before : α)
    (commands : List (ChannelId × α)) :
    lastOr ((channel, value) :: commands) before = lastOr commands value := by
  rw [lastOr, List.getLast?_cons, lastOr]
  cases commands.getLast? <;> rfl

/-- A motor that is the only one to be commanded, without any power being cut off, has in the end
the power and the mode of the last command. -/
theorem exists_last (driven : DrivenBy motors events final) (single : motors.motors = [motor])
    (powers : ∀ command ∈ powerCommands events, command.1 = ⟨0⟩ ∧
      Binary64.clamp (-Binary64.one) Binary64.one command.2 = command.2)
    (modes : ∀ command ∈ modeCommands events, command.1 = ⟨0⟩) :
    ∃ last, final.motors = [last] ∧ last.power = lastOr (powerCommands events) motor.power ∧
      last.mode = lastOr (modeCommands events) motor.mode := by
  induction driven generalizing motor with
  | nil => exact ⟨motor, single, rfl, rfl⟩
  | robot robot now sink call _ inductionHypothesis =>
      have after := SimulatedRobot.motors_answer single now sink call
      cases call with
      | setPower channel power =>
          obtain ⟨⟨rfl, whole⟩, others⟩ := List.forall_mem_cons.mp powers
          obtain ⟨last, alone, lastPower, lastMode⟩ := inductionHypothesis after others modes
          refine ⟨last, alone, ?_, lastMode⟩
          rw [lastPower, powerCommands_setPower, lastOr_cons]
          exact congrArg (lastOr _) whole
      | setMode channel mode =>
          obtain ⟨rfl, others⟩ := List.forall_mem_cons.mp modes
          obtain ⟨last, alone, lastPower, lastMode⟩ := inductionHypothesis after powers others
          refine ⟨last, alone, ?_, ?_⟩
          · rw [lastPower]
            exact congrArg (lastOr _) (motor.power_setMode now mode)
          · rw [lastMode, modeCommands_setMode, lastOr_cons]
            exact congrArg (lastOr _) (motor.mode_setMode now mode)
      | _ => exact inductionHypothesis after powers modes
  | host call reply _ inductionHypothesis => exact inductionHypothesis single powers modes

end DrivenBy

/-- If only calls to the robot in a world change its motors, those are driven. -/
theorem drivenBy_events {σ α : Type} {answer : (request : Call) → σ → request.Reply × σ}
    (robotOf : σ → SimulatedRobot)
    (robotCall : ∀ call world, ∃ now sink,
      (answer (.robot call) world).1 = ((robotOf world).answer now sink call).1 ∧
        (robotOf (answer (.robot call) world).2).motors =
          ((robotOf world).answer now sink call).2.1.motors)
    (hostCall : ∀ call world, (robotOf (answer (.host call) world).2).motors =
      (robotOf world).motors)
    (program : Program α) (world : σ) :
    DrivenBy (robotOf world).motors (program.events answer world)
      (robotOf (program.exec answer world).2).motors := by
  induction program generalizing world with
  | done result => exact .nil
  | call request next inductionHypothesis =>
      cases request with
      | robot call =>
          obtain ⟨now, sink, sameReply, sameMotors⟩ := robotCall call world
          have rest := inductionHypothesis (answer (.robot call) world).1
            (answer (.robot call) world).2
          change DrivenBy _ (⟨_, (answer (.robot call) world).1⟩ :: _)
            (robotOf (Program.exec answer (next (answer (.robot call) world).1) _).2).motors
          rw [sameMotors, sameReply] at rest
          rw [sameReply]
          exact .robot (robotOf world) now sink call rest
      | host call =>
          refine .host call _ ?_
          rw [← hostCall call world]
          exact inductionHypothesis _ _

theorem World.motors_answer_host (call : HostCall) (world : World) :
    (world.answer (.host call)).2.robot.motors = world.robot.motors := by
  cases call with
  | pause duration =>
      change (World.after _ (.pause duration)).robot.motors = _
      unfold World.after
      dsimp only
      split <;> rfl
  | _ => rfl

/-- In a world the motors of its own robot are driven. -/
theorem World.drivenBy_events {α : Type} (program : Program α) (world : World) :
    DrivenBy world.robot.motors (program.events World.answer world)
      (program.exec World.answer world).2.robot.motors :=
  RobotRoutine.drivenBy_events World.robot (fun _ _ => ⟨_, _, rfl, rfl⟩)
    (fun call world => world.motors_answer_host call) program world

end RobotRoutine
