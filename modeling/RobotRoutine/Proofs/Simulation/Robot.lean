import RobotRoutine.Proofs.Run.Uninterrupted
import RobotRoutine.Simulation.World

/-!
The answers of a simulated robot.

A simulated robot never crashes, and what fails in it, a motor that is not there or a display that
cannot be written, is never made into a stop request: it asks for the stop only when it is looked
at whether the run may go on.
-/

namespace RobotRoutine

open Program (Event)

namespace Motors

variable {motors : Motors} {channel : ChannelId} {failure : Failure}

theorem uninterrupted_motor (failed : motors.motor channel = .error failure) :
    failure.Uninterrupted := by
  unfold motor at failed
  split at failed
  · cases failed
  · cases failed
    exact .plain _

theorem uninterrupted_findChannel {name : String}
    (failed : motors.findChannel name = .error failure) : failure.Uninterrupted := by
  unfold findChannel at failed
  split at failed
  · cases failed
  · cases failed
    exact .plain _

/-- What is done to a motor fails only if there is none on the channel. -/
theorem uninterrupted_bind {α : Type} {next : Motor → Except Failure α}
    (succeeds : ∀ motor failure, next motor ≠ .error failure)
    (failed : (motors.motor channel).bind next = .error failure) : failure.Uninterrupted := by
  cases found : motors.motor channel with
  | ok motor =>
      rw [found] at failed
      exact absurd failed (succeeds motor failure)
  | error other =>
      rw [found] at failed
      cases failed
      exact uninterrupted_motor found

end Motors

namespace ConsoleDisplay

variable {failure : Failure}

theorem uninterrupted_writeAll {sink : Sink} {texts : List String}
    (failed : (Outlet.writeAll sink texts).1 = .error failure) : failure.Uninterrupted := by
  induction texts generalizing sink with
  | nil => cases failed
  | cons text rest inductionHypothesis =>
      unfold Outlet.writeAll at failed
      split at failed
      case h_1 => exact inductionHypothesis failed
      case h_2 same =>
        cases failed
        change sink.write text = _ at same
        unfold Sink.write at same
        split at same
        · cases same
        · split at same
          · cases same
          · cases same
            exact .plain _

theorem uninterrupted_writeItems {sink : Sink} {items : List (String × String)}
    (failed : (writeItems sink items).1 = .error failure) : failure.Uninterrupted := by
  induction items generalizing sink with
  | nil => cases failed
  | cons item rest inductionHypothesis =>
      unfold writeItems at failed
      split at failed
      case h_1 => exact inductionHypothesis failed
      case h_2 same =>
        cases failed
        exact (uninterrupted_writeAll (congrArg Prod.fst same)).context _

theorem uninterrupted_flush {sink : Sink} (failed : flush sink = .error failure) :
    failure.Uninterrupted := by
  unfold flush flushed Sink.flush at failed
  split at failed
  · cases failed
    exact (Failure.Uninterrupted.plain _).context _
  · cases failed

end ConsoleDisplay

namespace SimulatedRobot

theorem isCalm_answerOf {α : Type} (result : Except Failure α) : (answerOf result).IsCalm := by
  cases result <;> trivial

theorem uninterrupted_answerOf {α : Type} {result : Except Failure α}
    (failed : ∀ failure, result = .error failure → failure.Uninterrupted) :
    (answerOf result).IsUninterrupted := by
  cases result with
  | ok value => trivial
  | error failure => exact failed failure rfl

theorem withMotors_eq (robot : SimulatedRobot) (result : Except Failure Motors) :
    (robot.withMotors result).1 = answerOf (result.map fun _ => ()) := by
  cases result <;> rfl

variable (robot : SimulatedRobot) (now : Duration) (sink : Sink)

theorem calm_answer (call : RobotCall) : Calm (.robot call) (robot.answer now sink call).1 := by
  cases call with
  | findChannel name => exact isCalm_answerOf _
  | readSensor channel => exact isCalm_answerOf _
  | refresh => exact isCalm_answerOf _
  | flushDisplay => exact isCalm_answerOf _
  | setPower channel power =>
      change Answer.IsCalm (robot.withMotors _).1
      rw [withMotors_eq]
      exact isCalm_answerOf _
  | setMode channel mode =>
      change Answer.IsCalm (robot.withMotors _).1
      rw [withMotors_eq]
      exact isCalm_answerOf _
  | addItem caption value => rfl
  | clearItems => rfl
  | _ => trivial

theorem uninterrupted_answer (call : RobotCall) :
    Uninterrupted (.robot call) (robot.answer now sink call).1 := by
  have changed {channel : ChannelId} {next : Motor → Except Failure Motors}
      (succeeds : ∀ motor failure, next motor ≠ .error failure) :
      (robot.withMotors ((robot.motors.motor channel).bind next)).1.IsUninterrupted := by
    rw [withMotors_eq]
    apply uninterrupted_answerOf
    intro failure failed
    cases result : (robot.motors.motor channel).bind next with
    | ok motors =>
        rw [result] at failed
        cases failed
    | error other =>
        rw [result] at failed
        cases failed
        exact Motors.uninterrupted_bind succeeds result
  cases call with
  | findChannel name => exact uninterrupted_answerOf fun _ => Motors.uninterrupted_findChannel
  | setPower channel power => exact changed nofun
  | setMode channel mode => exact changed nofun
  | readSensor channel =>
      exact uninterrupted_answerOf fun _ => Motors.uninterrupted_bind nofun
  | refresh => exact uninterrupted_answerOf fun _ => ConsoleDisplay.uninterrupted_writeItems
  | flushDisplay => exact uninterrupted_answerOf fun _ => ConsoleDisplay.uninterrupted_flush
  | _ => trivial

end SimulatedRobot

/-- The reply of a simulated robot in some state.  The host is free in its replies. -/
def FromSimulation : (request : Call) → request.Reply → Prop
  | .robot call, reply => ∃ robot now sink, (SimulatedRobot.answer robot now sink call).1 = reply
  | .host _, _ => True

namespace FromSimulation

variable {request : Call} {reply : request.Reply}

theorem calm (simulated : FromSimulation request reply) : Calm request reply := by
  cases request with
  | host call => trivial
  | robot call =>
      obtain ⟨robot, now, sink, rfl⟩ := simulated
      exact robot.calm_answer now sink call

theorem uninterrupted (simulated : FromSimulation request reply) : Uninterrupted request reply := by
  cases request with
  | host call => trivial
  | robot call =>
      obtain ⟨robot, now, sink, rfl⟩ := simulated
      exact robot.uninterrupted_answer now sink call

end FromSimulation

theorem World.fromSimulation_answer (request : Call) (world : World) :
    FromSimulation request (world.answer request).1 := by
  cases request with
  | host call => trivial
  | robot call => exact ⟨_, _, _, rfl⟩

end RobotRoutine
