import RobotRoutine.Simulation.ConsoleControl
import RobotRoutine.Simulation.ConsoleDisplay
import RobotRoutine.Simulation.Motors

/-!
A simulated robot: motors, a console as the driver station, and a classifier that always sees the
target in the same zone.
-/

namespace RobotRoutine

structure SimulatedRobot where
  motors : Motors
  control : ConsoleControl
  display : ConsoleDisplay
  zone : Zone

namespace SimulatedRobot

def launch (now : Duration) (channel : String) (period : Duration) (zone : Zone) :
    SimulatedRobot :=
  ⟨Motors.ofNames now [channel], ConsoleControl.launch now period, ConsoleDisplay.empty, zone⟩

def answerOf {α : Type} : Except Failure α → Answer α
  | .ok value => .ok value
  | .error failure => .failed failure

/-- Takes over changed motors; a failure leaves them as they are. -/
def withMotors (robot : SimulatedRobot) : Except Failure Motors → Answer Unit × SimulatedRobot
  | .ok motors => (.ok (), { robot with motors })
  | .error failure => (.failed failure, robot)

/-- Answers a call at a moment.  What the display shows goes to the sink. -/
def answer (robot : SimulatedRobot) (now : Duration) (sink : Sink) :
    (call : RobotCall) → call.Reply × SimulatedRobot × Sink
  | .isActive => (robot.control.isActive now, robot, sink)
  | .isStopRequested => (robot.control.isStopRequested now, robot, sink)
  | .operatorSignal =>
      let (pressed, control) := robot.control.takeSignal
      (pressed, { robot with control }, sink)
  | .waitForStart => (.ok (), { robot with control := robot.control.start }, sink)
  | .findChannel name => (answerOf (robot.motors.findChannel name), robot, sink)
  | .setPower channel power =>
      let (reply, robot) := robot.withMotors (robot.motors.setPower now channel power)
      (reply, robot, sink)
  | .setMode channel mode =>
      let (reply, robot) := robot.withMotors (robot.motors.setMode now channel mode)
      (reply, robot, sink)
  | .readSensor channel => (answerOf (robot.motors.position now channel), robot, sink)
  | .addItem caption value =>
      (.returned, { robot with display := robot.display.add caption value }, sink)
  | .refresh =>
      let (result, sink) := robot.display.refresh sink
      (answerOf result, robot, sink)
  | .clearItems => (.returned, { robot with display := ConsoleDisplay.empty }, sink)
  | .flushDisplay => (answerOf (ConsoleDisplay.flush sink), robot, sink)
  | .currentZone => (.ok robot.zone, robot, sink)

end SimulatedRobot

end RobotRoutine
