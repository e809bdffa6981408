import RobotRoutine.Program.Basic
import RobotRoutine.Simulation.Host
import RobotRoutine.Simulation.Robot

/-!
A simulated robot on a simulated host.

The console is read beside the run: lines that were typed ahead have been read by the end of the
first pause that takes time.
-/

namespace RobotRoutine

structure World where
  robot : SimulatedRobot
  host : Host
  /-- The console lines that have not been read yet. -/
  typedAhead : List String

namespace World

def readConsole (world : World) : World :=
  { world with
    robot := { world.robot with control := world.robot.control.applyLines world.typedAhead }
    typedAhead := [] }

/-- Answers a call to the robot; the display shows on the standard output. -/
def answerRobot (world : World) (call : RobotCall) : call.Reply × World :=
  let (reply, robot, output) := world.robot.answer world.host.clock world.host.output call
  (reply, { world with robot, host := { world.host with output } })

def answerHost (world : World) (call : HostCall) : call.Reply × World :=
  let (reply, host) := world.host.answer call
  (reply, { world with host })

/-- The world after a call that was answered. -/
def after (world : World) (call : HostCall) : World :=
  match call with
  | .pause duration => if duration = Duration.zero then world else world.readConsole
  | _ => world

def answer (request : Call) (world : World) : request.Reply × World :=
  let world := { world with host := world.host.wait Host.callTime }
  match request with
  | .robot call => world.answerRobot call
  | .host call =>
      let (reply, world) := world.answerHost call
      (reply, world.after call)

end World

end RobotRoutine
