import RobotRoutine.CommandLine.Commands
import RobotRoutine.Simulation.World

/-!
A command line on a simulated host.
-/

namespace RobotRoutine

namespace World

/-- The lines of a text; the line end of the last one may be missing. -/
def consoleLines (typed : String) : List String :=
  let lines := typed.splitOn "\n"
  if lines.getLast? = some "" then lines.dropLast else lines

/-- A host with files on which nothing has been started; text typed ahead waits at its console. -/
def ofFiles (files : FileSystem) (typed : String) : World where
  robot := SimulatedRobot.launch Duration.zero "" Duration.zero .center
  host := Host.ofFiles files
  typedAhead := consoleLines typed

def launch (world : World) (plan : CommandLine.RunPlan) : World :=
  { world with
    robot := SimulatedRobot.launch world.host.clock plan.request.settings.drive.channel
      plan.period plan.zone }

/-- Runs a program in a world. -/
def exec {α : Type} (world : World) (program : Program α) : α × World :=
  program.exec answer world

def runCommand (world : World) (command : CommandLine.Command) (patience : Nat) :
    Outcome Empty CommandLine.ExitStatus × World :=
  match world.exec (CommandLine.start command) with
  | (.value (.finished status), world) => (.value status, world)
  | (.value (.run plan), world) => (world.launch plan).exec (plan.execute patience)
  | (.crash crash, world) => (.crash crash, world)
  | (.halted, world) => (.halted, world)
  | (.waiting, world) => (.waiting, world)

end World

end RobotRoutine
