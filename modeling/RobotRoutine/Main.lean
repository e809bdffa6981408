import RobotRoutine.CommandLine.Commands
import RobotRoutine.Files.RunLog
import RobotRoutine.Simulation.Robot

/-!
The command line on a real machine, with simulated hardware.

Here programs meet the machine: each call is answered by the clock, the files and the streams of the
machine, or by the simulated robot.  What to call is decided by the programs alone.
-/

namespace RobotRoutine.Machine

/-- A run log with a file of the machine in the place of a writer. -/
structure LogState extends RunLog where
  handle : Option IO.FS.Handle

def LogState.detached (opened : Duration) : LogState :=
  { RunLog.detached opened with handle := none }

/-- What changes while a command runs.  The robot is shared with the console reader. -/
structure State where
  robot : IO.Ref SimulatedRobot
  log : IO.Ref LogState

def errorNumber : IO.Error → Option UInt32
  | .alreadyExists _ number _ => some number
  | .otherError number _ => some number
  | .resourceBusy number _ => some number
  | .resourceVanished number _ => some number
  | .unsupportedOperation number _ => some number
  | .hardwareFault number _ => some number
  | .unsatisfiedConstraints number _ => some number
  | .illegalOperation number _ => some number
  | .protocolError number _ => some number
  | .timeExpired number _ => some number
  | .interrupted _ number _ => some number
  | .noFileOrDirectory _ number _ => some number
  | .invalidArgument _ number _ => some number
  | .permissionDenied _ number _ => some number
  | .resourceExhausted _ number _ => some number
  | .inappropriateType _ number _ => some number
  | .noSuchThing _ number _ => some number
  | _ => none

/-- An error of the machine; one without a number is an input or output error. -/
def systemError (error : IO.Error) : SystemError :=
  .code ((errorNumber error).getD 5).toNat

/-- Runs a file operation on a path that the machine can be asked about. -/
def onPath {α : Type} (path : String) (operation : IO α) : IO (Except SystemError α) := do
  match FileSystem.checkPath path with
  | .error error => pure (.error error)
  | .ok _ =>
      try
        pure (.ok (← operation))
      catch error => pure (.error (systemError error))

def now : IO Duration := do
  pure ⟨← IO.monoNanosNow⟩

/-- The longest sleep that the machine is asked for at once, in milliseconds. -/
def longestSleep : Nat := 1000000

def sleep (duration : Duration) : IO Unit := do
  for _ in [0 : duration.millis / longestSleep] do
    IO.sleep (UInt32.ofNat longestSleep)
  IO.sleep (UInt32.ofNat (duration.millis % longestSleep))

def readText (path : String) : IO (Except SystemError String) := do
  match ← onPath path (IO.FS.readBinFile path) with
  | .error error => pure (.error error)
  | .ok bytes =>
      match String.fromUTF8? bytes with
      | some text => pure (.ok text)
      | none => pure (.error .invalidText)

def pathExists (path : String) : IO Bool := do
  match ← onPath path (IO.FS.Handle.mk path .read) with
  | .ok _ => pure true
  | .error error => pure (error == .permissionDenied)

def makeDirectories (path : String) : IO (Except SystemError Unit) :=
  if path.isEmpty then pure (.ok ()) else onPath path (IO.FS.createDirAll path)

def writeText (path text : String) : IO (Except SystemError Unit) :=
  onPath path do
    let handle ← IO.FS.Handle.mk path .write
    handle.putStr text
    handle.flush

def rename (source target : String) : IO (Except SystemError Unit) :=
  onPath source (IO.FS.rename source target)

def printTo (stream : IO.FS.Stream) (text : String) : IO Unit := do
  stream.putStr text
  stream.flush

/-- Opens the log of a run; a log that cannot be opened takes records and writes nothing. -/
def openLog (directory selector : String) : IO LogState := do
  let detached := LogState.detached (← now)
  match ← makeDirectories directory with
  | .error _ => pure detached
  | .ok _ =>
      let path := RunLog.pathOf directory selector
      match ← onPath path (IO.FS.Handle.mk path .write) with
      | .error _ => pure detached
      | .ok handle => pure { detached with path, handle }

def record (state : State) (level : LogLevel) (tag text : String) : IO Unit := do
  let log ← state.log.get
  match log.admits level, log.handle with
  | true, some handle =>
      let elapsed := (← now) - log.opened
      try
        handle.putStr (RunLog.line elapsed level tag text ++ "\n")
      catch _ => state.log.set { log with handle := none }
  | _, _ => pure ()

def closeLog (state : State) : IO Unit := do
  let log ← state.log.get
  state.log.set { log with handle := none }
  match log.handle with
  | none => pure ()
  | some handle =>
      try
        handle.flush
      catch _ => pure ()

def answerHost (state : State) : (call : HostCall) → IO call.Reply
  | .now => now
  | .pause duration => sleep duration
  | .openLog directory selector => do state.log.set (← openLog directory selector)
  | .record level tag text => record state level tag text
  | .setThreshold threshold =>
      state.log.modify fun log => { log with toRunLog := log.setThreshold threshold }
  | .closeLog => closeLog state
  | .pathExists path => pathExists path
  | .readText path => readText path
  | .makeDirectories path => makeDirectories path
  | .writeText path text => writeText path text
  | .rename source target => rename source target
  | .print text => do printTo (← IO.getStdout) text
  | .printError text => do printTo (← IO.getStderr) text

/-- Answers a call to the robot; what its display shows is printed. -/
def answerRobot (state : State) (call : RobotCall) : IO call.Reply := do
  let moment ← now
  let (reply, shown) ← state.robot.modifyGet fun robot =>
    let (reply, robot, sink) := robot.answer moment Sink.unlimited call
    ((reply, sink.written), robot)
  unless shown.isEmpty do
    printTo (← IO.getStdout) shown
  pure reply

def answer (state : State) : (request : Call) → IO request.Reply
  | .robot call => answerRobot state call
  | .host call => answerHost state call

/-- Runs a program on the machine. -/
def exec {α : Type} (state : State) : Program α → IO α
  | .done result => pure result
  | .call request next => do exec state (next (← answer state request))

/-- Reads console lines until the input ends, and applies each to the control. -/
partial def readConsole (robot : IO.Ref SimulatedRobot) (input : IO.FS.Stream) : IO Unit := do
  let line ← input.getLine
  if line.isEmpty then return
  robot.modify fun robot => { robot with control := robot.control.applyLine line }
  readConsole robot input

/-- Sets up the simulated hardware for a run, and starts to read the console. -/
def launch (state : State) (plan : CommandLine.RunPlan) : IO Unit := do
  state.robot.set
    (SimulatedRobot.launch (← now) plan.request.settings.drive.channel plan.period plan.zone)
  let input ← IO.getStdin
  let _ ← IO.asTask (readConsole state.robot input) .dedicated

/-- The number of turns that a waiting loop is granted, more than a run could take. -/
def patience : Nat := 2 ^ 62

/-- The exit code for a command that did not come to its own end. -/
def brokenOffCode : UInt32 := 101

def exitCode : Outcome Empty CommandLine.ExitStatus → UInt32
  | .value status => UInt32.ofNat status.code
  | _ => brokenOffCode

def run (state : State) (command : CommandLine.Command) : IO UInt32 := do
  match ← exec state (CommandLine.start command) with
  | .value (.finished status) => pure (UInt32.ofNat status.code)
  | .value (.run plan) => do
      launch state plan
      pure (exitCode (← exec state (plan.execute patience)))
  | _ => pure brokenOffCode

end RobotRoutine.Machine

open RobotRoutine

def main (arguments : List String) : IO UInt32 := do
  match CommandLine.parse? arguments with
  | none =>
      Machine.printTo (← IO.getStderr) CommandLine.usage
      pure (UInt32.ofNat CommandLine.usageErrorCode)
  | some command =>
      let moment ← Machine.now
      let robot ← IO.mkRef (SimulatedRobot.launch moment "" Duration.zero .center)
      let log ← IO.mkRef (Machine.LogState.detached moment)
      Machine.run ⟨robot, log⟩ command
