import RobotRoutine.Document.Reader
import RobotRoutine.Run.Containment
import RobotRoutine.Run.Dispatch

/-!
A whole autonomous run.

The run log is opened first.  Inside the containment the alliance is checked, the document is
loaded, its threshold is set, the drive is prepared, the start is waited for, and the steps are
dispatched; each phase is reached only if all before it went well.
-/

namespace RobotRoutine

structure AutonomousRequest where
  selector : String
  alliance : Alliance
  settings : Settings
  deriving DecidableEq

def autonomousTag : String := "Autonomous"

namespace Autonomous

def checkAlliance : Alliance → Except Failure Unit
  | .unknown => .error (.tagged autonomousTag "Alliance is UNKNOWN")
  | _ => .ok ()

def loadConfiguration (request : AutonomousRequest) : Task Failure Configuration := do
  let path := request.settings.documentPath
  let contents ← Task.tryReadText path
  Task.ofExcept
    ((Document.ofFile path contents request.selector).mapError fun error =>
      .context s!"load run '{request.selector}'" (.document error))

/-- Finds the drive motor and prepares it.  It would not move if its two modes were set in the other
order. -/
def initializeDrive (settings : DriveSettings) : Task Failure ChannelId := do
  let channel ← Task.findChannel
    (fun cause => .context s!"resolve drive channel '{settings.channel}'" cause) settings.channel
  Task.setPower id channel Binary64.zero
  Task.setMode id channel .stopAndResetEncoder
  Task.setMode id channel .runUsingEncoder
  pure channel

def announce (phase : String) : Task Failure Unit := do
  Task.addItem autonomousTag phase
  Task.refresh id
  Task.record .info autonomousTag phase

/-- Dispatches the steps of a configuration on a fresh dispatcher. -/
def dispatch (context : DispatchContext) (configuration : Configuration) :
    Task Failure RunReport :=
  Task.mapError Failure.run
    (Program.bind (context.run configuration Progress.fresh) fun ending => .done ending.1)

def body (request : AutonomousRequest) (patience : Nat) : Task Failure Unit := do
  Task.record .info autonomousTag "Initializing"
  Task.ofExcept (checkAlliance request.alliance)
  let configuration ← loadConfiguration request
  Task.setThreshold configuration.loggingThreshold
  Task.record .debug autonomousTag
    s!"Loaded {configuration.actions.length} actions from {request.settings.documentPath}"
  let driveChannel ← initializeDrive request.settings.drive
  announce "Waiting for start ..."
  Task.waitForStart id
  announce "Running ..."
  let _ ← dispatch
    { tag := request.selector
      alliance := request.alliance
      driveChannel
      drive := request.settings.drive
      timing := request.settings.timing
      patience } configuration
  pure ()

def run (request : AutonomousRequest) (patience : Nat) : Task Empty Containment := do
  Task.openLog request.settings.logDirectory request.selector
  ContainmentContext.guard
    { tag := request.selector
      holdInterval := request.settings.timing.holdInterval
      patience } (body request patience)

end Autonomous

end RobotRoutine
