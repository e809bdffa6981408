import RobotRoutine.Files.RunLog
import RobotRoutine.Simulation.ConsoleDisplay

/-!
A simulated host machine: a clock, files, the run log and two standard streams.
-/

namespace RobotRoutine

structure Host where
  files : FileSystem
  log : RunLog
  clock : Duration
  output : Sink
  errors : Sink

namespace Host

/-- A host at the beginning of time, with a log that has no file. -/
def ofFiles (files : FileSystem) : Host :=
  ⟨files, RunLog.detached Duration.zero, Duration.zero, Sink.unlimited, Sink.unlimited⟩

def wait (host : Host) (duration : Duration) : Host :=
  { host with clock := host.clock + duration }

/-- The time that every call takes. -/
def callTime : Duration := .ofMicros 1

/-- Lets go of the log.  Until another is opened, records go nowhere. -/
def dropLog (host : Host) : Host :=
  { host with log := RunLog.detached host.clock, files := host.log.drop host.files }

/-- Opens a log, and lets go of the one before once that has been tried. -/
def openLog (host : Host) (directory selector : String) : Host :=
  match RunLog.openFile host.files host.clock directory selector with
  | (.ok log, files) => { dropLog { host with files } with log }
  | (.error _, files) => dropLog { host with files }

/-- Puts the result of a file operation beside the host that it leaves. -/
def withFiles {α : Type} (host : Host) (result : α × FileSystem) : α × Host :=
  (result.1, { host with files := result.2 })

def answer (host : Host) : (call : HostCall) → call.Reply × Host
  | .now => (host.clock, host)
  | .pause duration => ((), host.wait duration)
  | .openLog directory selector => ((), host.openLog directory selector)
  | .record level tag text =>
      let (log, files) := host.log.record host.files host.clock level tag text
      ((), { host with log, files })
  | .setThreshold threshold => ((), { host with log := host.log.setThreshold threshold })
  | .closeLog =>
      let (_, log, files) := host.log.close host.files
      ((), { host with log, files })
  | .pathExists path => (host.files.pathExists path, host)
  | .readText path => (host.files.readText path, host)
  | .makeDirectories path => host.withFiles (host.files.makeDirectories path)
  | .writeText path text => host.withFiles (host.files.writeText path text)
  | .rename source target => host.withFiles (host.files.rename source target)
  | .print text => ((), { host with output := (host.output.write text).2 })
  | .printError text => ((), { host with errors := (host.errors.write text).2 })

end Host

end RobotRoutine
