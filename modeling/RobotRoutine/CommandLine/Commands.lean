import RobotRoutine.Check.Report
import RobotRoutine.CommandLine.Arguments
import RobotRoutine.Run.Autonomous
import RobotRoutine.Settings.Store

/-!
The commands of the command line.

A command first does all that needs only the host.  What is left of it is either the exit status,
or a run for which simulated hardware has to be set up.
-/

namespace RobotRoutine.CommandLine

inductive ExitStatus where
  | success
  /-- The document, the settings or the arguments are invalid, or the command failed. -/
  | invalid
  /-- The run held a fault until the stop request. -/
  | held
  /-- The run was cancelled by a stop request. -/
  | cancelled
  deriving DecidableEq, Repr

def ExitStatus.code : ExitStatus → Nat
  | success => 0
  | invalid => 1
  | held => 2
  | cancelled => 3

def usageErrorCode : Nat := 2

structure RunPlan where
  request : AutonomousRequest
  zone : Zone
  /-- The time after which the stop is requested. -/
  period : Duration
  deriving DecidableEq

inductive Plan where
  | finished (status : ExitStatus)
  | run (plan : RunPlan)
  deriving DecidableEq

def unlines (lines : List String) : String := String.join (lines.map (· ++ "\n"))

def checkReport (json : Bool) (selector : String) (configuration : Configuration) : String :=
  let summary := Check.summary selector configuration
  if json then (Json.ofCheck summary configuration).pretty ++ "\n" else unlines summary.lines

def checkDocument (selector path : String) (json : Bool) : Task Failure ExitStatus := do
  let contents ← Task.tryReadText path
  match Document.ofFile path contents selector with
  | .ok configuration =>
      Task.print (checkReport json selector configuration)
      pure .success
  | .error error =>
      Task.printError s!"{selector}: {error.text}\n"
      pure .invalid

/-- The document that is named, or else the one that the settings name. -/
def chooseDocument (settingsPath : String) : Option String → Task Failure String
  | some document => pure document
  | none => do
      let settings ← SettingsFile.load settingsPath
      pure settings.documentPath

/-- The settings at a path, with another document if one is named. -/
def loadFor (settingsPath : String) (document : Option String) : Task Failure Settings := do
  let settings ← SettingsFile.load settingsPath
  pure { settings with documentPath := document.getD settings.documentPath }

/-- Writes the initial settings, over a file that exists only by force. -/
def initSettings (force : Bool) (path : String) : Task Failure ExitStatus := do
  let present ← Task.pathExists path
  if present && !force then
    Task.throw (.plain s!"{path} already exists (use --force to overwrite)")
  else
    SettingsFile.store path Settings.initial
    Task.print s!"wrote {path}\n"
    pure .success

def prepare : Command → Task Failure Plan
  | .check selector document settings json => do
      let path ← chooseDocument settings document
      let status ← checkDocument selector path json
      pure (.finished status)
  | .run selector alliance zone settings document maxRunSecs => do
      let settings ← loadFor settings document
      pure (.run ⟨⟨selector, alliance, settings⟩, zone, .ofSecs maxRunSecs⟩)
  | .initSettings force settings => do
      let status ← initSettings force settings
      pure (.finished status)

def conclude (selector : String) : Containment → Task Empty ExitStatus
  | .completed => pure .success
  | .cancelled => pure .cancelled
  | .held fault cycles => do
      let message := fault.message?.getD ""
      Task.printError s!"{selector}: held after fault ({cycles} refreshes): {message}\n"
      pure .held

def RunPlan.execute (plan : RunPlan) (patience : Nat) : Task Empty ExitStatus := do
  let containment ← Autonomous.run plan.request patience
  conclude plan.request.selector containment

/-- Deals with a failure of the host's part: the whole chain is printed. -/
def orInvalid (task : Task Failure Plan) : Task Empty Plan :=
  Program.bind task fun
    | .value plan => Task.result plan
    | .error failure =>
        (Task.printError (failure.message ++ "\n")).bind fun _ => Task.result (.finished .invalid)
    | .crash crash => Task.crash crash
    | .halted => Task.halted
    | .waiting => Task.waiting

/-- The part of a command that needs only the host, with its failure printed. -/
def start (command : Command) : Task Empty Plan := orInvalid (prepare command)

end RobotRoutine.CommandLine
