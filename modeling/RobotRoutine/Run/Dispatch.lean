import RobotRoutine.Action.Command
import RobotRoutine.Failure.Fault
import RobotRoutine.Run.PowerHold
import RobotRoutine.Settings.Basic

/-!
The dispatcher: runs the steps of a configuration one after the other.

Liveness is polled before every step and inside timed drives; a sleep and a breakpoint are not cut
short.  At the branch marker the zone is classified and the sequence of that zone is run in its
place.  A run ends completed, aborted because liveness was lost or the host interrupted it, or
faulted.
-/

namespace RobotRoutine

inductive RunState where
  | notStarted
  | running
  | completed
  | aborted
  | faulted
  deriving DecidableEq, Repr

/-- What a dispatcher keeps between its steps and between its runs. -/
structure Progress where
  state : RunState
  stepsExecuted : Nat
  zone : Option Zone
  deriving DecidableEq

def Progress.fresh : Progress := ⟨.notStarted, 0, none⟩

abbrev RunReport := Progress

/-- Whether a sequence of steps has come to its end. -/
inductive Flow where
  | finished
  | stopped
  deriving DecidableEq, Repr

structure DispatchContext where
  /-- The name of the run on the display. -/
  tag : String
  alliance : Alliance
  driveChannel : ChannelId
  drive : DriveSettings
  timing : TimingSettings
  /-- The number of turns that each waiting loop is granted. -/
  patience : Nat

def Dispatch (α : Type) := Progress → Program (Outcome RunError α × Progress)

namespace Dispatch

variable {α β : Type}

def result (a : α) : Dispatch α := fun progress => .done (.value a, progress)

/-- What follows the ending of a part: `next` after a value, nothing after any other. -/
def after (next : α → Dispatch β) : Outcome RunError α × Progress →
    Program (Outcome RunError β × Progress)
  | (.value a, progress) => next a progress
  | (.error error, progress) => .done (.error error, progress)
  | (.crash crash, progress) => .done (.crash crash, progress)
  | (.halted, progress) => .done (.halted, progress)
  | (.waiting, progress) => .done (.waiting, progress)

def bind (part : Dispatch α) (next : α → Dispatch β) : Dispatch β := fun progress =>
  (part progress).bind (after next)

instance : Monad Dispatch where
  pure := result
  bind := bind

theorem bind_assoc {γ : Type} (part : Dispatch α) (f : α → Dispatch β) (g : β → Dispatch γ) :
    (part.bind f).bind g = part.bind fun a => (f a).bind g :=
  funext fun progress => (Program.bind_assoc (part progress) (after f) (after g)).trans
    (congrArg (Program.bind (part progress))
      (funext fun ending => by obtain ⟨outcome, _⟩ := ending; cases outcome <;> rfl))

theorem bind_result (part : Dispatch α) : part.bind result = part :=
  have same : after (result : α → Dispatch α) = Program.done :=
    funext fun ending => by obtain ⟨outcome, _⟩ := ending; cases outcome <;> rfl
  funext fun progress =>
    (congrArg (Program.bind (part progress)) same).trans (Program.bind_done (part progress))

instance : LawfulMonad Dispatch :=
  LawfulMonad.mk' Dispatch (fun part => bind_result part) (fun _ _ => rfl) bind_assoc

def lift (task : Task RunError α) : Dispatch α := fun progress =>
  Program.bind task fun outcome => .done (outcome, progress)

/-- A change of the progress. -/
def update (change : Progress → Progress) : Dispatch Unit := fun progress =>
  .done (.value (), change progress)

def progress : Dispatch Progress := fun progress => .done (.value progress, progress)

def setState (state : RunState) : Dispatch Unit := update fun progress => { progress with state }

def countStep : Dispatch Unit :=
  update fun progress => { progress with stepsExecuted := progress.stepsExecuted + 1 }

def setZone (zone : Zone) : Dispatch Unit :=
  update fun progress => { progress with zone := some zone }

def throw (error : RunError) : Dispatch α := lift (Task.throw error)

/-- Gives the error of a part as a value; a crash goes on unwinding. -/
def attempt (part : Dispatch α) : Dispatch (Except RunError α) := fun progress =>
  (part progress).bind fun
    | (.value a, progress) => .done (.value (.ok a), progress)
    | (.error error, progress) => .done (.value (.error error), progress)
    | (.crash crash, progress) => .done (.crash crash, progress)
    | (.halted, progress) => .done (.halted, progress)
    | (.waiting, progress) => .done (.waiting, progress)

def record (level : LogLevel) (text : String) : Dispatch Unit :=
  lift (Task.record level dispatchTag text)

end Dispatch

namespace Direction

def label : Direction → String
  | forward => "Left front forward"
  | reverse => "Left front in reverse"

end Direction

namespace DispatchContext

/-- The turns of a timed drive: as long as the run is live and the time is not up, the position is
read and shown. -/
def driveTurns (context : DispatchContext) (direction : Direction) (duration started : Duration) :
    Nat → Task RunError Unit
  | 0 => Task.waiting
  | turns + 1 => do
      if ← Task.isActive then
        if (← Task.now) - started < duration then
          let position ← Task.readSensor RunError.ofDevice context.driveChannel
          Task.addItem "Driving" direction.label
          Task.addItem "Position" position.wholeText
          Task.refresh RunError.ofDevice
          Task.clearItems
          if context.drive.pollInterval ≠ Duration.zero then
            Task.pause context.drive.pollInterval
          driveTurns context direction duration started turns
        else pure ()
      else pure ()

def driveByTime (context : DispatchContext) (direction : Direction) (duration : Duration) :
    Task RunError Unit := do
  Task.clearItems
  PowerHold.during RunError.ofDevice context.driveChannel (direction.power context.drive.power) do
    let started ← Task.now
    context.driveTurns direction duration started context.patience

/-- The duration of a drive, taken from the settings if the step gives none. -/
def driveDuration (context : DispatchContext) (step : ActionStep) :
    Option Duration → Except RunError Duration
  | some duration => .ok duration
  | none =>
      match context.drive.defaultDuration with
      | .ok duration => .ok duration
      | .error _ =>
          .error (.invalidValue step.commandName "default_duration_secs"
            context.drive.defaultDurationSecs.plainText)

def sleep (duration : Duration) : Task RunError Unit := do
  Task.record .debug dispatchTag s!"Pause by {duration.millis} milliseconds"
  Task.pause duration

/-- The turns of a breakpoint: the operator is looked at until a press is seen. -/
def operatorTurns (context : DispatchContext) : Nat → Task RunError Unit
  | 0 => Task.waiting
  | turns + 1 => do
      if ← Task.operatorSignal then pure ()
      else
        Task.pause context.timing.breakpointPoll
        operatorTurns context turns

def waitForOperator (context : DispatchContext) : Task RunError Unit := do
  Task.record .info dispatchTag "Breakpoint: waiting for operator"
  context.operatorTurns context.patience

def carryOut (context : DispatchContext) (step : ActionStep) : Command → Task RunError Unit
  | .drive direction duration => do
      let duration ← Task.ofExcept (context.driveDuration step duration)
      context.driveByTime direction duration
  | .sleep duration => sleep duration
  | .breakpoint => context.waitForOperator
  | .zoneChoice => pure ()

/-- Resolves a step whose turn has come and notes it in the run log. -/
def beginStep (step : ActionStep) : Dispatch Command := do
  let command ← Dispatch.lift (Task.ofExcept (Command.resolve step))
  Dispatch.record .debug s!"Executing command {step.commandName}"
  pure command

/-- Runs steps one after the other; `branch` is run in the place of a zone choice. -/
def runSteps (context : DispatchContext) (branch : Dispatch Flow) : List ActionStep → Dispatch Flow
  | [] => pure .finished
  | step :: rest => do
      if ← Dispatch.lift Task.isActive then
        match ← beginStep step with
        | .zoneChoice =>
            Dispatch.countStep
            match ← branch with
            | .stopped => pure .stopped
            | .finished => runSteps context branch rest
        | command =>
            Dispatch.lift (context.carryOut step command)
            Dispatch.countStep
            runSteps context branch rest
      else pure .stopped

/-- The table of zone sequences, which a configuration with a marker has. -/
def requireTable (configuration : Configuration) : Except RunError BranchTable :=
  match configuration.branchTable with
  | some table => .ok table
  | none => .error (.missingBranchTable branchMarker)

/-- Classifies the zone and runs its sequence.  A marker inside a sequence is granted as many levels
as the first argument says. -/
def runBranch (context : DispatchContext) (configuration : Configuration) : Nat → Dispatch Flow
  | 0 => Dispatch.lift Task.waiting
  | levels + 1 => do
      let table ← Dispatch.lift (Task.ofExcept (requireTable configuration))
      let zone ← Dispatch.lift (Task.currentZone RunError.ofClassifier)
      Dispatch.setZone zone
      Dispatch.record .info
        s!"Target zone {zone.name}: {(table.get zone).length} branch actions"
      context.runSteps (runBranch context configuration levels) (table.get zone)

/-- Runs all steps of a configuration.  A marker among them is always granted its level. -/
def runActions (context : DispatchContext) (configuration : Configuration) : Dispatch Flow :=
  context.runSteps (context.runBranch configuration (context.patience + 1)) configuration.actions

/-- Ends a run whose steps have ended: the state is set, and a completed run is shown. -/
def conclude (context : DispatchContext) : Except RunError Flow → Dispatch RunReport
  | .ok .finished => do
      Dispatch.setState .completed
      Dispatch.lift (Task.addItem context.tag "COMPLETE")
      Dispatch.lift (Task.ignoringFailure (Program.robot .refresh))
      Dispatch.progress
  | .ok .stopped => do
      Dispatch.setState .aborted
      Dispatch.progress
  | .error .interrupted => do
      Dispatch.setState .aborted
      Dispatch.throw .interrupted
  | .error error => do
      Dispatch.setState .faulted
      Dispatch.throw error

def run (context : DispatchContext) (configuration : Configuration) : Dispatch RunReport := do
  Dispatch.record .info "At start"
  Dispatch.record .info s!"OpMode: {context.tag}, Alliance: {context.alliance.name}"
  if ← Dispatch.lift Task.isActive then
    Dispatch.setState .running
    let ending ← Dispatch.attempt (context.runActions configuration)
    Dispatch.record .info "Exiting dispatcher"
    context.conclude ending
  else
    Dispatch.record .info "OpMode inactive at start; aborting run"
    Dispatch.setState .aborted
    Dispatch.progress

end DispatchContext

end RobotRoutine
