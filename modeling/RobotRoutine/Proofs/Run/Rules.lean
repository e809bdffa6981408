import RobotRoutine.Run.Dispatch

/-!
Rules by which what holds of the calls of a run holds of its steps.

Much of what is said of a run is said of its calls first and is kept when one part follows another.
Then it holds of the loops of a drive and of a breakpoint, of each command, of a list of steps and
of a branch, however deep markers are nested.  Each property that is kept in this way has to show
that it obeys the rules, and the programs are gone through here.
-/

namespace RobotRoutine.DispatchContext

/-- Rules for a property of tasks: sequences keep it, and the calls of a sleep and of a breakpoint
have it. -/
structure RestRules (holds : ∀ {α : Type}, Task RunError α → Prop) : Prop where
  result : ∀ {α : Type} (a : α), holds (Task.result a)
  waiting : holds (Task.waiting : Task RunError Unit)
  bind : ∀ {α β : Type} {task : Task RunError α} {next : α → Task RunError β},
    holds task → (∀ a, holds (next a)) → holds (task.bind next)
  record : ∀ (level : LogLevel) (text : String), holds (Task.record level dispatchTag text)
  pause : ∀ duration : Duration, holds (Task.pause duration)
  operatorSignal : holds Task.operatorSignal

/-- The calls of the loop of a drive have the property as well. -/
structure LoopRules (context : DispatchContext) (holds : ∀ {α : Type}, Task RunError α → Prop) :
    Prop extends RestRules holds where
  isActive : holds Task.isActive
  now : holds Task.now
  readSensor : holds (Task.readSensor RunError.ofDevice context.driveChannel)
  direction : ∀ direction : Direction, holds (Task.addItem "Driving" direction.label)
  position : ∀ position : Binary64, holds (Task.addItem "Position" position.wholeText)
  refresh : holds (Task.refresh RunError.ofDevice)
  clearItems : holds Task.clearItems

/-- The property is kept if the power of a drive is held around a task. -/
structure CommandRules (context : DispatchContext) (holds : ∀ {α : Type}, Task RunError α → Prop) :
    Prop extends LoopRules context holds where
  during : ∀ (direction : Direction) {body : Task RunError Unit}, holds body →
    holds (PowerHold.during RunError.ofDevice context.driveChannel
      (direction.power context.drive.power) body)

section Commands

variable {context : DispatchContext} {holds : ∀ {α : Type}, Task RunError α → Prop}

theorem RestRules.sleep (rules : RestRules holds) (duration : Duration) :
    holds (DispatchContext.sleep duration) := by
  apply rules.bind (rules.record _ _)
  intro _
  exact rules.pause duration

theorem RestRules.operatorTurns (rules : RestRules holds) (turns : Nat) :
    holds (context.operatorTurns turns) := by
  induction turns with
  | zero => exact rules.waiting
  | succ turns inductionHypothesis =>
      rw [DispatchContext.operatorTurns]
      apply rules.bind rules.operatorSignal
      intro pressed
      split
      · exact rules.result ()
      · exact rules.bind (rules.pause _) fun _ => inductionHypothesis

theorem RestRules.waitForOperator (rules : RestRules holds) : holds context.waitForOperator := by
  apply rules.bind (rules.record _ _)
  intro _
  exact rules.operatorTurns context.patience

theorem LoopRules.driveTurns (rules : context.LoopRules holds) (direction : Direction)
    (duration started : Duration) (turns : Nat) :
    holds (context.driveTurns direction duration started turns) := by
  induction turns with
  | zero => exact rules.waiting
  | succ turns inductionHypothesis =>
      rw [DispatchContext.driveTurns]
      apply rules.bind rules.isActive
      intro live
      split
      · apply rules.bind rules.now
        intro time
        split
        · apply rules.bind rules.readSensor
          intro position
          apply rules.bind (rules.direction direction)
          intro _
          apply rules.bind (rules.position position)
          intro _
          apply rules.bind rules.refresh
          intro _
          apply rules.bind rules.clearItems
          intro _
          split
          · exact rules.bind (rules.pause _) fun _ => inductionHypothesis
          · exact inductionHypothesis
        · exact rules.result ()
      · exact rules.result ()

/-- What a drive does while its power is held: it notes the time and takes its turns. -/
theorem LoopRules.timedTurns (rules : context.LoopRules holds) (direction : Direction)
    (duration : Duration) :
    holds (Task.now.bind fun started =>
      context.driveTurns direction duration started context.patience) := by
  apply rules.bind rules.now
  intro started
  exact rules.driveTurns direction duration started context.patience

theorem CommandRules.carryOut (rules : context.CommandRules holds) {step : ActionStep}
    (lasts : ∀ given, holds (Task.ofExcept (context.driveDuration step given)))
    (command : Command) : holds (context.carryOut step command) := by
  cases command with
  | drive direction duration =>
      apply rules.bind (lasts duration)
      intro duration
      apply rules.bind rules.clearItems
      intro _
      exact rules.during direction (rules.timedTurns direction duration)
  | sleep duration => exact rules.sleep duration
  | breakpoint => exact rules.waitForOperator
  | zoneChoice => exact rules.result ()

end Commands

/-- Rules for a property of the parts of a dispatch, all of whose commands have it. -/
structure StepRules (context : DispatchContext) (configuration : Configuration)
    (holds : ∀ {α : Type}, Dispatch α → Prop) : Prop where
  result : ∀ {α : Type} (a : α), holds (Dispatch.result a)
  waiting : holds (Dispatch.lift Task.waiting : Dispatch Flow)
  bind : ∀ {α β : Type} {part : Dispatch α} {next : α → Dispatch β},
    holds part → (∀ a, holds (next a)) → holds (part.bind next)
  record : ∀ (level : LogLevel) (text : String), holds (Dispatch.record level text)
  isActive : holds (Dispatch.lift Task.isActive)
  resolve : ∀ step, holds (Dispatch.lift (Task.ofExcept (Command.resolve step)))
  carryOut : ∀ step command, holds (Dispatch.lift (context.carryOut step command))
  countStep : holds Dispatch.countStep
  requireTable : holds (Dispatch.lift (Task.ofExcept (requireTable configuration)))
  currentZone : holds (Dispatch.lift (Task.currentZone RunError.ofClassifier))
  setZone : ∀ zone, holds (Dispatch.setZone zone)

section Steps

variable {context : DispatchContext} {configuration : Configuration}
  {holds : ∀ {α : Type}, Dispatch α → Prop}

theorem StepRules.beginStep (rules : context.StepRules configuration holds) (step : ActionStep) :
    holds (DispatchContext.beginStep step) := by
  apply rules.bind (rules.resolve step)
  intro command
  apply rules.bind (rules.record _ _)
  intro _
  exact rules.result command

theorem StepRules.runSteps (rules : context.StepRules configuration holds)
    {branch : Dispatch Flow} (ofBranch : holds branch) (steps : List ActionStep) :
    holds (context.runSteps branch steps) := by
  induction steps with
  | nil => exact rules.result Flow.finished
  | cons step rest inductionHypothesis =>
      rw [DispatchContext.runSteps]
      apply rules.bind rules.isActive
      intro live
      split
      · apply rules.bind (rules.beginStep step)
        intro command
        split
        · apply rules.bind rules.countStep
          intro _
          apply rules.bind ofBranch
          intro flow
          cases flow with
          | stopped => exact rules.result Flow.stopped
          | finished => exact inductionHypothesis
        · apply rules.bind (rules.carryOut step _)
          intro _
          exact rules.bind rules.countStep fun _ => inductionHypothesis
      · exact rules.result Flow.stopped

theorem StepRules.runBranch (rules : context.StepRules configuration holds) (levels : Nat) :
    holds (context.runBranch configuration levels) := by
  induction levels with
  | zero => exact rules.waiting
  | succ levels inductionHypothesis =>
      rw [DispatchContext.runBranch]
      apply rules.bind rules.requireTable
      intro table
      apply rules.bind rules.currentZone
      intro zone
      apply rules.bind (rules.setZone zone)
      intro _
      apply rules.bind (rules.record _ _)
      intro _
      exact rules.runSteps inductionHypothesis _

theorem StepRules.runActions (rules : context.StepRules configuration holds) :
    holds (context.runActions configuration) :=
  rules.runSteps (rules.runBranch _) configuration.actions

end Steps

end RobotRoutine.DispatchContext
