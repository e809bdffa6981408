import RobotRoutine.Proofs.Program.Obliging
import RobotRoutine.Proofs.Program.Refinement
import RobotRoutine.Proofs.Run.Agenda

/-!
The run of a configuration as a plain loop over its agenda.

The dispatcher runs the sequence of a zone inside the run of the actions, leaves both early and
counts in two places.  If the zone is known, the same calls in the same order are made by a loop
that takes one step after the other off a flat list, and the two give the same result.
-/

namespace RobotRoutine

open Program (Runs Event Simulates)

/-- The classifier, if it answers at all, answers this zone. -/
def FindsZone (zone : Zone) : (request : Call) → request.Reply → Prop
  | .robot .currentZone, .ok found => found = zone
  | _, _ => True

namespace DispatchContext

/-- Executes a step of a flat list: the marker asks for the zone once. -/
def execute (context : DispatchContext) (zone : Zone) (length : Nat) (step : ActionStep) :
    Command → Task RunError Unit
  | .zoneChoice => do
      let _ ← Task.currentZone RunError.ofClassifier
      Task.record .info dispatchTag s!"Target zone {zone.name}: {length} branch actions"
  | command => context.carryOut step command

/-- The plain loop: polls, resolves, executes and counts one step after the other.  Gives the steps
that were executed, those before included. -/
def plainLoop (context : DispatchContext) (zone : Zone) (length : Nat)
    (executed : List ActionStep) : List ActionStep → Task RunError (Flow × List ActionStep)
  | [] => pure (.finished, executed)
  | step :: rest => do
      if ← Task.isActive then
        let command ← Task.ofExcept (Command.resolve step)
        Task.record .debug dispatchTag s!"Executing command {step.commandName}"
        context.execute zone length step command
        plainLoop context zone length (executed ++ [step]) rest
      else pure (.stopped, executed)

/-- What is reported of executed steps: their number, and the zone if the marker is among them. -/
def tally (state : RunState) (zone : Zone) (executed : List ActionStep) : Progress where
  state
  stepsExecuted := executed.length
  zone := if executed.any ActionStep.isMarker then some zone else none

def plainConclude (context : DispatchContext) (zone : Zone) :
    Outcome RunError (Flow × List ActionStep) → Task RunError RunReport
  | .value (.finished, executed) => do
      Task.record .info dispatchTag "Exiting dispatcher"
      Task.addItem context.tag completionText
      Task.ignoringFailure (Program.robot .refresh)
      pure (tally .completed zone executed)
  | .value (.stopped, executed) => do
      Task.record .info dispatchTag "Exiting dispatcher"
      pure (tally .aborted zone executed)
  | .error error => do
      Task.record .info dispatchTag "Exiting dispatcher"
      Task.throw error
  | .crash crash => Task.crash crash
  | .halted => Task.halted
  | .waiting => Task.waiting

/-- A run that takes the steps off the agenda of a zone. -/
def plainRun (context : DispatchContext) (configuration : Configuration) (zone : Zone) :
    Task RunError RunReport := do
  Task.record .info dispatchTag "At start"
  Task.record .info dispatchTag s!"OpMode: {context.tag}, Alliance: {context.alliance.name}"
  if ← Task.isActive then
    Program.bind
      (context.plainLoop zone (configuration.zoneSteps zone).length [] (configuration.agenda zone))
      (context.plainConclude zone)
  else
    Task.record .info dispatchTag "OpMode inactive at start; aborting run"
    pure (tally .aborted zone [])

variable {context : DispatchContext} {configuration : Configuration} {zone : Zone} {length : Nat}

def plainLoopOnto (context : DispatchContext) (zone : Zone) (length : Nat)
    (rest : List ActionStep) : Flow × List ActionStep → Task RunError (Flow × List ActionStep)
  | (.finished, executed) => context.plainLoop zone length executed rest
  | (.stopped, executed) => pure (.stopped, executed)

theorem plainLoop_append (executed first second : List ActionStep) :
    context.plainLoop zone length executed (first ++ second) =
      (context.plainLoop zone length executed first).bind
        (context.plainLoopOnto zone length second) := by
  induction first generalizing executed with
  | nil => rfl
  | cons step rest inductionHypothesis =>
      rw [List.cons_append, plainLoop, plainLoop]
      simp only [Task.bind_def, Task.bind_assoc, Task.pure_def]
      congr 1
      funext live
      cases live with
      | false => simp [plainLoopOnto]
      | true => simp [inductionHypothesis, Task.bind_assoc]

def Tallied (zone : Zone) (flow : Flow) (after : Progress) (ending : Flow × List ActionStep) :
    Prop :=
  ending.1 = flow ∧ after = tally .running zone ending.2

/-- The dispatcher runs steps as the plain loop runs the steps of a list. -/
def RunsPlainly (context : DispatchContext) (zone : Zone) (length : Nat)
    (executed : List ActionStep) (part : Dispatch Flow) (list : List ActionStep) : Prop :=
  Simulates (FindsZone zone) (Corresponds (Tallied zone)) (part (tally .running zone executed))
    (context.plainLoop zone length executed list)

variable {branch : Dispatch Flow} {step : ActionStep} {rest list executed : List ActionStep}

theorem runsPlainly_cons
    (follows : ∀ command, Command.resolve step = .ok command →
      Simulates (FindsZone zone) (Corresponds (Tallied zone))
        (context.afterArrival branch step rest (some command) (tally .running zone executed))
        ((context.execute zone length step command).bind fun _ =>
          context.plainLoop zone length (executed ++ [step]) list)) :
    context.RunsPlainly zone length executed (context.runSteps branch (step :: rest))
      (step :: list) := by
  unfold RunsPlainly
  rw [runSteps_cons, arrive, plainLoop]
  simp only [Dispatch.bind_def, Dispatch.bind_assoc, Task.bind_def]
  refine Dispatch.simulates_bind (Dispatch.simulates_lift Task.isActive _) ?_
  rintro _ _ live ⟨rfl, rfl⟩
  cases live with
  | false =>
      simp only [Bool.false_eq_true, if_false]
      exact .done (.value ⟨rfl, rfl⟩)
  | true =>
      simp only [if_true]
      cases resolved : Command.resolve step with
      | error error =>
          rw [beginStep_of_error resolved]
          exact .done (.stop (.error error))
      | ok command =>
          rw [beginStep_of_ok resolved]
          exact .call fun _ _ => follows command resolved

theorem counted_tally_of_other (other : step.isMarker = false) :
    counted (tally .running zone executed) = tally .running zone (executed ++ [step]) := by
  simp [counted, tally, other]

theorem zone_tally_of_marker (marker : step.isMarker = true) :
    { counted (tally .running zone executed) with zone := some zone } =
      tally .running zone (executed ++ [step]) := by
  simp [counted, tally, marker]

theorem runsPlainly_cons_of_other (other : step.isMarker = false)
    (plainly : context.RunsPlainly zone length (executed ++ [step])
      (context.runSteps branch rest) list) :
    context.RunsPlainly zone length executed (context.runSteps branch (step :: rest))
      (step :: list) := by
  refine runsPlainly_cons ?_
  intro command resolved
  have noChoice : command ≠ .zoneChoice := by
    rintro rfl
    rw [Command.resolve_eq_zoneChoice_iff.mp resolved] at other
    cases other
  have carries : context.execute zone length step command = context.carryOut step command := by
    cases command with
    | zoneChoice => exact absurd rfl noChoice
    | _ => rfl
  rw [afterArrival_of_other noChoice, carries]
  refine Dispatch.simulates_bind (Dispatch.simulates_lift (context.carryOut step command) _) ?_
  rintro _ _ _ ⟨rfl, rfl⟩
  change Simulates _ _ (context.runSteps branch rest (counted (tally .running zone executed))) _
  rw [counted_tally_of_other other]
  exact plainly

theorem runsPlainly_of_plain {steps : List ActionStep}
    (plain : ∀ step ∈ steps, step.isMarker = false) :
    context.RunsPlainly zone length executed (context.runSteps branch steps) steps := by
  induction steps generalizing executed with
  | nil => exact .done (.value ⟨rfl, rfl⟩)
  | cons step rest inductionHypothesis =>
      rw [List.forall_mem_cons] at plain
      exact runsPlainly_cons_of_other plain.1 (inductionHypothesis plain.2)

theorem simulates_classify {table : BranchTable}
    (tabled : configuration.branchTable = some table) (marker : step.isMarker = true) :
    Simulates (FindsZone zone)
      (Corresponds fun spliced after (_ : Unit) =>
        spliced = table.get zone ∧ after = tally .running zone (executed ++ [step]))
      (classify configuration (counted (tally .running zone executed)))
      (context.execute zone (table.get zone).length step .zoneChoice) := by
  rw [classify, requireTable, tabled]
  refine .call fun answer finds => ?_
  cases answer with
  | ok found =>
      cases finds
      refine .call fun _ _ => .done (.value ⟨rfl, zone_tally_of_marker marker⟩)
  | failed failure => exact .done (.stop (.error (RunError.ofClassifier failure)))
  | crashed crash => exact .done (.stop (.crash crash))

/-- The marker, with the sequence of the zone in its place, is run plainly. -/
theorem runsPlainly_cons_of_marker {levels : Nat} {table : BranchTable}
    (branches : configuration.Branches) (tabled : configuration.branchTable = some table)
    (marker : step.isMarker = true)
    (plainly : ∀ executed, context.RunsPlainly zone (table.get zone).length executed
      (context.runSteps (context.runBranch configuration (levels + 1)) rest) list) :
    context.RunsPlainly zone (table.get zone).length executed
      (context.runSteps (context.runBranch configuration (levels + 1)) (step :: rest))
      (step :: (table.get zone ++ list)) := by
  refine runsPlainly_cons ?_
  intro command resolved
  have choice : command = .zoneChoice := by
    rw [Command.resolve_eq_zoneChoice_iff.mpr marker] at resolved
    exact (Except.ok.inj resolved).symm
  subst choice
  change Simulates _ _ ((context.runBranch configuration (levels + 1)).bind
    (context.afterBranch _ rest) (counted (tally .running zone executed))) _
  rw [runBranch_succ] at plainly ⊢
  rw [Dispatch.bind_assoc]
  refine Dispatch.simulates_bind (simulates_classify tabled marker) ?_
  rintro _ _ _ ⟨rfl, rfl⟩
  rw [plainLoop_append]
  refine Dispatch.simulates_bind (runsPlainly_of_plain (branches.plain table tabled zone)) ?_
  rintro _ _ ⟨flow, done⟩ ⟨rfl, rfl⟩
  cases flow with
  | stopped => exact .done (.value ⟨rfl, rfl⟩)
  | finished => exact plainly done

theorem runsPlainly_runSteps (branches : configuration.Branches) {table : BranchTable}
    (tabled : configuration.branchTable = some table) (levels : Nat) (steps : List ActionStep) :
    ∀ executed, context.RunsPlainly zone (table.get zone).length executed
      (context.runSteps (context.runBranch configuration (levels + 1)) steps)
      (splice (table.get zone) steps) := by
  induction steps with
  | nil =>
      intro executed
      exact .done (.value ⟨rfl, rfl⟩)
  | cons step rest inductionHypothesis =>
      intro executed
      cases marker : step.isMarker with
      | true =>
          rw [splice_cons_of_marker marker]
          exact runsPlainly_cons_of_marker branches tabled marker inductionHypothesis
      | false =>
          rw [splice_cons_of_other marker]
          exact runsPlainly_cons_of_other marker (inductionHypothesis (executed ++ [step]))

theorem runsPlainly_runActions (branches : configuration.Branches) :
    context.RunsPlainly zone (configuration.zoneSteps zone).length []
      (context.runActions configuration) (configuration.agenda zone) := by
  rw [runActions, Configuration.agenda]
  cases tabled : configuration.branchTable with
  | none =>
      have plain := branches.plain_of_noTable tabled
      rw [splice_of_plain plain]
      exact runsPlainly_of_plain plain
  | some table =>
      have sequence : configuration.zoneSteps zone = table.get zone := by
        rw [Configuration.zoneSteps, tabled]
      rw [sequence]
      exact runsPlainly_runSteps branches tabled context.patience configuration.actions []

def afterAttempt {α β : Type} (next : Except RunError α → Dispatch β) :
    Outcome RunError α × Progress → Program (Outcome RunError β × Progress)
  | (.value a, progress) => next (.ok a) progress
  | (.error error, progress) => next (.error error) progress
  | (.crash crash, progress) => .done (.crash crash, progress)
  | (.halted, progress) => .done (.halted, progress)
  | (.waiting, progress) => .done (.waiting, progress)

theorem attempt_bind {α β : Type} (part : Dispatch α) (next : Except RunError α → Dispatch β)
    (before : Progress) :
    (Dispatch.attempt part).bind next before =
      Program.bind (part before) (afterAttempt next) := by
  refine (Program.bind_assoc (part before) _ (Dispatch.after next)).trans ?_
  congr 1
  funext ending
  obtain ⟨outcome, _⟩ := ending
  cases outcome <;> rfl

def closing (context : DispatchContext) (ending : Except RunError Flow) : Dispatch RunReport :=
  (Dispatch.record .info "Exiting dispatcher").bind fun _ => context.conclude ending

theorem simulates_closing {ending : Outcome RunError Flow × Progress}
    {plainEnding : Outcome RunError (Flow × List ActionStep)}
    (corresponds : Corresponds (Tallied zone) ending plainEnding) :
    Simulates (FindsZone zone) (fun final outcome => final.1 = outcome)
      (afterAttempt context.closing ending) (context.plainConclude zone plainEnding) := by
  cases corresponds with
  | @value _ _ tallied isTallied =>
      obtain ⟨flow, executed⟩ := tallied
      obtain ⟨rfl, rfl⟩ := isTallied
      cases flow with
      | stopped => exact .call fun _ _ => .done rfl
      | finished =>
          refine .call fun _ _ => .call fun receipt _ => ?_
          cases receipt with
          | crashed crash => exact .done rfl
          | returned =>
              refine .call fun answer _ => ?_
              cases answer <;> exact .done rfl
  | stop passes =>
      cases passes with
      | error error =>
          refine .call fun _ _ => ?_
          cases error <;> exact .done rfl
      | _ => exact .done rfl

/-- A run of the dispatcher makes the calls of the plain loop and gives its result. -/
theorem simulates_run (branches : configuration.Branches) :
    Simulates (FindsZone zone) (fun final outcome => final.1 = outcome)
      (context.run configuration .fresh) (context.plainRun configuration zone) := by
  refine .call fun _ _ => .call fun _ _ => .call fun live _ => ?_
  cases live with
  | false => exact .call fun _ _ => .done rfl
  | true =>
      have attempts := attempt_bind (context.runActions configuration) context.closing
        (tally .running zone [])
      change Simulates _ _
        ((Dispatch.attempt (context.runActions configuration)).bind context.closing
          (tally .running zone []))
        (Program.bind (context.plainLoop zone (configuration.zoneSteps zone).length []
          (configuration.agenda zone)) (context.plainConclude zone))
      rw [attempts]
      exact Program.Simulates.bind (runsPlainly_runActions branches) fun _ _ => simulates_closing

end DispatchContext

end RobotRoutine
