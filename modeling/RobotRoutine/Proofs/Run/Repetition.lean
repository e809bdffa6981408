import Mathlib.Data.List.Forall2
import RobotRoutine.Proofs.Document.Reader
import RobotRoutine.Proofs.Program.Obliging
import RobotRoutine.Proofs.Program.Runs
import RobotRoutine.Proofs.Run.Rules

/-!
Several runs on one dispatcher.

A dispatcher keeps its progress from one run to the next, and a run sets the state anew but neither
the count of steps nor the zone.  So a run goes as on a new dispatcher, call by call, and its
progress is that of a new dispatcher on top of what was carried over: every part of a run commutes
with putting a progress on top of another.
-/

namespace RobotRoutine

open Program (Runs Event)

/-- The progress of a run after other runs: the steps of those are counted in, and their zone stays
as long as the run has none of its own. -/
def Progress.onTop (own carried : Progress) : Progress where
  state := own.state
  stepsExecuted := carried.stepsExecuted + own.stepsExecuted
  zone := own.zone.or carried.zone

namespace Outcome

variable {ε α β : Type}

def map (f : α → β) : Outcome ε α → Outcome ε β
  | .value a => .value (f a)
  | .error e => .error e
  | .crash c => .crash c
  | .halted => .halted
  | .waiting => .waiting

@[simp] theorem map_id (outcome : Outcome ε α) : outcome.map id = outcome := by
  cases outcome <;> rfl

theorem map_eq_value_iff {f : α → β} {outcome : Outcome ε α} {b : β} :
    outcome.map f = .value b ↔ ∃ a, outcome = .value a ∧ f a = b := by
  cases outcome <;> simp [map]

def value? : Outcome ε α → Option α
  | .value a => some a
  | .error _ => none
  | .crash _ => none
  | .halted => none
  | .waiting => none

theorem value?_eq_some_iff {outcome : Outcome ε α} {a : α} :
    outcome.value? = some a ↔ outcome = .value a := by
  cases outcome <;> simp [value?]

end Outcome

namespace Dispatch

variable {α β : Type} {carried : Progress}

/-- The ending of a part, put on top of what was carried over. -/
def endingOnTop (carried : Progress) (values : α → β) (ending : Outcome RunError α × Progress) :
    Outcome RunError β × Progress :=
  (ending.1.map values, ending.2.onTop carried)

/-- A part that does the same whatever was carried over, and ends on top of it. -/
def Stacks (carried : Progress) (values : α → α) (part : Dispatch α) : Prop :=
  ∀ own, part (own.onTop carried) =
    (part own).bind fun ending => .done (endingOnTop carried values ending)

theorem stacks_result (a : α) : (result a).Stacks carried id := fun _ => rfl

theorem stacks_update {change : Progress → Progress}
    (commutes : ∀ own, change (own.onTop carried) = (change own).onTop carried) :
    (update change).Stacks carried id := by
  intro own
  change Program.done _ = Program.done _
  rw [commutes]
  rfl

theorem stacks_setState (state : RunState) : (setState state).Stacks carried id :=
  stacks_update fun _ => rfl

theorem stacks_countStep : countStep.Stacks carried id :=
  stacks_update fun own => by simp [Progress.onTop, Nat.add_assoc]

theorem stacks_setZone (zone : Zone) : (setZone zone).Stacks carried id :=
  stacks_update fun own => by simp [Progress.onTop]

/-- Only here is the progress itself given as a value. -/
theorem stacks_progress : progress.Stacks carried (·.onTop carried) := fun _ => rfl

theorem stacks_lift (task : Task RunError α) : (lift task).Stacks carried id := by
  intro own
  refine Eq.trans ?_ (Program.bind_assoc task _ _).symm
  refine congrArg (Program.bind task) (funext fun outcome => ?_)
  simp [endingOnTop]

theorem stacks_throw (error : RunError) {values : α → α} : (throw error).Stacks carried values :=
  fun _ => rfl

theorem stacks_bind {part : Dispatch α} {next : α → Dispatch β} {values : β → β}
    (isStacked : part.Stacks carried id) (nextIsStacked : ∀ a, (next a).Stacks carried values) :
    (part.bind next).Stacks carried values := by
  intro own
  change (part _).bind _ = ((part own).bind _).bind _
  rw [isStacked own, Program.bind_assoc, Program.bind_assoc]
  congr 1
  funext ending
  obtain ⟨outcome, middle⟩ := ending
  cases outcome with
  | value a => exact nextIsStacked a middle
  | _ => rfl

theorem stacks_attempt {part : Dispatch α} (isStacked : part.Stacks carried id) :
    (attempt part).Stacks carried id := by
  intro own
  change (part _).bind _ = ((part own).bind _).bind _
  rw [isStacked own, Program.bind_assoc, Program.bind_assoc]
  congr 1
  funext ending
  obtain ⟨outcome, middle⟩ := ending
  cases outcome <;> rfl

theorem stacks_record (level : LogLevel) (text : String) :
    (record level text).Stacks carried id :=
  stacks_lift _

end Dispatch

namespace DispatchContext

open Dispatch

variable {context : DispatchContext} {configuration : Configuration} {carried after : Progress}
  {events : List Event}

theorem stepRules_stacks :
    context.StepRules configuration fun part => part.Stacks carried id where
  result := stacks_result
  waiting := stacks_lift _
  bind := stacks_bind
  record := stacks_record
  isActive := stacks_lift _
  resolve _ := stacks_lift _
  carryOut _ _ := stacks_lift _
  countStep := stacks_countStep
  requireTable := stacks_lift _
  currentZone := stacks_lift _
  setZone := stacks_setZone

/-- The report is the progress of the dispatcher, so it is on top of what was carried over. -/
theorem stacks_conclude (ending : Except RunError Flow) :
    (context.conclude ending).Stacks carried (·.onTop carried) := by
  match ending with
  | .ok .finished =>
      refine stacks_bind (stacks_setState _) fun _ => stacks_bind (stacks_lift _) fun _ => ?_
      exact stacks_bind (stacks_lift _) fun _ => stacks_progress
  | .ok .stopped => exact stacks_bind (stacks_setState _) fun _ => stacks_progress
  | .error .interrupted => exact stacks_bind (stacks_setState _) fun _ => stacks_throw _
  | .error (.unsupportedCommand _) | .error (.classificationFailed _)
  | .error (.invalidValue _ _ _) | .error (.missingBranchTable _) | .error (.device _) =>
      exact stacks_bind (stacks_setState _) fun _ => stacks_throw _

theorem stacks_run : (context.run configuration).Stacks carried (·.onTop carried) := by
  refine stacks_bind (stacks_record _ _) fun _ => stacks_bind (stacks_record _ _) fun _ => ?_
  apply stacks_bind (stacks_lift _)
  intro live
  cases live with
  | false =>
      refine stacks_bind (stacks_record _ _) fun _ => ?_
      exact stacks_bind (stacks_setState _) fun _ => stacks_progress
  | true =>
      refine stacks_bind (stacks_setState _) fun _ => ?_
      apply stacks_bind (stacks_attempt stepRules_stacks.runActions)
      intro ending
      exact stacks_bind (stacks_record _ _) fun _ => stacks_conclude ending

/-- A run sets the state before it looks at it. -/
theorem run_onTop_fresh : context.run configuration (Progress.fresh.onTop carried) =
    context.run configuration carried := by
  obtain ⟨state, steps, zone⟩ := carried
  refine congrArg (Program.call _) (funext fun _ => congrArg (Program.call _) (funext fun _ => ?_))
  refine congrArg (Program.call _) (funext fun live => ?_)
  cases live <;> rfl

/-- Whatever was carried over, a run goes as on a new dispatcher and ends on top of it. -/
theorem runs_run_iff {ending : Outcome RunError RunReport × Progress} :
    Runs (context.run configuration carried) events ending ↔
      ∃ own, Runs (context.run configuration .fresh) events own ∧
        ending = endingOnTop carried (·.onTop carried) own := by
  rw [← run_onTop_fresh, stacks_run]
  constructor
  · intro runs
    obtain ⟨first, second, own, rfl, runsOwn, runsEnd⟩ := Program.runs_of_bind runs
    obtain ⟨rfl, rfl⟩ := Program.runs_done_iff.mp runsEnd
    rw [List.append_nil]
    exact ⟨own, runsOwn, rfl⟩
  · rintro ⟨own, runsOwn, rfl⟩
    rw [← List.append_nil events]
    exact Program.runs_bind runsOwn .done

/-- A run that a dispatcher has made, whatever its ending. -/
structure Performed where
  configuration : Configuration
  events : List Event
  outcome : Outcome RunError RunReport

/-- Runs that a dispatcher makes one after the other. -/
inductive Session (context : DispatchContext) : Progress → List Performed → Progress → Prop where
  | idle {progress} : Session context progress [] progress
  | run {before middle after configuration events outcome rest} :
      Runs (context.run configuration before) events (outcome, middle) →
      Session context middle rest after →
      Session context before (⟨configuration, events, outcome⟩ :: rest) after

/-- The progress that a run leaves on a new dispatcher, given the same replies. -/
def Own (context : DispatchContext) (performed : Performed) (own : Progress) : Prop :=
  ∃ outcome, Runs (context.run performed.configuration .fresh) performed.events (outcome, own)

def totalSteps (owns : List Progress) : Nat :=
  owns.foldr (fun own total => own.stepsExecuted + total) 0

/-- The zone that was classified last. -/
def lastZone? (owns : List Progress) : Option Zone := (owns.filterMap Progress.zone).getLast?

theorem lastZone?_cons (own : Progress) (owns : List Progress) :
    lastZone? (own :: owns) = (lastZone? owns).or own.zone := by
  cases zone : own.zone with
  | none => simp [lastZone?, zone]
  | some classified => simp [lastZone?, zone, List.getLast?_cons, Option.or_some]

/-- What was carried over from the runs of a session: all their steps, and their last zone. -/
theorem carried_of_session {before : Progress} {performed : List Performed}
    (session : context.Session before performed after) :
    ∃ owns, List.Forall₂ context.Own performed owns ∧
      after.stepsExecuted = before.stepsExecuted + totalSteps owns ∧
      after.zone = (lastZone? owns).or before.zone := by
  induction session with
  | idle => exact ⟨[], .nil, rfl, rfl⟩
  | @run before middle _ _ _ _ _ runs _ inductionHypothesis =>
      obtain ⟨⟨outcome, own⟩, runsOwn, same⟩ := runs_run_iff.mp runs
      obtain ⟨owns, each, steps, zone⟩ := inductionHypothesis
      obtain rfl : middle = own.onTop before := (Prod.mk.inj same).2
      refine ⟨own :: owns, .cons ⟨outcome, runsOwn⟩ each, ?_, ?_⟩
      · rw [steps]
        exact Nat.add_assoc _ _ _
      · rw [zone, lastZone?_cons, Option.or_assoc]
        rfl

/-- A run that follows others is told of as on a new dispatcher, but the steps of the others are
counted in, and their last zone stands if it has none of its own.  So its report is its own exactly
if the others executed no step and, unless it classifies a zone itself, classified none. -/
theorem report_of_session {earlier : List Performed} {report : RunReport}
    (session : context.Session .fresh earlier carried)
    (runs : Runs (context.run configuration carried) events (.value report, after)) :
    ∃ owns own final, List.Forall₂ context.Own earlier owns ∧
      Runs (context.run configuration .fresh) events (.value own, final) ∧
      report.state = own.state ∧
      report.stepsExecuted = totalSteps owns + own.stepsExecuted ∧
      report.zone = own.zone.or (lastZone? owns) ∧
      (report = own ↔ totalSteps owns = 0 ∧ (own.zone = none → lastZone? owns = none)) := by
  obtain ⟨owns, each, steps, zone⟩ := carried_of_session session
  obtain ⟨⟨outcome, final⟩, runsOwn, same⟩ := runs_run_iff.mp runs
  obtain ⟨own, rfl, rfl⟩ := Outcome.map_eq_value_iff.mp (Prod.mk.inj same).1.symm
  have carriedSteps : carried.stepsExecuted = totalSteps owns := by
    rw [steps]
    exact Nat.zero_add _
  have carriedZone : carried.zone = lastZone? owns := by
    rw [zone]
    exact Option.or_none
  refine ⟨owns, own, final, each, runsOwn, rfl, ?_, ?_, ?_⟩
  · rw [← carriedSteps]
    rfl
  · rw [← carriedZone]
    rfl
  · rw [← carriedSteps, ← carriedZone]
    obtain ⟨state, count, _ | classified⟩ := own <;> simp [Progress.onTop]

def sampleSleep : Configuration where
  loggingThreshold := none
  regionOfInterest := .empty
  tagsOfInterest := []
  startingPose := none
  actions := [⟨"sleep", [("ms", "0")]⟩]
  branchTable := none

/-- A sleep is all that the second of two runs does, but the three steps and the zone of the first
run are in its report. -/
theorem report_of_session_sleep :
    ∃ earlier carried events report after own final,
      sampleContext.Session .fresh earlier carried ∧
      Runs (sampleContext.run sampleSleep carried) events (.value report, after) ∧
      Runs (sampleContext.run sampleSleep .fresh) events (.value own, final) ∧
      report = ⟨.completed, 4, some .left⟩ ∧ own.stepsExecuted = 1 := by
  let first := (sampleContext.run Document.sampleConfiguration .fresh).exec (obliging .left) .zero
  let second := (sampleContext.run sampleSleep first.1.2).exec (obliging .left) .zero
  have runsFirst : Runs (sampleContext.run Document.sampleConfiguration .fresh) _ first.1 :=
    Program.runs_exec (obliging .left) _ .zero
  have runsSecond : Runs (sampleContext.run sampleSleep first.1.2) _ second.1 :=
    Program.runs_exec (obliging .left) _ .zero
  have told : second.1.1 = .value ⟨.completed, 4, some .left⟩ :=
    Outcome.value?_eq_some_iff.mp (by decide +kernel)
  have carriedSteps : totalSteps [first.1.2] = 3 := by decide +kernel
  rw [show second.1 = (second.1.1, second.1.2) from rfl, told] at runsSecond
  have session : sampleContext.Session .fresh [⟨_, _, first.1.1⟩] first.1.2 :=
    .run runsFirst .idle
  obtain ⟨owns, own, final, each, runsOwn, _, steps, _⟩ := report_of_session session runsSecond
  cases each with
  | cons isOwn rest =>
      cases rest
      obtain ⟨_, runsToo⟩ := isOwn
      obtain ⟨_, same⟩ := runsFirst.unique runsToo (rfl : _ ++ [] = _ ++ [])
      have same := congrArg Prod.snd same
      dsimp only at same steps
      rw [← same, carriedSteps] at steps
      exact ⟨_, _, _, _, _, own, final, session, runsSecond, runsOwn, rfl, by omega⟩

end DispatchContext

end RobotRoutine
