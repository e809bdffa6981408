import Mathlib.Data.List.Forall2
import RobotRoutine.Check.Basic
import RobotRoutine.Proofs.Program.Obliging
import RobotRoutine.Proofs.Run.Visits

/-!
The letter case of step names.

A dispatcher knows a step by its name in capitals and by its attributes, and what it writes into the
run log or puts into an error it takes from there too.  So steps whose names differ in nothing but
the case of ASCII letters are the same command, and configurations that differ in such names alone
are one program: the same calls, the same records and the same result, whatever is answered.  The
check tells them apart only where it lists a name that it does not know.
-/

namespace RobotRoutine

namespace Text

/-- The same character, or an ASCII letter in its two cases, which are thirty-two places apart. -/
def SameLetter (c d : Char) : Prop :=
  c = d ∨ c.isAlpha = true ∧ d.isAlpha = true ∧ (c.toNat = d.toNat + 32 ∨ d.toNat = c.toNat + 32)

/-- Texts that differ at most in the case of their ASCII letters. -/
def SameButCase (s t : String) : Prop := List.Forall₂ SameLetter s.toList t.toList

theorem isAlpha_iff {c : Char} :
    c.isAlpha = true ↔ 65 ≤ c.toNat ∧ c.toNat ≤ 90 ∨ 97 ≤ c.toNat ∧ c.toNat ≤ 122 := by
  have capital : c.isUpper = decide ('A'.val ≤ c.val ∧ c.val ≤ 'Z'.val) := rfl
  have small : c.isLower = (decide ('a'.val ≤ c.val) && decide (c.val ≤ 'z'.val)) := rfl
  have letter : c.isAlpha = (c.isUpper || c.isLower) := rfl
  simp only [letter, capital, small, Bool.or_eq_true, Bool.and_eq_true, decide_eq_true_eq,
    UInt32.le_iff_toNat_le]
  exact Iff.rfl

theorem toNat_toUpper (c : Char) :
    c.toUpper.toNat = if 97 ≤ c.toNat ∧ c.toNat ≤ 122 then c.toNat - 32 else c.toNat := by
  unfold Char.toUpper
  split
  case isTrue lower =>
    have bounds : 97 ≤ c.toNat ∧ c.toNat ≤ 122 := lower
    rw [if_pos bounds]
    change (c.val + ('A'.val - 'a'.val)).toNat = c.val.toNat - 32
    have below : c.val.toNat ≤ 122 := bounds.2
    have above : 97 ≤ c.val.toNat := bounds.1
    rw [UInt32.toNat_add]
    change (c.val.toNat + 4294967264) % 4294967296 = _
    omega
  case isFalse other => exact (if_neg other).symm

theorem toUpper_eq_iff {c d : Char} : c.toUpper = d.toUpper ↔ SameLetter c d := by
  rw [SameLetter, isAlpha_iff, isAlpha_iff, ← Char.toNat_inj, ← Char.toNat_inj, toNat_toUpper,
    toNat_toUpper]
  split <;> split <;> omega

/-- Capitals tell apart all that differs in more than the case of ASCII letters. -/
theorem upper_eq_iff {s t : String} : upper s = upper t ↔ SameButCase s t := by
  rw [upper, upper, String.ofList_inj, ← List.forall₂_eq_eq_eq, List.forall₂_map_left_iff,
    List.forall₂_map_right_iff]
  simp only [toUpper_eq_iff]
  exact Iff.rfl

end Text

/-! What may differ in its letter case. -/

structure ActionStep.SameButCase (step twin : ActionStep) : Prop where
  name : Text.SameButCase step.name twin.name
  attributes : step.attributes = twin.attributes

def BranchTable.SameButCase (table twin : BranchTable) : Prop :=
  ∀ zone, List.Forall₂ ActionStep.SameButCase (table.get zone) (twin.get zone)

/-- Configurations that differ at most in the letter case of step names. -/
structure Configuration.SameButCase (configuration twin : Configuration) : Prop where
  loggingThreshold : configuration.loggingThreshold = twin.loggingThreshold
  regionOfInterest : configuration.regionOfInterest = twin.regionOfInterest
  tagsOfInterest : configuration.tagsOfInterest = twin.tagsOfInterest
  startingPose : configuration.startingPose = twin.startingPose
  actions : List.Forall₂ ActionStep.SameButCase configuration.actions twin.actions
  branchTable : Option.Rel BranchTable.SameButCase configuration.branchTable twin.branchTable

theorem isBranchMarker_iff {name : String} :
    isBranchMarker name = true ↔ Text.SameButCase name branchMarker := by
  rw [isBranchMarker, Text.sameIgnoringCase_iff, Text.upper_eq_iff]

/-- A dotless letter is none of the marker's, in whichever case. -/
example : isBranchMarker "ocv_choıce" = false := by decide

/-! Steps. -/

namespace ActionStep.SameButCase

variable {step twin : ActionStep}

theorem commandName (same : step.SameButCase twin) : step.commandName = twin.commandName :=
  Text.upper_eq_iff.mpr same.name

theorem attribute? (same : step.SameButCase twin) (key : String) :
    step.attribute? key = twin.attribute? key := by
  rw [ActionStep.attribute?, same.attributes, ActionStep.attribute?]

theorem resolve (same : step.SameButCase twin) : Command.resolve step = Command.resolve twin := by
  simp only [Command.resolve, Command.optionalSeconds, Command.requiredMillis, same.commandName,
    same.attribute?]

end ActionStep.SameButCase

/-! Runs. -/

namespace DispatchContext

variable {context : DispatchContext} {step twin : ActionStep} {configuration other : Configuration}

theorem beginStep_congr (same : step.SameButCase twin) : beginStep step = beginStep twin := by
  rw [beginStep, beginStep, same.resolve, same.commandName]

theorem carryOut_congr (same : step.SameButCase twin) (command : Command) :
    context.carryOut step command = context.carryOut twin command := by
  cases command with
  | drive direction duration =>
      have lasts : context.driveDuration step duration = context.driveDuration twin duration := by
        cases duration <;> simp only [driveDuration, same.commandName]
      simp only [carryOut, lasts]
  | _ => simp only [carryOut]

theorem runSteps_congr {branch : Dispatch Flow} {steps twins : List ActionStep}
    (same : List.Forall₂ ActionStep.SameButCase steps twins) :
    context.runSteps branch steps = context.runSteps branch twins := by
  induction same with
  | nil => simp only [runSteps]
  | cons sameStep _ inductionHypothesis =>
      simp only [runSteps, beginStep_congr sameStep, carryOut_congr sameStep, inductionHypothesis]

/-- The tables themselves differ, but of them a run uses the sequence of a zone and its length. -/
theorem runBranch_congr (same : configuration.SameButCase other) (levels : Nat) :
    context.runBranch configuration levels = context.runBranch other levels := by
  induction levels with
  | zero => simp only [runBranch]
  | succ levels inductionHypothesis =>
      have tables := same.branchTable
      rw [runBranch, runBranch, inductionHypothesis]
      cases tabled : configuration.branchTable with
      | none =>
          rw [tabled] at tables
          cases tabledToo : other.branchTable with
          | none => simp only [requireTable, tabled, tabledToo]
          | some twin =>
              rw [tabledToo] at tables
              cases tables
      | some table =>
          rw [tabled] at tables
          cases tabledToo : other.branchTable with
          | none =>
              rw [tabledToo] at tables
              cases tables
          | some twin =>
              rw [tabledToo] at tables
              obtain ⟨sameZones⟩ := tables
              have lengths (zone : Zone) : (table.get zone).length = (twin.get zone).length :=
                (sameZones zone).length_eq
              have runs (zone : Zone) :
                  context.runSteps (context.runBranch other levels) (table.get zone) =
                    context.runSteps (context.runBranch other levels) (twin.get zone) :=
                runSteps_congr (sameZones zone)
              simp only [requireTable, tabled, tabledToo, Task.ofExcept, Dispatch.lift_result,
                Dispatch.bind_def, Dispatch.result_bind, lengths, runs]

/-- Configurations that differ in the case of step names are run by one and the same program. -/
theorem run_congr (same : configuration.SameButCase other) :
    context.run configuration = context.run other := by
  have acts : context.runActions configuration = context.runActions other := by
    rw [runActions, runActions, runBranch_congr same, runSteps_congr same.actions]
  rw [run, run, acts]

end DispatchContext

/-! The check. -/

namespace Check

variable {configuration other : Configuration}

theorem branchSteps_congr {table twin : Option BranchTable}
    (same : Option.Rel BranchTable.SameButCase table twin) :
    List.Forall₂ ActionStep.SameButCase (branchSteps table) (branchSteps twin) := by
  cases same with
  | none => exact .nil
  | some sameZones =>
      simp only [branchSteps, Zone.all, List.flatMap_cons, List.flatMap_nil, List.append_nil]
      apply List.rel_append (sameZones .left)
      exact List.rel_append (sameZones .center) (sameZones .right)

theorem allSteps_congr (same : configuration.SameButCase other) :
    List.Forall₂ ActionStep.SameButCase (allSteps configuration) (allSteps other) :=
  List.rel_append same.actions (branchSteps_congr same.branchTable)

theorem branchCounts_congr {table twin : Option BranchTable}
    (same : Option.Rel BranchTable.SameButCase table twin) :
    table.map branchCounts = twin.map branchCounts := by
  cases same with
  | none => simp only [Option.map_none]
  | @some table twin sameZones =>
      have lengths (zone : Zone) : (table.get zone).length = (twin.get zone).length :=
        (sameZones zone).length_eq
      simp only [Option.map_some, branchCounts, lengths]

/-- A name that is not known is listed as it is written. -/
theorem unsupportedName?_congr {step twin : ActionStep} (same : step.SameButCase twin) :
    Option.Rel Text.SameButCase (unsupportedName? step) (unsupportedName? twin) := by
  simp only [unsupportedName?, same.resolve]
  split
  · exact .some same.name
  · exact .none

theorem invalidText?_congr {steps twins : List ActionStep}
    (same : List.Forall₂ ActionStep.SameButCase steps twins) :
    steps.filterMap invalidText? = twins.filterMap invalidText? := by
  induction same with
  | nil => simp only [List.filterMap_nil]
  | @cons step twin _ _ sameStep _ inductionHypothesis =>
      have text : invalidText? step = invalidText? twin := by
        simp only [invalidText?, sameStep.resolve]
      simp only [List.filterMap_cons, text, inductionHypothesis]

/-- Summaries that differ at most in how unknown names are written. -/
structure SameButNames (summary twin : CheckSummary) : Prop where
  selector : summary.selector = twin.selector
  actions : summary.actions = twin.actions
  branches : summary.branches = twin.branches
  unsupported : List.Forall₂ Text.SameButCase summary.unsupported twin.unsupported
  invalid : summary.invalid = twin.invalid

theorem unsupportedNames_congr {steps twins : List ActionStep}
    (same : List.Forall₂ ActionStep.SameButCase steps twins) :
    List.Forall₂ Text.SameButCase (steps.filterMap unsupportedName?)
      (twins.filterMap unsupportedName?) := by
  induction same with
  | nil => exact .nil
  | @cons step twin _ _ sameStep _ inductionHypothesis =>
      have names := unsupportedName?_congr sameStep
      rw [List.filterMap_cons, List.filterMap_cons]
      generalize unsupportedName? step = name at names
      generalize unsupportedName? twin = other at names
      cases names with
      | none => exact inductionHypothesis
      | some sameName => exact .cons sameName inductionHypothesis

theorem summary_congr (same : configuration.SameButCase other) (selector : String) :
    SameButNames (summary selector configuration) (summary selector other) := by
  have steps := allSteps_congr same
  constructor
  · simp only [summary]
  · simp only [summary, same.actions.length_eq]
  · simp only [summary, branchCounts_congr same.branchTable]
  · simp only [summary]
    exact unsupportedNames_congr steps
  · simp only [summary, invalidText?_congr steps]

end Check

/-- Letter case is of no account from the marker to the report: a name is the marker's exactly if
its step is the choice of a zone, and configurations that differ in the case of step names alone
make the same calls with the same texts, records of the run log among them, and give the same
result, whatever is answered; the check counts the same and finds the same values invalid. -/
theorem DispatchContext.run_blindToLetterCase (context : DispatchContext) :
    (∀ name attributes, isBranchMarker name = true ↔
      Command.resolve ⟨name, attributes⟩ = .ok .zoneChoice) ∧
    ∀ {configuration other : Configuration}, configuration.SameButCase other →
      context.run configuration = context.run other ∧
        ∀ selector, Check.SameButNames (Check.summary selector configuration)
          (Check.summary selector other) := by
  constructor
  · intro name attributes
    have marks (step : ActionStep) :
        step.isMarker = true ↔ Command.resolve step = .ok .zoneChoice :=
      Command.resolve_eq_zoneChoice_iff.symm
    exact marks ⟨name, attributes⟩
  · intro configuration other same
    exact ⟨run_congr same, Check.summary_congr same⟩

/-- A drive, a choice and a step that is not known, of which the last has a letter beyond ASCII. -/
def spelled (drive marker unknown : String) : Configuration where
  loggingThreshold := none
  regionOfInterest := .empty
  tagsOfInterest := []
  startingPose := none
  actions := [⟨drive, [("seconds", "fast")]⟩, ⟨marker, []⟩]
  branchTable := some ⟨[⟨unknown, []⟩], [], [⟨drive, []⟩]⟩

theorem sameButCase_spelled {drive marker unknown drive' marker' unknown' : String}
    (drives : Text.upper drive = Text.upper drive')
    (markers : Text.upper marker = Text.upper marker')
    (unknowns : Text.upper unknown = Text.upper unknown') :
    (spelled drive marker unknown).SameButCase (spelled drive' marker' unknown') := by
  have step {name name' : String} (same : Text.upper name = Text.upper name')
      (attributes : List (String × String)) :
      ActionStep.SameButCase ⟨name, attributes⟩ ⟨name', attributes⟩ :=
    ⟨Text.upper_eq_iff.mp same, rfl⟩
  refine ⟨rfl, rfl, rfl, rfl, ?_, .some ?_⟩
  · exact .cons (step drives _) (.cons (step markers _) .nil)
  · intro zone
    cases zone with
    | left => exact .cons (step unknowns _) .nil
    | center => exact .nil
    | right => exact .cons (step drives _) .nil

theorem DispatchContext.run_blindToLetterCase_spelled :
    let configuration := spelled "Forward_by_Time" "ocv_choice" "danſe"
    let other := spelled "FORWARD_BY_TIME" "OCV_Choice" "DANſE"
    configuration ≠ other ∧ configuration.SameButCase other ∧
      sampleContext.run configuration = sampleContext.run other ∧
      Check.SameButNames (Check.summary "T" configuration) (Check.summary "T" other) := by
  have same : (spelled "Forward_by_Time" "ocv_choice" "danſe").SameButCase
      (spelled "FORWARD_BY_TIME" "OCV_Choice" "DANſE") := by
    apply sameButCase_spelled <;> decide
  obtain ⟨runs, summaries⟩ := (run_blindToLetterCase sampleContext).2 same
  exact ⟨by decide, same, runs, summaries "T"⟩

end RobotRoutine
