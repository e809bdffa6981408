import RobotRoutine.Proofs.Program.HeldPower
import RobotRoutine.Proofs.Run.Rules

/-!
What carrying out a command may do.

The loops of a drive and of a breakpoint poll, read and show; they command no power, look at no zone
and never show a run as complete.  A drive adds the two power commands around its turns.  Errors
come from the device or, for a drive that gives no duration, from the settings.
-/

namespace RobotRoutine

def completionText : String := "COMPLETE"

/-- The text of a position has no capital letter but those of the value that is no number. -/
theorem Binary64.wholeText_ne_completionText (x : Binary64) : x.wholeText ≠ completionText := by
  intro same
  have capital : 'C' ∈ x.wholeText.toList := by
    rw [same]
    decide
  unfold wholeText at capital
  split at capital
  case isTrue =>
    rw [String.toList_append, List.mem_append] at capital
    rcases capital with inSign | inDigits
    · unfold signText at inSign
      split at inSign <;> revert inSign <;> decide
    · rw [Nat.toString_eq_ofList_toDigits, String.toList_ofList] at inDigits
      have digit := Nat.isDigit_of_mem_toDigits (by decide) (by decide) inDigits
      revert digit
      decide
  case isFalse notFinite =>
    unfold plainText at capital
    split at capital
    case isTrue => revert capital; decide
    case isFalse notNaN =>
      have infinite : x.isInfinite = true := by
        simp only [isFinite, isNaN, isInfinite, decide_eq_true_eq, beq_iff_eq] at *
        omega
      rw [if_pos infinite] at capital
      unfold signText at capital
      split at capital <;> revert capital <;> decide

theorem Direction.label_ne_completionText (direction : Direction) :
    direction.label ≠ completionText := by
  cases direction <;> decide

/-- A call of the loops of a drive and of a breakpoint, or of a sleep. -/
def Call.InLoop : Call → Prop
  | .robot .isActive => True
  | .robot .operatorSignal => True
  | .robot (.readSensor _) => True
  | .robot (.addItem _ value) => value ≠ completionText
  | .robot .refresh => True
  | .robot .clearItems => True
  | .host .now => True
  | .host (.pause _) => True
  | .host (.record _ _ _) => True
  | _ => False

def Call.InCommand : Call → Prop
  | .robot (.setPower _ _) => True
  | call => call.InLoop

theorem Call.InLoop.inCommand {call : Call} (inLoop : call.InLoop) : call.InCommand := by
  unfold InCommand
  split
  · trivial
  · exact inLoop

/-- A call that does nothing to the motors but the one on a channel. -/
def Call.OnChannel (channel : ChannelId) : Call → Prop
  | .robot (.setPower other _) => other = channel
  | .robot (.setMode other _) => other = channel
  | .robot (.readSensor other) => other = channel
  | _ => True

/-- A call that puts nothing on the display, or an item with one of these captions. -/
def Call.Captioned (captions : List String) : Call → Prop
  | .robot (.addItem caption _) => caption ∈ captions
  | _ => True

/-- The captions of the items that a drive shows. -/
def driveCaptions : List String := ["Driving", "Position"]

def loopEffects : Effects RunError where
  calls := Call.InLoop
  errors error := ∃ failure, error = .ofDevice failure
  waits := True
  halts := False

namespace DispatchContext

/-- What the loops of a drive do, the drive motor being the only one that they read. -/
def pollEffects (context : DispatchContext) : Effects RunError :=
  { loopEffects with
    calls := fun call =>
      call.InLoop ∧ call.OnChannel context.driveChannel ∧ call.Captioned driveCaptions }

variable {context : DispatchContext}

theorem restRules_within {effects : Effects RunError} (waits : effects.waits)
    (record : ∀ level text, effects.calls (.host (.record level dispatchTag text)))
    (pause : ∀ duration, effects.calls (.host (.pause duration)))
    (signal : effects.calls (.robot .operatorSignal)) :
    RestRules fun task => task.Within effects where
  result := Task.within_result
  waiting := Task.within_waiting waits
  bind := Task.within_bind
  record level text := Task.within_host (record level text)
  pause duration := Task.within_host (pause duration)
  operatorSignal := Task.within_robot signal

/-- Effects that cover the calls of the loops and the errors of the device. -/
theorem loopRules_within {effects : Effects RunError}
    (polls : ∀ call, context.pollEffects.calls call → effects.calls call)
    (device : ∀ failure, effects.errors (.ofDevice failure)) (waits : effects.waits) :
    context.LoopRules fun task => task.Within effects := by
  have captions : "Driving" ∈ driveCaptions ∧ "Position" ∈ driveCaptions := by decide
  have rests : RestRules fun task => task.Within effects := by
    apply restRules_within waits
    · exact fun _ _ => polls _ ⟨trivial, trivial, trivial⟩
    · exact fun _ => polls _ ⟨trivial, trivial, trivial⟩
    · exact polls _ ⟨trivial, trivial, trivial⟩
  exact
    { rests with
      isActive := Task.within_robot (polls _ ⟨trivial, trivial, trivial⟩)
      now := Task.within_host (polls _ ⟨trivial, trivial, trivial⟩)
      readSensor := Task.within_readSensor (polls _ ⟨trivial, rfl, trivial⟩) device
      direction := fun direction => Task.within_addItem
        (polls _ ⟨direction.label_ne_completionText, trivial, captions.1⟩)
      position := fun position => Task.within_addItem
        (polls _ ⟨position.wholeText_ne_completionText, trivial, captions.2⟩)
      refresh := Task.within_refresh (polls _ ⟨trivial, trivial, trivial⟩) device
      clearItems := Task.within_clearItems (polls _ ⟨trivial, trivial, trivial⟩) }

theorem loopRules_inLoop : context.LoopRules fun task => task.Within loopEffects :=
  loopRules_within (fun _ => And.left) (fun failure => ⟨failure, rfl⟩) trivial

theorem exists_driveDuration (step : ActionStep) (given : Option Duration) {timed : Duration}
    (default : context.drive.defaultDuration = .ok timed) :
    ∃ length, context.driveDuration step given = .ok length := by
  cases given with
  | some duration => exact ⟨duration, rfl⟩
  | none =>
      refine ⟨timed, ?_⟩
      rw [driveDuration, default]

/-- Effects that cover those of every command that a step might stand for. -/
structure Covers (context : DispatchContext) (step : ActionStep) (effects : Effects RunError) :
    Prop where
  polls : ∀ call, context.pollEffects.calls call → effects.calls call
  powers : ∀ direction : Direction,
    effects.calls (.robot (.setPower context.driveChannel (direction.power context.drive.power)))
  zeroing : effects.calls (.robot (.setPower context.driveChannel Binary64.zero))
  device : ∀ failure, effects.errors (.ofDevice failure)
  duration : ∀ given error,
    context.driveDuration step given = .error error → effects.errors error
  waits : effects.waits
  halts : effects.halts

theorem carryOut_within_of {step : ActionStep} {effects : Effects RunError}
    (covers : context.Covers step effects) (command : Command) :
    (context.carryOut step command).Within effects := by
  have rules : context.CommandRules fun task => task.Within effects :=
    { loopRules_within covers.polls covers.device covers.waits with
      during := fun direction => PowerHold.within_during (covers.powers direction) covers.zeroing
        covers.device covers.halts }
  apply rules.carryOut
  intro given
  exact Task.within_ofExcept (covers.duration given)

def commandEffects (context : DispatchContext) (step : ActionStep) : Effects RunError where
  calls := Call.InCommand
  errors error := (∃ failure, error = .ofDevice failure) ∨
    ∃ duration, context.driveDuration step duration = .error error
  waits := True
  halts := True

theorem carryOut_within (step : ActionStep) (command : Command) :
    (context.carryOut step command).Within (context.commandEffects step) :=
  carryOut_within_of
    { polls := fun _ made => made.1.inCommand
      powers := fun _ => trivial
      zeroing := trivial
      device := fun failure => Or.inl ⟨failure, rfl⟩
      duration := fun given _ same => Or.inr ⟨given, same⟩
      waits := trivial
      halts := trivial } command

end DispatchContext

end RobotRoutine
