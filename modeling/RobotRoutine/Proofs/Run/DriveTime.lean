import RobotRoutine.Proofs.Check.Agreement
import RobotRoutine.Proofs.Number.Seconds

/-!
How long a drive lasts.

A drive takes its time from the step or from the settings.  Both ask for a number of seconds above
zero and take the nearest span of whole nanoseconds, which is empty for half a nanosecond or less.
The loop of a drive of no time never looks at the sensor, and that of any other drive may.
-/

namespace RobotRoutine

open Duration (Lasts)
open Program (Runs Event)

/-- The name of the steps that ask for a drive. -/
def Direction.commandName : Direction → String
  | forward => "FORWARD_BY_TIME"
  | reverse => "REVERSE_BY_TIME"

def Call.IsBlind : Call → Prop
  | .robot (.readSensor _) => False
  | _ => True

namespace Command

variable {step : ActionStep} {direction : Direction} {given : Option Duration}
  {duration : Duration}

theorem map_drive_eq_iff {other : Direction} {seconds : Except RunError (Option Duration)} :
    seconds.map (Command.drive other) = .ok (.drive direction given) ↔
      other = direction ∧ seconds = .ok given := by
  cases seconds with
  | error error => simp [Except.map]
  | ok duration => simp [Except.map]

theorem resolve_eq_drive_iff :
    resolve step = .ok (.drive direction given) ↔
      step.commandName = direction.commandName ∧ optionalSeconds step = .ok given := by
  rw [resolve]
  split_ifs with forward reverse sleep breakpoint marker
  · rw [map_drive_eq_iff, forward]
    cases direction <;> simp [Direction.commandName]
  · rw [map_drive_eq_iff, reverse]
    cases direction <;> simp [Direction.commandName]
  · rw [sleep]
    cases requiredMillis step <;> cases direction <;> simp [Except.map, Direction.commandName]
  all_goals cases direction <;> simp [Direction.commandName, branchMarker, *]

/-- The check has nothing to say about a drive whose time can be read. -/
theorem checked_iff (named : step.commandName = direction.commandName) :
    Check.entries step = [] ↔ ∃ given, optionalSeconds step = .ok given := by
  have resolved : resolve step = (optionalSeconds step).map (.drive direction) := by
    rw [resolve, named]
    cases direction <;> simp [Direction.commandName]
  rw [Check.entries_eq_nil_iff, resolved]
  cases optionalSeconds step <;> simp [Except.map]

/-- The seconds that a step gives, as the text of an attribute. -/
def Gives (step : ActionStep) (seconds : Binary64) : Prop :=
  ∃ value, step.attribute? "seconds" = some value ∧
    Number.decimal? (Text.trim value) = some seconds

theorem optionalSeconds_eq_none_iff :
    optionalSeconds step = .ok none ↔ step.attribute? "seconds" = none := by
  rw [optionalSeconds]
  cases given : step.attribute? "seconds" with
  | none => simp
  | some value =>
      simp only [reduceCtorEq, iff_false]
      split
      · nofun
      · split
        · nofun
        · split <;> nofun

theorem optionalSeconds_eq_some_iff :
    optionalSeconds step = .ok (some duration) ↔
      ∃ seconds, Gives step seconds ∧ Lasts seconds duration := by
  rw [optionalSeconds]
  cases given : step.attribute? "seconds" with
  | none => simp [Gives, given]
  | some value =>
      dsimp only
      cases read : Number.decimal? (Text.trim value) with
      | none => simp [Gives, given, read]
      | some seconds =>
          have only (other : Binary64) : Gives step other ↔ other = seconds := by
            simp [Gives, given, read, eq_comm]
          simp only [only, exists_eq_left, Duration.lasts_iff]
          cases above : seconds.le Binary64.zero with
          | true => simp
          | false => cases made : Duration.ofSeconds seconds <;> simp

end Command

namespace DriveSettings

theorem defaultDuration_eq_ok_iff {settings : DriveSettings} {duration : Duration} :
    settings.defaultDuration = .ok duration ↔ Lasts settings.defaultDurationSecs duration := by
  rw [defaultDuration, Duration.lasts_iff]
  cases above : settings.defaultDurationSecs.le Binary64.zero with
  | true => simp
  | false => cases made : Duration.ofSeconds settings.defaultDurationSecs <;> simp

end DriveSettings

namespace DispatchContext

variable {context : DispatchContext} {direction : Direction} {duration : Duration}

/-- The loop of a drive comes to look at the sensor in some run. -/
def CanTurn (context : DispatchContext) (direction : Direction) (duration : Duration) : Prop :=
  ∃ events outcome, Runs (context.driveByTime direction duration) events outcome ∧
    ∃ event ∈ events, event.request = .robot (.readSensor context.driveChannel)

/-- What a task does that never looks at a sensor. -/
def blindEffects : Effects RunError where
  calls := Call.IsBlind
  errors _ := True
  waits := True
  halts := True

/-- Without a turn, or without time, the loop ends before it looks. -/
theorem driveTurns_blind {started : Duration} {turns : Nat}
    (ended : turns = 0 ∨ ¬Duration.zero < duration) :
    (context.driveTurns direction duration started turns).Within blindEffects := by
  cases turns with
  | zero => exact Task.within_waiting trivial
  | succ turns =>
      have spent : ¬Duration.zero < duration := ended.resolve_left (Nat.succ_ne_zero turns)
      rw [driveTurns]
      refine Task.within_bind (Task.within_robot trivial) ?_
      intro live
      split
      · refine Task.within_bind (Task.within_host trivial) ?_
        intro time
        have late : ¬time - started < duration := fun early => spent (Nat.zero_lt_of_lt early)
        rw [if_neg late]
        exact Task.within_result ()
      · exact Task.within_result ()

theorem driveByTime_blind (ended : context.patience = 0 ∨ ¬Duration.zero < duration) :
    (context.driveByTime direction duration).Within blindEffects := by
  refine Task.within_bind (Task.within_clearItems trivial) ?_
  intro _
  refine PowerHold.within_during trivial trivial (fun _ => trivial) trivial ?_
  refine Task.within_bind (Task.within_host trivial) ?_
  intro started
  exact driveTurns_blind ended

/-- With a turn and with time left, the loop may look at the sensor, though that may fail. -/
theorem exists_look (context : DispatchContext) (direction : Direction) (started : Duration)
    (turns : Nat) (positive : Duration.zero < duration) :
    ∃ events,
      Runs (context.driveTurns direction duration started (turns + 1)) events (.crash .mute) ∧
        ∃ event ∈ events, event.request = .robot (.readSensor context.driveChannel) := by
  have early : started - started < duration := by
    change started.nanos - started.nanos < duration.nanos
    rw [Nat.sub_self]
    exact positive
  have live : Runs (Task.isActive : Task RunError Bool) [⟨.robot .isActive, true⟩] (.value true) :=
    .call .done
  have timed : Runs (Task.now : Task RunError Duration) [⟨.host .now, started⟩] (.value started) :=
    .call .done
  let look : Event := ⟨.robot (.readSensor context.driveChannel), .crashed .mute⟩
  refine ⟨[⟨.robot .isActive, true⟩] ++ ([⟨.host .now, started⟩] ++ [look]), ?_, look, by simp, rfl⟩
  rw [driveTurns]
  refine Task.runs_bind_value live ?_
  rw [if_pos rfl]
  refine Task.runs_bind_value timed ?_
  rw [if_pos early]
  exact .call .done

theorem canTurn_iff :
    context.CanTurn direction duration ↔ 0 < context.patience ∧ Duration.zero < duration := by
  constructor
  · rintro ⟨events, outcome, runs, event, member, look⟩
    by_contra ended
    rw [not_and_or, Nat.pos_iff_ne_zero, not_not] at ended
    have blind : event.request.IsBlind :=
      (Task.within_of_runs (driveByTime_blind ended) runs).1 event member
    rw [look] at blind
    exact blind
  · rintro ⟨granted, positive⟩
    obtain ⟨turns, isTurns⟩ := Nat.exists_eq_succ_of_ne_zero (Nat.ne_of_gt granted)
    obtain ⟨events, runs, event, member, look⟩ := exists_look context direction .zero turns positive
    rw [← Nat.succ_eq_add_one, ← isTurns] at runs
    have released : Runs (PowerHold.leave RunError.ofDevice context.driveChannel
        (.crash .mute : Outcome RunError Unit))
        [⟨.robot (.setPower context.driveChannel Binary64.zero), .ok ()⟩] (.crash .mute) :=
      .call .done
    have held := Program.runs_bind runs released
    exact ⟨⟨.robot .clearItems, .returned⟩ ::
      ⟨.robot (.setPower context.driveChannel (direction.power context.drive.power)), .ok ()⟩ ::
      ⟨.host .now, Duration.zero⟩ :: (events ++ _), _, .call (.call (.call held)), event,
      by simp [member], look⟩

/-- The time that drives are given, and the drives that are given any. -/
structure DriveTimes (context : DispatchContext) (step : ActionStep) : Prop where
  own : ∀ direction duration, Command.resolve step = .ok (.drive direction (some duration)) ↔
    step.commandName = direction.commandName ∧
      ∃ seconds, Command.Gives step seconds ∧ Lasts seconds duration
  default : ∀ duration, context.drive.defaultDuration = .ok duration ↔
    Lasts context.drive.defaultDurationSecs duration
  /-- A time that is accepted is positive from more than half a nanosecond on. -/
  lasting : ∀ seconds duration, Lasts seconds duration →
    (Duration.zero < duration ↔ 1 / 2 < seconds.magnitude * 10 ^ 9)
  /-- A drive of no time never turns, whatever the world does. -/
  turning : ∀ direction duration,
    context.CanTurn direction duration ↔ 0 < context.patience ∧ Duration.zero < duration
  /-- The check has nothing to say about a drive that may be given no time. -/
  checked : ∀ direction : Direction, step.commandName = direction.commandName →
    (Check.entries step = [] ↔ step.attribute? "seconds" = none ∨
      ∃ seconds duration, Command.Gives step seconds ∧ Lasts seconds duration)

theorem driveTimes (context : DispatchContext) (step : ActionStep) : DriveTimes context step where
  own direction duration := by
    rw [Command.resolve_eq_drive_iff, Command.optionalSeconds_eq_some_iff]
  default duration := DriveSettings.defaultDuration_eq_ok_iff
  lasting seconds duration lasts := lasts.pos_iff
  turning direction duration := canTurn_iff
  checked direction named := by
    rw [Command.checked_iff named, Option.exists, Command.optionalSeconds_eq_none_iff]
    simp only [Command.optionalSeconds_eq_some_iff]
    exact or_congr_right exists_comm

/-- A tenth of a nanosecond is accepted and lasts no time. -/
example : (Command.resolve ⟨"FORWARD_BY_TIME", [("seconds", "1e-10")]⟩).toOption =
    some (.drive .forward (some .zero)) := by
  decide +kernel

end DispatchContext

end RobotRoutine
