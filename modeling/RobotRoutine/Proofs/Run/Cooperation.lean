import RobotRoutine.Proofs.Program.Obliging
import RobotRoutine.Proofs.Program.Settling
import RobotRoutine.Proofs.Run.Agenda

/-!
Commands in a world that does its part.

The robot stays live, nothing fails or crashes, the operator presses in the end and time goes on.
Then every drive and every breakpoint comes to its end.
-/

namespace RobotRoutine

open Program (Settles Later)

variable {σ : Type} {answer : (request : Call) → σ → request.Reply × σ} {pause : Duration}
  {zone : Zone} {clock : σ → Duration}

/-- An operator who is looked at after every pause is seen to press in the end. -/
inductive Signalled (answer : (request : Call) → σ → request.Reply × σ) (pause : Duration) :
    σ → Prop where
  | now {world} :
      (answer (.robot .operatorSignal) world).1 = true → Signalled answer pause world
  | later {world} :
      Signalled answer pause
        (answer (.host (.pause pause)) (answer (.robot .operatorSignal) world).2).2 →
      Signalled answer pause world

/-- A world that does its part, in which the target is seen in a zone. -/
structure Cooperative (answer : (request : Call) → σ → request.Reply × σ) (pause : Duration)
    (zone : Zone) (clock : σ → Duration) : Prop where
  live : ∀ world, (answer (.robot .isActive) world).1 = true
  power : ∀ channel power world, (answer (.robot (.setPower channel power)) world).1 = .ok ()
  sensor : ∀ channel world, ∃ position,
    (answer (.robot (.readSensor channel)) world).1 = .ok position
  item : ∀ caption value world, (answer (.robot (.addItem caption value)) world).1 = .returned
  cleared : ∀ world, (answer (.robot .clearItems) world).1 = .returned
  refreshed : ∀ world, (answer (.robot .refresh) world).1 = .ok ()
  found : ∀ world, (answer (.robot .currentZone) world).1 = .ok zone
  signalled : ∀ world, Signalled answer pause world
  time : ∀ world, (answer (.host .now) world).1 = clock world
  onward : ∀ request world, clock world ≤ clock (answer request world).2
  /-- No succession of calls stays before a moment for ever. -/
  passes : ∀ moment : Duration, WellFounded fun later earlier =>
    ∃ request, later = (answer request earlier).2 ∧ clock later < moment

theorem cooperative_obliging (pause : Duration) (zone : Zone) :
    Cooperative (obliging zone) pause zone id where
  live _ := rfl
  power _ _ _ := rfl
  sensor _ _ := ⟨Binary64.zero, rfl⟩
  item _ _ _ := rfl
  cleared _ := rfl
  refreshed _ := rfl
  found _ := rfl
  signalled _ := .now rfl
  time _ := rfl
  onward := by
    intro request world
    cases request <;> exact Nat.le_add_right _ _
  passes := by
    intro moment
    refine Subrelation.wf ?_ (measure fun clock : Duration => moment.nanos - clock.nanos).wf
    rintro later earlier ⟨request, rfl, before⟩
    have elapsed : (obliging zone request earlier).2.nanos = earlier.nanos + 1000000000 := by
      cases request <;> rfl
    change (obliging zone request earlier).2.nanos < moment.nanos at before
    change moment.nanos - (obliging zone request earlier).2.nanos < moment.nanos - earlier.nanos
    omega

namespace Cooperative

variable {ε : Type} {world later : σ}

/-- The worlds before a moment cannot be followed for ever. -/
theorem wellFounded_later (cooperative : Cooperative answer pause zone clock) (moment : Duration) :
    WellFounded fun later earlier => Later answer earlier later ∧ clock later < moment := by
  refine Subrelation.wf ?_ (cooperative.passes moment).transGen
  rintro later earlier ⟨reached, before⟩
  induction reached with
  | single call =>
      obtain ⟨request, rfl⟩ := call
      exact .single ⟨request, rfl, before⟩
  | @tail middle last reached call inductionHypothesis =>
      obtain ⟨request, rfl⟩ := call
      have middleBefore : clock middle < moment :=
        Nat.lt_of_le_of_lt (cooperative.onward request middle) before
      exact .head ⟨request, rfl, before⟩ (inductionHypothesis middleBefore)

theorem exec_isActive (cooperative : Cooperative answer pause zone clock) (world : σ) :
    (Task.isActive : Task ε Bool).exec answer world =
      (.value true, (answer (.robot .isActive) world).2) :=
  Program.exec_call (cooperative.live world)

theorem exec_now (cooperative : Cooperative answer pause zone clock) (world : σ) :
    (Task.now : Task ε Duration).exec answer world =
      (.value (clock world), (answer (.host .now) world).2) :=
  Program.exec_call (cooperative.time world)

theorem exec_setPower (cooperative : Cooperative answer pause zone clock) (toError : Failure → ε)
    (channel : ChannelId) (power : Binary64) (world : σ) :
    (Task.setPower toError channel power).exec answer world =
      (.value (), (answer (.robot (.setPower channel power)) world).2) :=
  Program.exec_call (cooperative.power channel power world)

theorem exec_readSensor (cooperative : Cooperative answer pause zone clock) (toError : Failure → ε)
    (channel : ChannelId) (world : σ) :
    ∃ position, (Task.readSensor toError channel).exec answer world =
      (.value position, (answer (.robot (.readSensor channel)) world).2) := by
  obtain ⟨position, gives⟩ := cooperative.sensor channel world
  exact ⟨position, Program.exec_call gives⟩

theorem exec_addItem (cooperative : Cooperative answer pause zone clock) (caption value : String)
    (world : σ) :
    (Task.addItem caption value : Task ε Unit).exec answer world =
      (.value (), (answer (.robot (.addItem caption value)) world).2) :=
  Program.exec_call (cooperative.item caption value world)

theorem exec_clearItems (cooperative : Cooperative answer pause zone clock) (world : σ) :
    (Task.clearItems : Task ε Unit).exec answer world =
      (.value (), (answer (.robot .clearItems) world).2) :=
  Program.exec_call (cooperative.cleared world)

theorem exec_show (cooperative : Cooperative answer pause zone clock) (world : σ) :
    (Task.ignoringFailure (Program.robot .refresh) : Task ε Unit).exec answer world =
      (.value (), (answer (.robot .refresh) world).2) :=
  Program.exec_call (cooperative.refreshed world)

theorem exec_refresh (cooperative : Cooperative answer pause zone clock) (toError : Failure → ε)
    (world : σ) :
    (Task.refresh toError).exec answer world =
      (.value (), (answer (.robot .refresh) world).2) :=
  Program.exec_call (cooperative.refreshed world)

theorem exec_currentZone (cooperative : Cooperative answer pause zone clock)
    (toError : Failure → ε) (world : σ) :
    (Task.currentZone toError).exec answer world =
      (.value zone, (answer (.robot .currentZone) world).2) :=
  Program.exec_call (cooperative.found world)

theorem exec_during (cooperative : Cooperative answer pause zone clock) {α : Type}
    {toError : Failure → ε} {channel : ChannelId} {power : Binary64} {body : Task ε α} {a : α}
    {after : σ}
    (gives : body.exec answer (answer (.robot (.setPower channel power)) world).2 =
      (.value a, after)) :
    (PowerHold.during toError channel power body).exec answer world =
      (.value a, (answer (.robot (.setPower channel .zero)) after).2) := by
  have engaged : ((Task.setPower toError channel power).bind fun _ => body).exec answer world =
      (.value a, after) :=
    (Task.exec_bind_value (cooperative.exec_setPower toError channel power world)).trans gives
  rw [PowerHold.during_eq]
  refine (Program.exec_bind _ (PowerHold.leave toError channel) world).trans ?_
  rw [engaged]
  exact Task.exec_bind_value (cooperative.exec_setPower toError channel .zero after)

end Cooperative

namespace DispatchContext

variable {context : DispatchContext} {configuration : Configuration} {world : σ}

def granted (context : DispatchContext) (patience : Nat) : DispatchContext :=
  { context with patience }

theorem exec_driveTurns_of_lt (cooperative : Cooperative answer pause zone clock)
    (context : DispatchContext) (direction : Direction) {duration started : Duration}
    (early : clock (answer (.robot .isActive) world).2 - started < duration) :
    ∃ later, Later answer world later ∧ ∀ turns patience,
      ((context.granted patience).driveTurns direction duration started (turns + 1)).exec
          answer world =
        ((context.granted patience).driveTurns direction duration started turns).exec
          answer later := by
  let polled := (answer (.robot .isActive) world).2
  let looked := (answer (.host .now) polled).2
  let read := (answer (.robot (.readSensor context.driveChannel)) looked).2
  obtain ⟨position, reads⟩ :=
    cooperative.exec_readSensor RunError.ofDevice context.driveChannel looked
  let named := (answer (.robot (.addItem "Driving" direction.label)) read).2
  let placed := (answer (.robot (.addItem "Position" position.wholeText)) named).2
  let shown := (answer (.robot .refresh) placed).2
  let cleared := (answer (.robot .clearItems) shown).2
  let waited := (answer (.host (.pause context.drive.pollInterval)) cleared).2
  have once (request : Call) (earlier : σ) : Later answer earlier (answer request earlier).2 :=
    .single ⟨request, rfl⟩
  have reached : Later answer world cleared :=
    (once _ _).trans <| (once _ _).trans <| (once _ _).trans <| (once _ _).trans <|
      (once _ _).trans <| (once _ _).trans (once _ _)
  have turn (turns patience : Nat) :
      ((context.granted patience).driveTurns direction duration started (turns + 1)).exec
          answer world =
        (if context.drive.pollInterval ≠ Duration.zero then
            (Task.pause context.drive.pollInterval).bind fun _ =>
              (context.granted patience).driveTurns direction duration started turns
          else (context.granted patience).driveTurns direction duration started turns :
          Task RunError Unit).exec answer cleared := by
    rw [driveTurns]
    refine (Task.exec_bind_value (cooperative.exec_isActive world)).trans ?_
    rw [if_pos rfl]
    refine (Task.exec_bind_value (cooperative.exec_now polled)).trans ?_
    rw [if_pos early]
    refine (Task.exec_bind_value reads).trans ?_
    refine (Task.exec_bind_value (cooperative.exec_addItem _ _ read)).trans ?_
    refine (Task.exec_bind_value (cooperative.exec_addItem _ _ named)).trans ?_
    refine (Task.exec_bind_value (cooperative.exec_refresh _ placed)).trans ?_
    refine (Task.exec_bind_value (cooperative.exec_clearItems shown)).trans ?_
    rfl
  by_cases pauses : context.drive.pollInterval ≠ Duration.zero
  · refine ⟨waited, reached.trans (once _ _), ?_⟩
    intro turns patience
    rw [turn, if_pos pauses]
    rfl
  · refine ⟨cleared, reached, ?_⟩
    intro turns patience
    rw [turn, if_neg pauses]

theorem exec_driveTurns_of_not_lt (cooperative : Cooperative answer pause zone clock)
    (context : DispatchContext) (direction : Direction) {duration started : Duration}
    (late : ¬clock (answer (.robot .isActive) world).2 - started < duration)
    (turns patience : Nat) :
    ((context.granted patience).driveTurns direction duration started (turns + 1)).exec
        answer world =
      (.value (), (answer (.host .now) (answer (.robot .isActive) world).2).2) := by
  rw [driveTurns]
  refine (Task.exec_bind_value (cooperative.exec_isActive world)).trans ?_
  rw [if_pos rfl]
  refine (Task.exec_bind_value (cooperative.exec_now _)).trans ?_
  rw [if_neg late]
  rfl

/-- Time goes on, so a drive comes to its end. -/
theorem exec_driveTurns (cooperative : Cooperative answer pause zone clock)
    (context : DispatchContext) (direction : Direction) (duration started : Duration)
    (world : σ) :
    ∃ enough after, ∀ turns, enough ≤ turns → ∀ patience,
      ((context.granted patience).driveTurns direction duration started turns).exec
        answer world = (.value (), after) := by
  have later := cooperative.wellFounded_later ⟨started.nanos + duration.nanos⟩
  induction world using later.induction with
  | h world inductionHypothesis =>
  by_cases early : clock (answer (.robot .isActive) world).2 - started < duration
  · obtain ⟨later, reached, next⟩ := exec_driveTurns_of_lt cooperative context direction early
    by_cases before : clock later < ⟨started.nanos + duration.nanos⟩
    · obtain ⟨enough, after, ends⟩ := inductionHypothesis later ⟨reached, before⟩
      refine ⟨enough + 1, after, ?_⟩
      intro turns some patience
      obtain ⟨turns, rfl⟩ := Nat.exists_eq_add_of_le' (Nat.le_of_add_left_le some)
      rw [next, ends turns (by omega)]
    · have late : ¬clock (answer (.robot .isActive) later).2 - started < duration := by
        have onward : (clock later).nanos ≤ (clock (answer (.robot .isActive) later).2).nanos :=
          cooperative.onward (.robot .isActive) later
        change ¬(clock later).nanos < started.nanos + duration.nanos at before
        change ¬(clock (answer (.robot .isActive) later).2).nanos - started.nanos < duration.nanos
        omega
      refine ⟨2, (answer (.host .now) (answer (.robot .isActive) later).2).2, ?_⟩
      intro turns some patience
      obtain ⟨turns, rfl⟩ := Nat.exists_eq_add_of_le' some
      rw [next, exec_driveTurns_of_not_lt cooperative context direction late]
  · refine ⟨1, (answer (.host .now) (answer (.robot .isActive) world).2).2, ?_⟩
    intro turns some patience
    obtain ⟨turns, rfl⟩ := Nat.exists_eq_add_of_le' some
    exact exec_driveTurns_of_not_lt cooperative context direction early turns patience

theorem exec_operatorTurns_succ (context : DispatchContext) (turns patience : Nat) (world : σ) :
    ((context.granted patience).operatorTurns (turns + 1)).exec answer world =
      if (answer (.robot .operatorSignal) world).1 = true then
        (.value (), (answer (.robot .operatorSignal) world).2)
      else
        ((context.granted patience).operatorTurns turns).exec answer
          (answer (.host (.pause context.timing.breakpointPoll))
            (answer (.robot .operatorSignal) world).2).2 := by
  have looked : (Task.operatorSignal : Task RunError Bool).exec answer world =
      (.value (answer (.robot .operatorSignal) world).1,
        (answer (.robot .operatorSignal) world).2) := rfl
  rw [operatorTurns]
  refine (Task.exec_bind_value looked).trans ?_
  split
  · rfl
  · rfl

/-- The operator presses in the end, so a breakpoint comes to its end. -/
theorem exec_operatorTurns (context : DispatchContext)
    (signalled : Signalled answer context.timing.breakpointPoll world) :
    ∃ enough after, ∀ turns, enough ≤ turns → ∀ patience,
      ((context.granted patience).operatorTurns turns).exec answer world =
        (.value (), after) := by
  induction signalled with
  | @now world pressed =>
      refine ⟨1, (answer (.robot .operatorSignal) world).2, ?_⟩
      intro turns some patience
      obtain ⟨turns, rfl⟩ := Nat.exists_eq_add_of_le' some
      rw [exec_operatorTurns_succ, if_pos pressed]
  | @later world _ inductionHypothesis =>
      by_cases pressed : (answer (.robot .operatorSignal) world).1 = true
      · refine ⟨1, (answer (.robot .operatorSignal) world).2, ?_⟩
        intro turns some patience
        obtain ⟨turns, rfl⟩ := Nat.exists_eq_add_of_le' some
        rw [exec_operatorTurns_succ, if_pos pressed]
      · obtain ⟨enough, after, ends⟩ := inductionHypothesis
        refine ⟨enough + 1, after, ?_⟩
        intro turns some patience
        obtain ⟨turns, rfl⟩ := Nat.exists_eq_add_of_le' (Nat.le_of_add_left_le some)
        rw [exec_operatorTurns_succ, if_neg pressed, ends turns (by omega)]

theorem settles_driveByTime (cooperative : Cooperative answer pause zone clock)
    (context : DispatchContext) (direction : Direction) (duration : Duration) (world : σ) :
    ∃ after, Settles answer
      (fun patience => (context.granted patience).driveByTime direction duration) world
      (.value (), after) := by
  let cleared := (answer (.robot .clearItems) world).2
  let power := RobotCall.setPower context.driveChannel (direction.power context.drive.power)
  let engaged := (answer (.robot power) cleared).2
  let started := (answer (.host .now) engaged).2
  obtain ⟨enough, after, ends⟩ :=
    exec_driveTurns cooperative context direction duration (clock engaged) started
  refine ⟨(answer (.robot (.setPower context.driveChannel .zero)) after).2, enough, ?_⟩
  intro patience some
  refine (Task.exec_bind_value (cooperative.exec_clearItems world)).trans ?_
  refine cooperative.exec_during ?_
  exact (Task.exec_bind_value (cooperative.exec_now engaged)).trans (ends patience some patience)

/-- In a world that does its part a step whose duration is known is carried out. -/
theorem settles_carryOut (cooperative : Cooperative answer context.timing.breakpointPoll zone clock)
    {step : ActionStep} {command : Command} {timed : Duration}
    (default : context.drive.defaultDuration = .ok timed) (world : σ) :
    ∃ after, Settles answer (fun patience => (context.granted patience).carryOut step command)
      world (.value (), after) := by
  cases command with
  | drive direction duration =>
      obtain ⟨length, known⟩ := exists_driveDuration step duration default
      have same (patience : Nat) :
          (context.granted patience).driveDuration step duration = .ok length := by
        rw [← known]
        cases duration <;> rfl
      obtain ⟨after, enough, ends⟩ :=
        settles_driveByTime cooperative context direction length world
      have drives (patience : Nat) :
          (context.granted patience).carryOut step (.drive direction duration) =
            (context.granted patience).driveByTime direction length := by
        simp only [carryOut, same patience]
        rfl
      refine ⟨after, enough, fun patience some => ?_⟩
      simp only [drives]
      exact ends patience some
  | sleep duration => exact ⟨_, Program.settles_of_exec fun _ => rfl⟩
  | breakpoint =>
      let recorded :=
        (answer (.host (.record .info dispatchTag "Breakpoint: waiting for operator")) world).2
      obtain ⟨enough, after, ends⟩ :=
        exec_operatorTurns context (cooperative.signalled recorded)
      exact ⟨after, enough, fun patience some => ends patience some patience⟩
  | zoneChoice => exact ⟨world, Program.settles_of_exec fun _ => rfl⟩

end DispatchContext

end RobotRoutine
