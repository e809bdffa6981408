import RobotRoutine.Proofs.Run.CutDrive
import RobotRoutine.Proofs.Run.Heeding

/-!
What a run still does once it is found not to be live.

The poll may stand before the first step, before a step of either level, or within a drive.  Within
a drive the motor is let go of, once; then at most one more poll finds the same, and the run is
concluded.  Nothing is begun on the way: no sensor is read, no zone is classified, no operator is
looked at and no power is given.
-/

namespace RobotRoutine

open Program (Runs Event)

/-- A poll that finds the run not to be live any more. -/
def lostPoll : Event := ⟨.robot .isActive, false⟩

/-- The motor has been given power and has not been let go of. -/
def Engaged (events : List Event) : Prop := (powerCommands events).length % 2 = 1

theorem not_engaged_of_nil {events : List Event} (none : powerCommands events = []) :
    ¬ Engaged events := by
  simp [Engaged, none]

theorem engaged_append_iff {first : List Event} (paired : ¬ Engaged first) (rest : List Event) :
    Engaged (first ++ rest) ↔ Engaged rest := by
  rw [Engaged] at paired
  rw [Engaged, Engaged, powerCommands_append, List.length_append]
  omega

/-- A call by which a run begins something. -/
def Call.Begins : Call → Prop
  | .robot (.readSensor _) => True
  | .robot .currentZone => True
  | .robot .operatorSignal => True
  | .robot (.setPower _ power) => power ≠ Binary64.zero
  | _ => False

def Call.Unpolled : Call → Prop
  | .robot .isActive => False
  | _ => True

namespace Task

variable {ε α : Type}

/-- Everything may happen but a poll of liveness. -/
def unpolled (ε : Type) : Effects ε where
  calls := Call.Unpolled
  errors _ := True
  waits := True
  halts := True

/-- A poll that finds the run not to be live ends a task. -/
def EndsAtLoss (task : Task ε Unit) : Prop :=
  ∀ earlier later outcome, Runs task (earlier ++ lostPoll :: later) outcome →
    later = [] ∧ outcome = .value ()

theorem not_lostPoll_of_unpolled {task : Task ε α} (within : task.Within (unpolled ε))
    {earlier later : List Event} {outcome : Outcome ε α} :
    ¬ Runs task (earlier ++ lostPoll :: later) outcome := by
  intro runs
  exact (within_of_runs within runs).1 lostPoll (by simp)

theorem endsAtLoss_bind {task : Task ε α} {next : α → Task ε Unit}
    (within : task.Within (unpolled ε)) (ends : ∀ a, (next a).EndsAtLoss) :
    (task.bind next).EndsAtLoss := by
  intro earlier later outcome runs
  rcases runs_bind runs with ⟨first, second, a, same, runsTask, runsNext⟩ | ⟨_, runsTask, _⟩
  · rcases split_cases same with ⟨rest, rfl, _⟩ | ⟨rest, _, rfl⟩
    · exact absurd runsTask (not_lostPoll_of_unpolled within)
    · exact ends a rest later outcome runsNext
  · exact absurd runsTask (not_lostPoll_of_unpolled within)

theorem endsAtLoss_of_unpolled {task : Task ε Unit} (within : task.Within (unpolled ε)) :
    task.EndsAtLoss :=
  fun _ _ _ runs => absurd runs (not_lostPoll_of_unpolled within)

/-- After a poll that finds the run live a task goes on, and after any other it is over. -/
theorem endsAtLoss_isActive {next : Task ε Unit} (ends : next.EndsAtLoss) :
    (isActive.bind fun live => if live then next else result ()).EndsAtLoss := by
  intro earlier later outcome runs
  obtain ⟨live, rest, same, runsRest⟩ := Program.runs_call_iff.mp runs
  cases live with
  | false =>
      obtain ⟨rfl, rfl⟩ := runs_result_iff.mp runsRest
      have alone : [lostPoll] = earlier ++ lostPoll :: later := same.symm
      rw [eq_comm, List.append_eq_singleton_iff] at alone
      simp_all
  | true =>
      cases earlier with
      | nil => cases same
      | cons first earlier =>
          obtain ⟨rfl, rfl⟩ := List.cons.inj same
          exact ends earlier later outcome runsRest

end Task

theorem RunError.ofDevice_cases (failure : Failure) :
    RunError.ofDevice failure = .interrupted ∨
      ∃ cause, RunError.ofDevice failure = .device cause := by
  unfold RunError.ofDevice
  split
  · exact .inl rfl
  · exact .inr ⟨failure, rfl⟩

namespace DispatchContext

variable {context : DispatchContext} {configuration : Configuration}

theorem endsAtLoss_driveTurns (direction : Direction) (duration started : Duration) (turns : Nat) :
    (context.driveTurns direction duration started turns).EndsAtLoss := by
  induction turns with
  | zero => exact Task.endsAtLoss_of_unpolled trivial
  | succ turns inductionHypothesis =>
      rw [driveTurns]
      apply Task.endsAtLoss_isActive
      apply Task.endsAtLoss_bind (Task.within_host trivial)
      intro time
      split
      · apply Task.endsAtLoss_bind (Task.within_readSensor trivial fun _ => trivial)
        intro position
        apply Task.endsAtLoss_bind (Task.within_addItem trivial)
        intro _
        apply Task.endsAtLoss_bind (Task.within_addItem trivial)
        intro _
        apply Task.endsAtLoss_bind (Task.within_refresh trivial fun _ => trivial)
        intro _
        apply Task.endsAtLoss_bind (Task.within_clearItems trivial)
        intro _
        split
        · exact Task.endsAtLoss_bind (Task.within_host trivial) fun _ => inductionHypothesis
        · exact inductionHypothesis
      · exact Task.endsAtLoss_of_unpolled trivial

theorem restRules_unpolled : RestRules fun task => task.Within (Task.unpolled RunError) :=
  restRules_within trivial (fun _ _ => trivial) (fun _ => trivial) trivial

end DispatchContext

/-- How a drive is left that finds the run not to be live: the motor is let go of, once. -/
inductive LetsGo (channel : ChannelId) : List Event → Outcome RunError Unit → Prop where
  | done : LetsGo channel [zeroing channel (.ok ())] (.value ())
  | failed {failure} :
      LetsGo channel [zeroing channel (.failed failure)] (.error (.ofDevice failure))
  | crashed {crash} : LetsGo channel [zeroing channel (.crashed crash)] (.crash crash)

namespace PowerHold

variable {channel : ChannelId} {power : Binary64} {body : Task RunError Unit}
  {events earlier later : List Event} {outcome : Outcome RunError Unit}

theorem letsGo_of_leave (runs : Runs (leave .ofDevice channel (.value ())) events outcome) :
    LetsGo channel events outcome := by
  cases leaves_of_runs runs with
  | released => exact .done
  | failed => exact .failed
  | crashed => exact .crashed

theorem leave_unpolled (stop : Outcome RunError Unit) :
    (leave .ofDevice channel stop).Within (Task.unpolled RunError) := by
  apply within_leave trivial (fun _ => trivial) trivial
  cases stop <;> trivial

theorem letsGo_of_during (ends : body.EndsAtLoss) (quiet : body.Within (powerless RunError))
    (runs : Runs (during .ofDevice channel power body) (earlier ++ lostPoll :: later) outcome) :
    LetsGo channel later outcome ∧ Engaged earlier := by
  rw [during_eq] at runs
  obtain ⟨inside, leaving, stop, same, runsInside, runsLeave⟩ := Program.runs_of_bind runs
  rcases split_cases same with ⟨behind, rfl, rfl⟩ | ⟨_, _, rfl⟩
  · have endsInside : ((Task.setPower .ofDevice channel power).bind fun _ => body).EndsAtLoss :=
      Task.endsAtLoss_bind (Task.within_setPower trivial fun _ => trivial) fun _ => ends
    obtain ⟨rfl, rfl⟩ := endsInside _ _ _ runsInside
    refine ⟨letsGo_of_leave runsLeave, ?_⟩
    have engaged := powerCommands_engage quiet runsInside
    rw [powerCommands_append, show powerCommands [lostPoll] = [] from rfl, List.append_nil]
      at engaged
    rw [Engaged, engaged]
    rfl
  · exact absurd runsLeave (Task.not_lostPoll_of_unpolled (leave_unpolled stop))

end PowerHold

namespace DispatchContext

variable {context : DispatchContext} {configuration : Configuration}

/-- Of all commands only a drive looks at liveness, and it does so while the motor has power. -/
theorem letsGo_of_driveByTime {direction : Direction} {duration : Duration}
    {earlier later : List Event} {outcome : Outcome RunError Unit}
    (runs : Runs (context.driveByTime direction duration) (earlier ++ lostPoll :: later) outcome) :
    LetsGo context.driveChannel later outcome ∧ Engaged earlier := by
  let turns : Task RunError Unit := Task.now.bind fun started =>
    context.driveTurns direction duration started context.patience
  have ends : turns.EndsAtLoss :=
    Task.endsAtLoss_bind (Task.within_host trivial) fun started =>
      endsAtLoss_driveTurns direction duration started context.patience
  have quiet : turns.Within (powerless RunError) :=
    loop_powerless (loopRules_inLoop.timedTurns direction duration)
  have clears : (Task.clearItems : Task RunError Unit).Within (powerless RunError) :=
    Task.within_clearItems trivial
  have unpolled : (Task.clearItems : Task RunError Unit).Within (Task.unpolled RunError) :=
    Task.within_clearItems trivial
  change Runs (Task.clearItems.bind fun _ => PowerHold.during _ _ _ turns) _ _ at runs
  rcases Task.runs_bind runs with
    ⟨clearing, holding, _, same, runsClear, runsHold⟩ | ⟨_, runsClear, _⟩
  · rcases split_cases same with ⟨_, rfl, _⟩ | ⟨begun, rfl, rfl⟩
    · exact absurd runsClear (Task.not_lostPoll_of_unpolled unpolled)
    · obtain ⟨letsGo, engaged⟩ := PowerHold.letsGo_of_during ends quiet runsHold
      have cleared := powerCommands_eq_nil (Task.within_of_runs clears runsClear).1
      refine ⟨letsGo, (engaged_append_iff ?_ begun).mpr engaged⟩
      exact not_engaged_of_nil cleared
  · exact absurd runsClear (Task.not_lostPoll_of_unpolled unpolled)

theorem letsGo_of_carryOut {step : ActionStep} {command : Command} {earlier later : List Event}
    {outcome : Outcome RunError Unit}
    (runs : Runs (context.carryOut step command) (earlier ++ lostPoll :: later) outcome) :
    LetsGo context.driveChannel later outcome ∧ Engaged earlier := by
  cases command with
  | drive direction duration =>
      cases given : context.driveDuration step duration with
      | error error =>
          simp only [carryOut, given] at runs
          exact absurd (Program.runs_done_iff.mp runs).1 (by simp)
      | ok length =>
          simp only [carryOut, given] at runs
          exact letsGo_of_driveByTime runs
  | sleep duration =>
      have unpolled : (sleep duration).Within (Task.unpolled RunError) :=
        restRules_unpolled.sleep duration
      exact absurd runs (Task.not_lostPoll_of_unpolled unpolled)
  | breakpoint =>
      have unpolled : context.waitForOperator.Within (Task.unpolled RunError) :=
        restRules_unpolled.waitForOperator
      exact absurd runs (Task.not_lostPoll_of_unpolled unpolled)
  | zoneChoice => exact absurd (Program.runs_done_iff.mp runs).1 (by simp)

/-- What the steps of a run still do behind a poll that finds it not to be live, and how they
end. -/
inductive Lapses (context : DispatchContext) (earlier : List Event) :
    List Event → Outcome RunError Flow → Prop where
  /-- The poll was that of a step. -/
  | atStep : ¬ Engaged earlier → Lapses context earlier [] (.value .stopped)
  /-- The poll was that of a drive, behind which no step comes. -/
  | lastDrive :
      Engaged earlier →
      Lapses context earlier [zeroing context.driveChannel (.ok ())] (.value .finished)
  | nextStep :
      Engaged earlier →
      Lapses context earlier [zeroing context.driveChannel (.ok ()), lostPoll] (.value .stopped)
  | failed {failure} :
      Engaged earlier →
      Lapses context earlier [zeroing context.driveChannel (.failed failure)]
        (.error (.ofDevice failure))
  | crashed {crash} :
      Engaged earlier →
      Lapses context earlier [zeroing context.driveChannel (.crashed crash)] (.crash crash)

namespace Lapses

variable {earlier later : List Event} {outcome : Outcome RunError Flow}

theorem behind {first : List Event} (paired : ¬ Engaged first)
    (lapses : context.Lapses earlier later outcome) :
    context.Lapses (first ++ earlier) later outcome := by
  have same := engaged_append_iff paired earlier
  cases lapses with
  | atStep disengaged => exact .atStep (mt same.mp disengaged)
  | lastDrive engaged => exact .lastDrive (same.mpr engaged)
  | nextStep engaged => exact .nextStep (same.mpr engaged)
  | failed engaged => exact .failed (same.mpr engaged)
  | crashed engaged => exact .crashed (same.mpr engaged)

end Lapses

/-- A part of a run that leaves the motor as it was found, and that lapses once the run is found not
to be live. -/
structure Lapsing (context : DispatchContext) (part : Dispatch Flow) : Prop where
  paired : ∀ {before events flow after}, Runs (part before) events (.value flow, after) →
    ¬ Engaged events
  lapses : ∀ {before earlier later outcome after},
    Runs (part before) (earlier ++ lostPoll :: later) (outcome, after) → true ∉ polls later →
    context.Lapses earlier later outcome

variable {branch : Dispatch Flow} {steps rest : List ActionStep} {step : ActionStep}
  {before after : Progress} {events earlier later : List Event} {outcome : Outcome RunError Flow}

/-- Steps that are come to behind such a poll find the run not to be live either. -/
theorem runs_lost_cases
    (runs : Runs (context.runSteps branch steps before) events (outcome, after))
    (lost : true ∉ polls events) :
    (events = [] ∧ outcome = .value .finished) ∨
      (events = [lostPoll] ∧ outcome = .value .stopped) := by
  cases steps with
  | nil =>
      obtain ⟨rfl, same⟩ := Dispatch.runs_result_iff.mp runs
      cases same
      exact .inl ⟨rfl, rfl⟩
  | cons step rest =>
      obtain ⟨live, behind, rfl, runsRest⟩ := Program.runs_call_iff.mp runs
      cases live with
      | true => exact absurd List.mem_cons_self lost
      | false =>
          obtain ⟨rfl, same⟩ := Program.runs_done_iff.mp runsRest
          cases same
          exact .inr ⟨rfl, rfl⟩

theorem paired_carryOut {command : Command} {doing : List Event}
    (runs : Runs (context.carryOut step command) doing (.value ())) : ¬ Engaged doing := by
  rcases powerCommands_carryOut runs (by simp) with none | ⟨_, _, _, pair⟩
  · exact not_engaged_of_nil none
  · simp [Engaged, pair, drivePower]

/-- A command is followed by the steps behind it. -/
theorem lapsing_command {command : Command}
    (lapsing : context.Lapsing (context.runSteps branch rest)) :
    context.Lapsing ((Dispatch.lift (context.carryOut step command)).bind fun _ =>
      Dispatch.countStep.bind fun _ => context.runSteps branch rest) where
  paired := by
    intro before events flow after runs
    rcases Dispatch.runs_bind runs with
      ⟨doing, second, _, _, rfl, carriedOut, runsRest⟩ | ⟨_, _, passes⟩
    · obtain ⟨carriedOut, _⟩ := Dispatch.runs_lift_iff.mp carriedOut
      rw [engaged_append_iff (paired_carryOut carriedOut)]
      exact lapsing.paired runsRest
    · exact absurd rfl (passes.ne_value flow)
  lapses := by
    intro before earlier later outcome after runs lost
    rcases Dispatch.runs_bind runs with
      ⟨doing, second, _, middle, same, carriedOut, runsRest⟩ | ⟨stop, carriedOut, passes⟩
    · obtain ⟨carriedOut, _⟩ := Dispatch.runs_lift_iff.mp carriedOut
      change Runs (context.runSteps branch rest (counted middle)) _ _ at runsRest
      rcases split_cases same with ⟨leaving, rfl, rfl⟩ | ⟨begun, rfl, rfl⟩
      · obtain ⟨letsGo, engaged⟩ := letsGo_of_carryOut carriedOut
        cases letsGo
        rw [polls_append, List.mem_append, not_or] at lost
        rcases runs_lost_cases runsRest lost.2 with ⟨rfl, rfl⟩ | ⟨rfl, rfl⟩
        · exact .lastDrive engaged
        · exact .nextStep engaged
      · exact (lapsing.lapses runsRest lost).behind (paired_carryOut carriedOut)
    · obtain ⟨carriedOut, _⟩ := Dispatch.runs_lift_iff.mp carriedOut
      obtain ⟨letsGo, engaged⟩ := letsGo_of_carryOut carriedOut
      cases letsGo <;> cases passes
      · exact .failed engaged
      · exact .crashed engaged

/-- The sequence of a zone is followed by the steps behind the marker. -/
theorem lapsing_branch (lapsing : context.Lapsing branch)
    (lapsingRest : context.Lapsing (context.runSteps branch rest)) :
    context.Lapsing (branch.bind (context.afterBranch branch rest)) where
  paired := by
    intro before events flow after runs
    rcases Dispatch.runs_bind runs with
      ⟨inside, second, inner, _, rfl, inBranch, runsRest⟩ | ⟨_, _, passes⟩
    · rw [engaged_append_iff (lapsing.paired inBranch)]
      cases inner with
      | finished => exact lapsingRest.paired runsRest
      | stopped =>
          obtain ⟨rfl, _⟩ := Dispatch.runs_result_iff.mp runsRest
          exact not_engaged_of_nil rfl
    · exact absurd rfl (passes.ne_value flow)
  lapses := by
    intro before earlier later outcome after runs lost
    rcases Dispatch.runs_bind runs with
      ⟨inside, second, inner, _, same, inBranch, runsRest⟩ | ⟨stop, inBranch, passes⟩
    · rcases split_cases same with ⟨leaving, rfl, rfl⟩ | ⟨begun, rfl, rfl⟩
      · rw [polls_append, List.mem_append, not_or] at lost
        have lapses := lapsing.lapses inBranch lost.1
        cases inner with
        | stopped =>
            obtain ⟨rfl, ended⟩ := Dispatch.runs_result_iff.mp runsRest
            cases ended
            rwa [List.append_nil]
        | finished =>
            cases lapses with
            | lastDrive engaged =>
                rcases runs_lost_cases runsRest lost.2 with ⟨rfl, rfl⟩ | ⟨rfl, rfl⟩
                · exact .lastDrive engaged
                · exact .nextStep engaged
      · have lapses : context.Lapses begun later outcome := by
          cases inner with
          | finished => exact lapsingRest.lapses runsRest lost
          | stopped => exact absurd (Dispatch.runs_result_iff.mp runsRest).1 (by simp)
        exact lapses.behind (lapsing.paired inBranch)
    · have lapses := lapsing.lapses inBranch lost
      cases passes <;> cases lapses
      · rename_i engaged
        exact .failed engaged
      · rename_i engaged
        exact .crashed engaged

theorem lapsing_afterArrival {command : Command} (lapsing : context.Lapsing branch)
    (lapsingRest : context.Lapsing (context.runSteps branch rest)) :
    context.Lapsing (context.afterArrival branch step rest (some command)) := by
  by_cases marker : command = .zoneChoice
  · subst marker
    have behind := lapsing_branch lapsing lapsingRest
    exact ⟨fun runs => behind.paired runs, fun runs => behind.lapses runs⟩
  · rw [afterArrival_of_other marker]
    exact lapsing_command lapsingRest

/-- A step that is come to is noted, or the run is found not to be live. -/
theorem lapsing_arrive
    (lapsing : ∀ command, context.Lapsing (context.afterArrival branch step rest (some command))) :
    context.Lapsing (context.runSteps branch (step :: rest)) where
  paired := by
    intro before events flow after runs
    rw [runSteps_cons] at runs
    rcases Dispatch.runs_bind runs with
      ⟨_, second, _, _, rfl, arrived, runsRest⟩ | ⟨_, _, passes⟩
    · obtain ⟨_, ⟨same, rfl⟩ | ⟨_, _, same, _⟩ | ⟨command, _, same, rfl⟩⟩ :=
        runs_arrive_cases arrived
      · cases same
        obtain ⟨rfl, _⟩ := Dispatch.runs_result_iff.mp runsRest
        exact not_engaged_of_nil rfl
      · cases same
      · cases same
        rw [engaged_append_iff (not_engaged_of_nil rfl)]
        exact (lapsing command).paired runsRest
    · exact absurd rfl (passes.ne_value flow)
  lapses := by
    intro before earlier later outcome after runs lost
    rw [runSteps_cons] at runs
    rcases Dispatch.runs_bind runs with
      ⟨_, second, _, _, split, arrived, runsRest⟩ | ⟨_, arrived, passes⟩
    · obtain ⟨_, ⟨same, rfl⟩ | ⟨_, _, same, _⟩ | ⟨command, _, same, rfl⟩⟩ :=
        runs_arrive_cases arrived
      · cases same
        obtain ⟨rfl, ended⟩ := Dispatch.runs_result_iff.mp runsRest
        cases ended
        obtain ⟨rfl, _, rfl⟩ : earlier = [] ∧ lostPoll = _ ∧ later = [] := by
          simpa [List.append_eq_singleton_iff] using split
        exact .atStep (not_engaged_of_nil rfl)
      · cases same
      · cases same
        rcases split_cases split with ⟨behind, noted, _⟩ | ⟨begun, rfl, rfl⟩
        · have member : lostPoll ∈ [⟨.robot .isActive, true⟩, beginning step] := by
            rw [noted]
            simp
          simp [lostPoll, beginning] at member
        · exact ((lapsing command).lapses runsRest lost).behind (not_engaged_of_nil rfl)
    · obtain ⟨_, ⟨same, _⟩ | ⟨_, _, _, noted⟩ | ⟨_, _, same, _⟩⟩ := runs_arrive_cases arrived
      · cases same
        cases passes
      · have member : lostPoll ∈ [⟨.robot .isActive, true⟩] := by
          rw [← noted]
          simp
        simp [lostPoll] at member
      · cases same
        cases passes

theorem lapsing_runSteps (lapsing : context.Lapsing branch) (steps : List ActionStep) :
    context.Lapsing (context.runSteps branch steps) := by
  induction steps with
  | nil =>
      constructor
      · intro before events flow after runs
        obtain ⟨rfl, _⟩ := Dispatch.runs_result_iff.mp runs
        exact not_engaged_of_nil rfl
      · intro before earlier later outcome after runs _
        exact absurd (Dispatch.runs_result_iff.mp runs).1 (by simp)
  | cons step rest inductionHypothesis =>
      exact lapsing_arrive fun command => lapsing_afterArrival lapsing inductionHypothesis

theorem calm_classify {outcome : Outcome RunError (List ActionStep)}
    (runs : Runs (classify configuration before) events (outcome, after)) :
    ¬ Engaged events ∧ lostPoll ∉ events := by
  rcases runs_classify_cases runs with
    ⟨_, rfl, _⟩ | ⟨_, _, ⟨_, rfl, _⟩ | ⟨_, rfl, _⟩ | ⟨_, rfl, _⟩⟩ <;>
    exact ⟨not_engaged_of_nil rfl, by simp [lostPoll, foundZone]⟩

theorem lapsing_classify (lapsing : ∀ steps, context.Lapsing (context.runSteps branch steps)) :
    context.Lapsing ((classify configuration).bind (context.runSteps branch)) where
  paired := by
    intro before events flow after runs
    rcases Dispatch.runs_bind runs with
      ⟨_, second, spliced, _, rfl, classified, runsRest⟩ | ⟨_, _, passes⟩
    · rw [engaged_append_iff (calm_classify classified).1]
      exact (lapsing spliced).paired runsRest
    · exact absurd rfl (passes.ne_value flow)
  lapses := by
    intro before earlier later outcome after runs lost
    rcases Dispatch.runs_bind runs with
      ⟨_, second, spliced, _, same, classified, runsRest⟩ | ⟨_, classified, _⟩
    · rcases split_cases same with ⟨_, rfl, _⟩ | ⟨begun, rfl, rfl⟩
      · exact absurd (by simp) (calm_classify classified).2
      · exact ((lapsing spliced).lapses runsRest lost).behind (calm_classify classified).1
    · exact absurd (by simp) (calm_classify classified).2

/-- However deep markers are nested, the loss of liveness is handed up through all levels. -/
theorem lapsing_runBranch (levels : Nat) :
    context.Lapsing (context.runBranch configuration levels) := by
  induction levels with
  | zero =>
      constructor
      · intro before events flow after runs
        exact absurd (Program.runs_done_iff.mp runs).2 (by simp)
      · intro before earlier later outcome after runs _
        exact absurd (Program.runs_done_iff.mp runs).1 (by simp)
  | succ levels inductionHypothesis =>
      rw [runBranch_succ]
      exact lapsing_classify fun steps => lapsing_runSteps inductionHypothesis steps

theorem lapsing_runActions : context.Lapsing (context.runActions configuration) :=
  lapsing_runSteps (lapsing_runBranch _) configuration.actions

theorem not_mem_opening : lostPoll ∉ opening context ++ [⟨.robot .isActive, true⟩] := by
  simp [opening, notice, lostPoll]

/-- The conclusion of a run begins nothing, whatever the steps ended with. -/
theorem calm_concludes {middle : Progress} {stop : Outcome RunError Flow} {closing : List Event}
    {ending : Outcome RunError RunReport × Progress}
    (concludes : Concludes context middle stop closing ending) :
    ∀ event ∈ closing, ¬ event.request.Begins := by
  cases concludes with
  | finished completion => cases completion <;> simp [notice, Call.Begins]
  | _ => simp [notice, Call.Begins]

/-- What a run does behind a poll that finds it not to be live, `earlier` being what it did
before. -/
structure BeginsNothing (context : DispatchContext) (earlier later : List Event)
    (outcome : Outcome RunError RunReport) : Prop where
  calls : ∀ event ∈ later, ¬ event.request.Begins
  /-- A drive that was under way lets go of the motor, in one call. -/
  letsGo : Engaged earlier → powerCommands later = [(context.driveChannel, Binary64.zero)]
  powerless : ¬ Engaged earlier → powerCommands later = []
  polls : (polls later).length ≤ 1
  /-- Nothing but letting go of the motor can fail. -/
  errors : ∀ error, outcome = .error error →
    error = .interrupted ∨ ∃ failure, error = .device failure
  settled : outcome ≠ .waiting

theorem beginsNothing_of_lapses {middle : Progress} {stop : Outcome RunError Flow}
    {closing : List Event} {outcome : Outcome RunError RunReport}
    (lapses : context.Lapses earlier later stop)
    (concludes : Concludes context middle stop closing (outcome, after)) :
    context.BeginsNothing earlier (later ++ closing) outcome := by
  have unpowered := powerCommands_concludes concludes
  have unpolled := polls_of_concludes concludes
  have calm := calm_concludes concludes
  have ended (same : stop ≠ .waiting) : outcome ≠ .waiting := by
    cases concludes with
    | finished completion => cases completion <;> simp
    | waiting => exact absurd rfl same
    | _ => simp
  have thrown (error : RunError) (same : outcome = .error error) : stop = .error error := by
    subst same
    cases concludes with
    | finished completion => cases completion
    | error => rfl
  constructor
  · rw [List.forall_mem_append]
    refine ⟨?_, calm⟩
    cases lapses <;> simp [zeroing, lostPoll, Call.Begins]
  · intro engaged
    rw [powerCommands_append, unpowered, List.append_nil]
    cases lapses with
    | atStep disengaged => exact absurd engaged disengaged
    | _ => rfl
  · intro disengaged
    rw [powerCommands_append, unpowered, List.append_nil]
    cases lapses with
    | atStep => rfl
    | _ engaged => exact absurd engaged disengaged
  · rw [polls_append, unpolled, List.append_nil]
    cases lapses <;> simp [polls, poll?, zeroing, lostPoll, List.filterMap]
  · intro error same
    have same := thrown error same
    cases lapses with
    | failed =>
        cases same
        exact RunError.ofDevice_cases _
    | _ => cases same
  · apply ended
    cases lapses <;> simp

/-- At the start nothing is under way, and a record is all that follows. -/
theorem beginsNothing_opening (text : String) (report : RunReport) :
    context.BeginsNothing (opening context) [notice text] (.value report) where
  calls := by simp [notice, Call.Begins]
  letsGo engaged := absurd engaged (not_engaged_of_nil rfl)
  powerless _ := rfl
  polls := Nat.zero_le 1
  errors := by simp
  settled := by simp

theorem lost_of_steady (steady : Steady (earlier ++ lostPoll :: later)) : true ∉ polls later := by
  rw [Steady, polls_append] at steady
  intro member
  have behind := (List.pairwise_append.mp steady).2.1
  exact absurd ((List.pairwise_cons.mp behind).1 true member rfl) (by simp)

/-- A poll that finds a run not to be live is the end of all that the run begins. -/
theorem beginsNothing_of_run {outcome : Outcome RunError RunReport}
    (runs : Runs (context.run configuration before) (earlier ++ lostPoll :: later)
      (outcome, after))
    (steady : Steady (earlier ++ lostPoll :: later)) :
    context.BeginsNothing earlier later outcome := by
  have lost := lost_of_steady steady
  rcases runs_run_cases runs with
    ⟨same, rfl, _⟩ | ⟨acting, closing, stop, middle, same, runsActions, concludes⟩
  · rcases split_cases same with ⟨_, here, _⟩ | ⟨begun, rfl, here⟩
    · exact absurd (by simp [here]) (@not_mem_opening context)
    · cases begun with
      | nil =>
          obtain ⟨_, rfl⟩ := List.cons.inj here
          rw [List.append_nil]
          exact beginsNothing_opening _ _
      | cons first begun =>
          obtain ⟨_, behind⟩ := List.cons.inj here
          simp [List.singleton_eq_append_iff, notice, lostPoll] at behind
  · rw [List.append_cons _ _ (acting ++ closing)] at same
    rcases split_cases same with ⟨_, here, _⟩ | ⟨begun, rfl, inside⟩
    · exact absurd (by simp [here]) (@not_mem_opening context)
    · rcases split_cases inside.symm with ⟨behind, rfl, rfl⟩ | ⟨_, _, rfl⟩
      · rw [polls_append, List.mem_append, not_or] at lost
        have lapses := lapsing_runActions.lapses runsActions lost.1
        exact beginsNothing_of_lapses (lapses.behind (not_engaged_of_nil rfl)) concludes
      · have unpolled := polls_of_concludes concludes
        simp [lostPoll] at unpolled

theorem eq_of_poll? {event : Event} {live : Bool} (poll : poll? event = some live) :
    event = ⟨.robot .isActive, live⟩ := by
  unfold poll? at poll
  split at poll
  · cases poll
    rfl
  · cases poll

theorem split_of_poll {events : List Event} {number : Nat}
    (poll : events[number]?.bind poll? = some false) :
    events = events.take number ++ lostPoll :: events.drop (number + 1) := by
  obtain ⟨event, there, poll⟩ := Option.bind_eq_some_iff.mp poll
  obtain ⟨inside, rfl⟩ := List.getElem?_eq_some_iff.mp there
  rw [lostPoll, ← eq_of_poll? poll, List.getElem_cons_drop, List.take_append_drop]

/-- A marker whose branch ends with a drive of half a minute, and a step behind it. -/
def trailingSleep : Configuration where
  loggingThreshold := none
  regionOfInterest := .empty
  tagsOfInterest := []
  startingPose := none
  actions := [⟨"OCV_CHOICE", []⟩, ⟨"SLEEP", [("ms", "5")]⟩]
  branchTable := some { left := [longStep], center := [], right := [] }

/-- Liveness is lost in the drive that ends the branch. -/
theorem beginsNothing_of_run_trailingSleep :
    ∃ earlier later outcome after,
      Runs (sampleContext.run trailingSleep .fresh) (earlier ++ lostPoll :: later)
        (outcome, after) ∧
      Steady (earlier ++ lostPoll :: later) ∧ Engaged earlier ∧
      sampleContext.BeginsNothing earlier later outcome := by
  let events := (sampleContext.run trailingSleep .fresh).events losingLiveness 4
  have runs := Program.runs_exec losingLiveness (sampleContext.run trailingSleep .fresh) 4
  have steady : Steady events := by
    rw [Steady, show polls events = [true, true, true, true, false, false] by decide +kernel]
    decide
  have split : events = events.take 20 ++ lostPoll :: events.drop 21 :=
    split_of_poll (by decide +kernel)
  have engaged : Engaged (events.take 20) := by
    have given : (powerCommands (events.take 20)).length % 2 = 1 := by decide +kernel
    exact given
  change Runs _ events _ at runs
  rw [split] at runs steady
  exact ⟨_, _, _, _, runs, steady, engaged, beginsNothing_of_run runs steady⟩

end DispatchContext

end RobotRoutine
