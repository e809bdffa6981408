import RobotRoutine.Proofs.Run.Cooperation

/-!
How a run ends in a world that does its part.

Every step is carried out in its turn, so nothing but an error of the steps themselves keeps the run
from its end.
-/

namespace RobotRoutine

open Program (Settles)

variable {σ : Type} {answer : (request : Call) → σ → request.Reply × σ} {pause : Duration}
  {zone : Zone} {clock : σ → Duration}

namespace DispatchContext

variable {context : DispatchContext} {configuration : Configuration} {world : σ}

/-- How steps end if nothing but their own errors ends them. -/
def planned (steps : List ActionStep) : Outcome RunError Flow :=
  match firstError steps with
  | none => .value .finished
  | some error => .error error

theorem planned_cons_of_ok {step : ActionStep} {command : Command}
    (resolved : Command.resolve step = .ok command) (rest : List ActionStep) :
    planned (step :: rest) = planned rest := by
  rw [planned, planned, firstError_cons_of_ok resolved]

theorem planned_cons_of_error {step : ActionStep} {error : RunError}
    (resolved : Command.resolve step = .error error) (rest : List ActionStep) :
    planned (step :: rest) = .error error := by
  rw [planned, firstError_cons_of_error resolved]

theorem planned_append_of_none {first : List ActionStep} (none : firstError first = none)
    (second : List ActionStep) : planned (first ++ second) = planned second := by
  rw [planned, planned, firstError_append, none, Option.none_or]

theorem planned_append_of_some {first : List ActionStep} {error : RunError}
    (wrong : firstError first = some error) (second : List ActionStep) :
    planned (first ++ second) = .error error := by
  rw [planned, firstError_append, wrong, Option.some_or]

theorem exec_record (text : String) (before : Progress) (world : σ) :
    (Dispatch.record .info text before).exec answer world =
      ((.value (), before), (answer (notice text).request world).2) := rfl

variable {step : ActionStep} {before : Progress}

theorem exec_poll (cooperative : Cooperative answer pause zone clock) (before : Progress)
    (world : σ) :
    (Dispatch.lift Task.isActive before).exec answer world =
      ((.value true, before), (answer (.robot .isActive) world).2) := by
  rw [Dispatch.exec_lift, cooperative.exec_isActive]

theorem settles_arrive_of_ok (cooperative : Cooperative answer pause zone clock)
    {command : Command} (resolved : Command.resolve step = .ok command) (before : Progress)
    (world : σ) :
    ∃ later, Settles answer (fun _ => arrive step before) world
      ((.value (some command), before), later) := by
  refine ⟨(answer (beginning step).request (answer (.robot .isActive) world).2).2, ?_⟩
  refine Dispatch.settles_bind_exec (exec_poll cooperative before world) ?_
  rw [if_pos rfl, beginStep_of_ok resolved]
  exact Program.settles_of_exec fun _ => rfl

theorem settles_arrive_of_error (cooperative : Cooperative answer pause zone clock)
    {error : RunError} (resolved : Command.resolve step = .error error) (before : Progress)
    (world : σ) :
    ∃ later, Settles answer (fun _ => arrive step before) world
      ((.error error, before), later) := by
  refine ⟨(answer (.robot .isActive) world).2, ?_⟩
  refine Dispatch.settles_bind_exec (exec_poll cooperative before world) ?_
  rw [if_pos rfl, beginStep_of_error resolved]
  exact Program.settles_of_exec fun _ => rfl

/-- What runs at a marker ends with its own error, or is followed by the rest. -/
theorem settles_afterBranch {branches : Nat → Dispatch Flow}
    {rest inserted others : List ActionStep} {middle : Progress} {left : σ}
    (inside : Settles answer (fun patience => branches patience before) world
      ((planned inserted, middle), left))
    (behind : ∃ after later,
      Settles answer
        (fun patience => (context.granted patience).runSteps (branches patience) rest middle) left
        ((planned others, after), later)) :
    ∃ after later,
      Settles answer
        (fun patience => (branches patience).bind
          ((context.granted patience).afterBranch (branches patience) rest) before)
        world ((planned (inserted ++ others), after), later) := by
  cases wrong : firstError inserted with
  | none =>
      rw [planned_append_of_none wrong]
      rw [planned, wrong] at inside
      obtain ⟨after, later, ends⟩ := behind
      exact ⟨after, later, Dispatch.settles_bind_value inside ends⟩
  | some error =>
      rw [planned_append_of_some wrong]
      rw [planned, wrong] at inside
      exact ⟨middle, left, Dispatch.settles_bind_error inside⟩

/-- Steps end as planned if what runs at their markers ends as the steps behind them would. -/
theorem settles_runSteps
    (cooperative : Cooperative answer context.timing.breakpointPoll zone clock)
    {timed : Duration} (default : context.drive.defaultDuration = .ok timed)
    (branches : Nat → Dispatch Flow) (inserted : List ActionStep)
    (inside : ∀ progress world, ∃ after later,
      Settles answer (fun patience => branches patience progress) world
        ((planned inserted, after), later))
    (steps : List ActionStep) (before : Progress) (world : σ) :
    ∃ after later,
      Settles answer
        (fun patience => (context.granted patience).runSteps (branches patience) steps before)
        world ((planned (splice inserted steps), after), later) := by
  induction steps generalizing before world with
  | nil => exact ⟨before, world, Program.settles_of_exec fun _ => rfl⟩
  | cons step rest inductionHypothesis =>
      simp only [runSteps_cons]
      cases resolved : Command.resolve step with
      | error error =>
          have other : step.isMarker = false := by
            rw [← Bool.not_eq_true, ← Command.resolve_eq_zoneChoice_iff, resolved]
            simp
          obtain ⟨later, arrives⟩ := settles_arrive_of_error cooperative resolved before world
          rw [splice_cons_of_other other, planned_cons_of_error resolved]
          exact ⟨before, later, Dispatch.settles_bind_error arrives⟩
      | ok command =>
          obtain ⟨arrived, arrives⟩ := settles_arrive_of_ok cooperative resolved before world
          have counts (world : σ) : (Dispatch.countStep before).exec answer world =
              ((.value (), counted before), world) := rfl
          by_cases marker : command = .zoneChoice
          · subst marker
            have isMarker := Command.resolve_eq_zoneChoice_iff.mp resolved
            obtain ⟨middle, left, branches⟩ := inside (counted before) arrived
            rw [splice_cons_of_marker isMarker, planned_cons_of_ok resolved]
            obtain ⟨after, later, ends⟩ :=
              settles_afterBranch branches (inductionHypothesis middle left)
            refine ⟨after, later, Dispatch.settles_bind_value arrives ?_⟩
            exact Dispatch.settles_bind_exec (counts arrived) ends
          · have other := isMarker_eq_false resolved marker
            obtain ⟨carried, carries⟩ := settles_carryOut cooperative default arrived
            obtain ⟨after, later, ends⟩ := inductionHypothesis (counted before) carried
            rw [splice_cons_of_other other, planned_cons_of_ok resolved]
            refine ⟨after, later, Dispatch.settles_bind_value arrives ?_⟩
            simp only [afterArrival_of_other marker]
            refine Dispatch.settles_bind_value (Dispatch.settles_lift carries before) ?_
            exact Dispatch.settles_bind_exec (counts carried) ends

/-- The sequence of the zone that is found is run in the place of the marker. -/
theorem settles_runBranch
    (cooperative : Cooperative answer context.timing.breakpointPoll zone clock)
    {timed : Duration} (default : context.drive.defaultDuration = .ok timed)
    (branches : configuration.Branches) {table : BranchTable}
    (tabled : configuration.branchTable = some table) (before : Progress) (world : σ) :
    ∃ after later,
      Settles answer
        (fun patience => (context.granted patience).runBranch configuration (patience + 1) before)
        world ((planned (configuration.zoneSteps zone), after), later) := by
  have plain := branches.plain table tabled zone
  have sequence : configuration.zoneSteps zone = table.get zone := by
    rw [Configuration.zoneSteps, tabled]
  let found : Progress := { before with zone := some zone }
  let recorded := (answer (foundZone table zone).request (answer (.robot .currentZone) world).2).2
  have classified : (classify configuration before).exec answer world =
      ((.value (table.get zone), found), recorded) := by
    have present : (Dispatch.lift (Task.ofExcept (requireTable configuration)) before).exec
        answer world = ((.value table, before), world) := by
      rw [requireTable, tabled]
      rfl
    have asked : (Dispatch.lift (Task.currentZone RunError.ofClassifier) before).exec answer
        world = ((.value zone, before), (answer (.robot .currentZone) world).2) := by
      rw [Dispatch.exec_lift, cooperative.exec_currentZone]
    rw [classify]
    refine (Dispatch.exec_bind_value present).trans ?_
    exact Dispatch.exec_bind_value asked
  -- No marker stands in the sequence, so what would run at one may be anything that settles.
  obtain ⟨after, later, ends⟩ :=
    settles_runSteps cooperative default (fun _ => Dispatch.result .finished) []
      (fun progress world => ⟨progress, world, Program.settles_of_exec fun _ => rfl⟩)
      (table.get zone) found recorded
  rw [splice_of_plain plain] at ends
  refine ⟨after, later, ?_⟩
  simp only [runBranch_succ, sequence]
  refine Dispatch.settles_bind_exec classified ?_
  simp only [runSteps_eq_of_plain plain _ (Dispatch.result .finished)]
  exact ends

theorem settles_runActions
    (cooperative : Cooperative answer context.timing.breakpointPoll zone clock)
    {timed : Duration} (default : context.drive.defaultDuration = .ok timed)
    (branches : configuration.Branches) (before : Progress) (world : σ) :
    ∃ after later,
      Settles answer (fun patience => (context.granted patience).runActions configuration before)
        world ((planned (configuration.agenda zone), after), later) := by
  cases tabled : configuration.branchTable with
  | some table =>
      exact settles_runSteps cooperative default _ _
        (settles_runBranch cooperative default branches tabled) configuration.actions before world
  | none =>
      have plain := branches.plain_of_noTable tabled
      obtain ⟨after, later, ends⟩ :=
        settles_runSteps cooperative default (fun _ => Dispatch.result .finished) []
          (fun progress world => ⟨progress, world, Program.settles_of_exec fun _ => rfl⟩)
          configuration.actions before world
      refine ⟨after, later, ?_⟩
      rw [splice_of_plain plain] at ends
      rw [Configuration.agenda, splice_of_plain plain]
      simp only [runActions, runSteps_eq_of_plain plain _ (Dispatch.result .finished)]
      exact ends

theorem exec_conclude_finished (cooperative : Cooperative answer pause zone clock)
    (context : DispatchContext) (before : Progress) (world : σ) :
    ∃ later, (context.conclude (.ok .finished) before).exec answer world =
      ((.value (inState .completed before), inState .completed before), later) := by
  let named := (answer (.robot (.addItem context.tag "COMPLETE")) world).2
  have adds : (Dispatch.lift (Task.addItem context.tag "COMPLETE")
      (inState .completed before)).exec answer world =
      ((.value (), inState .completed before), named) := by
    rw [Dispatch.exec_lift, cooperative.exec_addItem]
  have shows : (Dispatch.lift (Task.ignoringFailure (Program.robot .refresh))
      (inState .completed before)).exec answer named =
      ((.value (), inState .completed before), (answer (.robot .refresh) named).2) := by
    rw [Dispatch.exec_lift, cooperative.exec_show]
  refine ⟨(answer (.robot .refresh) named).2, ?_⟩
  refine (Dispatch.exec_bind_value adds).trans ?_
  exact Dispatch.exec_bind_value shows

theorem exec_conclude_error (context : DispatchContext) (error : RunError) (before : Progress)
    (world : σ) :
    (context.conclude (.error error) before).exec answer world =
      ((.error error, inState (stateOfError error) before), world) := by
  cases error <;> rfl

/-- A run ends completed if every step on its agenda resolves, and otherwise with the error of the
first one that does not. -/
theorem settles_run (cooperative : Cooperative answer context.timing.breakpointPoll zone clock)
    {timed : Duration} (default : context.drive.defaultDuration = .ok timed)
    (branches : configuration.Branches) (before : Progress) (world : σ) :
    ∃ outcome after later,
      Settles answer (fun patience => (context.granted patience).run configuration before)
        world ((outcome, after), later) ∧ EndsAsResolved (configuration.agenda zone) outcome := by
  let banner := s!"OpMode: {context.tag}, Alliance: {context.alliance.name}"
  let welcomed := (answer (notice "At start").request world).2
  let introduced := (answer (notice banner).request welcomed).2
  let live := (answer (.robot .isActive) introduced).2
  obtain ⟨middle, done, acts⟩ :=
    settles_runActions cooperative default branches (inState .running before) live
  let told := (answer (notice "Exiting dispatcher").request done).2
  have opens {ending : (Outcome RunError RunReport × Progress) × σ}
      (rest : Settles answer (fun patience =>
        ((Dispatch.attempt ((context.granted patience).runActions configuration)).bind fun ending =>
          (Dispatch.record .info "Exiting dispatcher").bind fun _ =>
            (context.granted patience).conclude ending) (inState .running before)) live ending) :
      Settles answer (fun patience => (context.granted patience).run configuration before)
        world ending := by
    refine Dispatch.settles_bind_exec (exec_record _ before world) ?_
    refine Dispatch.settles_bind_exec (exec_record banner before welcomed) ?_
    refine Dispatch.settles_bind_exec (exec_poll cooperative before introduced) ?_
    exact rest
  cases wrong : firstError (configuration.agenda zone) with
  | none =>
      rw [planned, wrong] at acts
      obtain ⟨later, concludes⟩ := exec_conclude_finished cooperative context middle told
      let report := inState .completed middle
      refine ⟨.value report, report, later, opens ?_, endsAsResolved_of_none wrong rfl⟩
      refine Dispatch.settles_bind_value (Dispatch.settles_attempt_of_value acts) ?_
      refine Dispatch.settles_bind_exec (exec_record _ middle done) ?_
      exact Program.settles_of_exec fun _ => concludes
  | some error =>
      rw [planned, wrong] at acts
      refine ⟨.error error, inState (stateOfError error) middle, told, opens ?_,
        endsAsResolved_of_some wrong⟩
      refine Dispatch.settles_bind_value (Dispatch.settles_attempt_of_error acts) ?_
      refine Dispatch.settles_bind_exec (exec_record _ middle done) ?_
      exact Program.settles_of_exec fun patience =>
        exec_conclude_error (context.granted patience) error middle told

end DispatchContext

end RobotRoutine
