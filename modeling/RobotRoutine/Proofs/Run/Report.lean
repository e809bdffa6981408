import RobotRoutine.Proofs.Run.PlainLoop

/-!
What a run reports.

The plain loop says which steps of the agenda were executed, and the report is read off them.  A run
is shown as complete exactly if the dispatcher is left in that state.
-/

namespace RobotRoutine

open Program (Runs Event)

theorem Task.runs_of_bind_value {ε α β : Type} {task : Task ε α} {next : α → Task ε β}
    {events : List Event} {b : β} (runs : Runs (task.bind next) events (.value b)) :
    ∃ first second a, events = first ++ second ∧ Runs task first (.value a) ∧
      Runs (next a) second (.value b) := by
  rcases runs_bind runs with found | ⟨stop, _, passes⟩
  · exact found
  · exact absurd rfl (passes.ne_value b)

namespace DispatchContext

variable {context : DispatchContext} {configuration : Configuration} {zone : Zone} {length : Nat}
  {before after : Progress} {events : List Event}

/-- The plain loop executes steps from the front of its list, all of them if it finishes. -/
theorem split_of_runs_plainLoop {executed list done : List ActionStep} {flow : Flow}
    (runs : Runs (context.plainLoop zone length executed list) events (.value (flow, done))) :
    ∃ more remaining, done = executed ++ more ∧ more ++ remaining = list ∧
      (flow = .finished ↔ remaining = []) := by
  induction list generalizing executed events with
  | nil =>
      obtain ⟨_, same⟩ := Task.runs_result_iff.mp runs
      cases same
      exact ⟨[], [], by simp, rfl, by simp⟩
  | cons step rest inductionHypothesis =>
      rw [plainLoop] at runs
      obtain ⟨_, _, live, _, _, runs⟩ := Task.runs_of_bind_value runs
      cases live with
      | false =>
          obtain ⟨_, same⟩ := Task.runs_result_iff.mp runs
          cases same
          exact ⟨[], step :: rest, by simp, rfl, by simp⟩
      | true =>
          obtain ⟨_, _, command, _, _, runs⟩ := Task.runs_of_bind_value runs
          obtain ⟨_, _, _, _, _, runs⟩ := Task.runs_of_bind_value runs
          obtain ⟨_, _, _, _, _, runs⟩ := Task.runs_of_bind_value runs
          obtain ⟨more, remaining, rfl, rfl, finished⟩ := inductionHypothesis runs
          exact ⟨step :: more, remaining, by simp, rfl, finished⟩

theorem report_of_runs_plainConclude {ending : Outcome RunError (Flow × List ActionStep)}
    {report : RunReport} (runs : Runs (context.plainConclude zone ending) events (.value report)) :
    ∃ flow executed, ending = .value (flow, executed) ∧
      report = tally (if flow = .finished then .completed else .aborted) zone executed := by
  cases ending with
  | value tallied =>
      obtain ⟨flow, executed⟩ := tallied
      refine ⟨flow, executed, rfl, ?_⟩
      cases flow with
      | finished =>
          obtain ⟨_, _, _, _, _, runs⟩ := Task.runs_of_bind_value runs
          obtain ⟨_, _, _, _, _, runs⟩ := Task.runs_of_bind_value runs
          obtain ⟨_, _, _, _, _, runs⟩ := Task.runs_of_bind_value runs
          obtain ⟨_, same⟩ := Task.runs_result_iff.mp runs
          cases same
          rfl
      | stopped =>
          obtain ⟨_, _, _, _, _, runs⟩ := Task.runs_of_bind_value runs
          obtain ⟨_, same⟩ := Task.runs_result_iff.mp runs
          cases same
          rfl
  | error error =>
      obtain ⟨_, _, _, _, _, runs⟩ := Task.runs_of_bind_value runs
      obtain ⟨_, same⟩ := Program.runs_done_iff.mp runs
      cases same
  | _ =>
      obtain ⟨_, same⟩ := Program.runs_done_iff.mp runs
      cases same

def liveOpening (context : DispatchContext) : List Event :=
  opening context ++ [⟨.robot .isActive, true⟩]

theorem report_of_runs_plainRun {rest : List Event} {report : RunReport}
    (runs : Runs (context.plainRun configuration zone) (context.liveOpening ++ rest)
      (.value report)) :
    ∃ executed remaining, executed ++ remaining = configuration.agenda zone ∧
      report = tally (if remaining = [] then .completed else .aborted) zone executed := by
  obtain ⟨_, _, same, runs⟩ := Program.runs_call_iff.mp runs
  cases same
  obtain ⟨_, _, same, runs⟩ := Program.runs_call_iff.mp runs
  cases same
  obtain ⟨_, _, same, runs⟩ := Program.runs_call_iff.mp runs
  cases same
  change Runs (Program.bind (context.plainLoop zone (configuration.zoneSteps zone).length []
    (configuration.agenda zone)) (context.plainConclude zone)) rest (.value report) at runs
  obtain ⟨_, _, ending, _, runsLoop, runsConclude⟩ := Program.runs_of_bind runs
  obtain ⟨flow, done, rfl, rfl⟩ := report_of_runs_plainConclude runsConclude
  obtain ⟨executed, remaining, same, whole, finished⟩ := split_of_runs_plainLoop runsLoop
  rw [List.nil_append] at same
  subst same
  refine ⟨done, remaining, whole, ?_⟩
  simp only [finished]

def completions (context : DispatchContext) (events : List Event) : Nat :=
  events.countP fun event => event.request = .robot (.addItem context.tag completionText)

theorem completions_eventsOf {steps : List ActionStep} {visits : List Visit}
    {ending : Outcome RunError Flow × Progress}
    (visited : Visits context configuration before steps visits ending) :
    context.completions (eventsOf visits) = 0 := by
  rw [completions, List.countP_eq_zero]
  intro event member shows
  have same := of_decide_eq_true shows
  rcases calls_of_visits visited event member with inCommand | asks
  · rw [same] at inCommand
    exact inCommand rfl
  · rw [same] at asks
    cases asks

theorem state_ne_completed_of_error (error : RunError) : stateOfError error ≠ .completed := by
  cases error <;> simp [stateOfError]

theorem completions_concludes {middle : Progress} {stop : Outcome RunError Flow}
    {closing : List Event} {ending : Outcome RunError RunReport × Progress}
    (running : middle.state = .running) (concludes : Concludes context middle stop closing ending) :
    context.completions closing = if ending.2.state = .completed then 1 else 0 := by
  cases concludes with
  | finished completion =>
      cases completion <;> simp [completions, completionText, notice, inState]
  | stopped => simp [completions, notice, inState]
  | error => simp [completions, notice, inState, state_ne_completed_of_error]
  | _ => simp [completions, running]

/-- A course of visits is shown as complete by its conclusion alone. -/
theorem completions_course {steps : List ActionStep} {visits : List Visit} {middle : Progress}
    {stop : Outcome RunError Flow} {closing : List Event}
    {ending : Outcome RunError RunReport × Progress}
    (visited : Visits context configuration (inState .running before) steps visits (stop, middle))
    (concludes : Concludes context middle stop closing ending) :
    context.completions (context.liveOpening ++ (eventsOf visits ++ closing)) =
      if ending.2.state = .completed then 1 else 0 := by
  have quiet := completions_eventsOf visited
  have shown := completions_concludes (state_of_visits visited) concludes
  have split : context.completions (context.liveOpening ++ (eventsOf visits ++ closing)) =
      context.completions (eventsOf visits) + context.completions closing := by
    simp [completions, liveOpening, opening, notice]
  rw [split, quiet, shown, Nat.zero_add]

/-- A run is shown as complete once if it is left completed, and never otherwise. -/
theorem completions_run {outcome : Outcome RunError RunReport} (branches : configuration.Branches)
    (runs : Runs (context.run configuration before) events (outcome, after)) :
    context.completions events = if after.state = .completed then 1 else 0 := by
  rcases runs_run_cases runs with
    ⟨rfl, _, rfl⟩ | ⟨acting, closing, stop, middle, rfl, runsActions, concludes⟩
  · simp [completions, opening, notice, inState]
  · obtain ⟨visits, rfl, visited⟩ := visits_of_branches branches runsActions
    have shown := completions_course visited concludes
    rwa [liveOpening, List.append_assoc] at shown

theorem state_of_run {outcome : Outcome RunError RunReport}
    (runs : Runs (context.run configuration before) events (outcome, after)) :
    (∀ report, outcome = .value report → after = report) ∧
      ∀ error, outcome = .error error → after.state = stateOfError error := by
  rcases runs_run_cases runs with
    ⟨_, rfl, rfl⟩ | ⟨_, _, stop, middle, _, _, concludes⟩
  · simp
  · cases concludes with
    | finished completion => cases completion <;> simp
    | _ => simp [inState]

/-- What a run that passes its first poll reports of the agenda of a zone. -/
structure ReportsAgenda (context : DispatchContext) (configuration : Configuration) (zone : Zone)
    (events : List Event) (outcome : Outcome RunError RunReport) (after : Progress) : Prop where
  /-- A report counts the steps executed, which are all of the agenda if it says completed. -/
  report : ∀ report, outcome = .value report → after = report ∧
    ∃ executed remaining, executed ++ remaining = configuration.agenda zone ∧
      report.state = (if remaining = [] then .completed else .aborted) ∧
      report.stepsExecuted = executed.length ∧
      report.zone = if executed.any ActionStep.isMarker then some zone else none
  error : ∀ error, outcome = .error error → after.state = stateOfError error
  /-- A step that does not resolve leaves the dispatcher faulted. -/
  faulted : ∀ step error, Command.resolve step = .error error → outcome = .error error →
    after.state = .faulted
  shown : context.completions events = if after.state = .completed then 1 else 0

/-- For the agenda of the zone that the classifier answers, a run of a fresh dispatcher makes the
calls of the plain loop in their order and gives its result, and reports what was executed. -/
theorem runs_run_iff_runs_plainRun {root : Xml.Element} {selector : String}
    (accepted : Document.ofRoot root selector = .ok configuration) (context : DispatchContext)
    {outcome : Outcome RunError RunReport}
    (finds : ∀ event ∈ events, FindsZone zone event.request event.reply) :
    ((∃ after, Runs (context.run configuration .fresh) events (outcome, after)) ↔
      Runs (context.plainRun configuration zone) events outcome) ∧
    ∀ after, Runs (context.run configuration .fresh) events (outcome, after) →
      context.liveOpening <+: events →
      context.ReportsAgenda configuration zone events outcome after := by
  have branches := (Document.accepted_ofRoot accepted).branches
  have simulates : Program.Simulates (FindsZone zone) (fun final outcome => final.1 = outcome)
      (context.run configuration .fresh) (context.plainRun configuration zone) :=
    simulates_run branches
  have forth {after : Progress}
      (runs : Runs (context.run configuration .fresh) events (outcome, after)) :
      Runs (context.plainRun configuration zone) events outcome := by
    obtain ⟨_, rfl, runsPlain⟩ := simulates.runs runs finds
    exact runsPlain
  refine ⟨⟨?_, ?_⟩, ?_⟩
  · rintro ⟨after, runs⟩
    exact forth runs
  · intro runsPlain
    obtain ⟨⟨_, after⟩, rfl, runs⟩ := simulates.symm.runs runsPlain finds
    exact ⟨after, runs⟩
  · rintro after runs ⟨rest, rfl⟩
    obtain ⟨reported, errorState⟩ := state_of_run runs
    refine
      { report := ?_
        error := errorState
        faulted := ?_
        shown := completions_run branches runs }
    · rintro report rfl
      obtain ⟨executed, remaining, whole, rfl⟩ := report_of_runs_plainRun (forth runs)
      exact ⟨reported _ rfl, executed, remaining, whole, rfl, rfl, rfl⟩
    · intro step error resolved same
      rw [errorState error same]
      rcases Command.resolve_error_cases resolved with rfl | ⟨_, _, rfl⟩ <;> rfl

theorem findsZone_of_answers {σ α : Type} (answer : (request : Call) → σ → request.Reply × σ)
    (answers : ∀ world, (answer (.robot .currentZone) world).1 = .ok zone) (program : Program α)
    (world : σ) :
    ∀ event ∈ program.events answer world, FindsZone zone event.request event.reply := by
  refine Program.forall_events ?_ program world
  intro request world
  cases request with
  | host call => trivial
  | robot call =>
      cases call with
      | currentZone =>
          rw [answers]
          exact rfl
      | _ => trivial

theorem runs_run_iff_runs_plainRun_sample :
    ∃ events outcome after,
      Runs (sampleContext.run Document.sampleConfiguration .fresh) events (outcome, after) ∧
      Runs (sampleContext.plainRun Document.sampleConfiguration .left) events outcome ∧
      sampleContext.ReportsAgenda Document.sampleConfiguration .left events outcome after := by
  have runs := Program.runs_exec (obliging .left)
    (sampleContext.run Document.sampleConfiguration .fresh) .zero
  have finds := findsZone_of_answers (obliging .left) (fun _ => rfl)
    (sampleContext.run Document.sampleConfiguration .fresh) Duration.zero
  obtain ⟨same, reports⟩ :=
    runs_run_iff_runs_plainRun Document.ofRoot_sampleRoot sampleContext finds
  exact ⟨_, _, _, runs, same.mp ⟨_, runs⟩, reports _ runs ⟨_, rfl⟩⟩

end DispatchContext

end RobotRoutine
