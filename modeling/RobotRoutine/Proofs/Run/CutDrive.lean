import RobotRoutine.Proofs.Run.MotorSafety
import RobotRoutine.Proofs.Run.Report

/-!
Drives that are cut short.

A drive ends in the same way whether its time is up or the run is no longer live, and the dispatcher
does not ask which of the two it was: the drive is counted as executed.  That the run is no longer
live is found at the next step alone.  So if a drive that was cut short is the last step there is,
the run is reported as completed.
-/

namespace RobotRoutine

open Program (Runs Event)

def poll? : Event → Option Bool
  | ⟨.robot .isActive, live⟩ => some live
  | _ => none

def polls (events : List Event) : List Bool := events.filterMap poll?

@[simp]
theorem polls_append (first second : List Event) :
    polls (first ++ second) = polls first ++ polls second :=
  List.filterMap_append

@[simp]
theorem polls_isActive (live : Bool) (events : List Event) :
    polls (⟨.robot .isActive, live⟩ :: events) = live :: polls events := rfl

/-- Once the run is found not to be live, it is never found live again. -/
def Steady (events : List Event) : Prop :=
  (polls events).Pairwise fun earlier later => earlier = false → later = false

namespace DispatchContext

variable {context : DispatchContext} {configuration : Configuration} {before after : Progress}
  {steps : List ActionStep} {events : List Event} {flow : Flow}

/-- The visit of a step that found the run live. -/
def Visit.Live (visit : Visit) : Prop := ∃ rest, visit.events = ⟨.robot .isActive, true⟩ :: rest

def lostVisit (step : ActionStep) : Visit := ⟨step, [⟨.robot .isActive, false⟩]⟩

/-- The visit of a drive in which the run was found not to be live any more. -/
structure Visit.CutShort (visit : Visit) : Prop where
  drive : ∃ direction duration, Command.resolve visit.step = .ok (.drive direction duration)
  cut : ∃ rest, visit.events = ⟨.robot .isActive, true⟩ :: rest ∧ false ∈ polls rest

/-- Every visit that is gone on from was live, and is counted. -/
theorem live_of_visit {step : ActionStep} {spliced : List ActionStep}
    (runs : Runs (context.visit configuration step before) events (.value (some spliced), after)) :
    Visit.Live ⟨step, events⟩ ∧ after.stepsExecuted = before.stepsExecuted + 1 := by
  cases visited_of_runs runs with
  | found => exact ⟨⟨_, rfl⟩, rfl⟩
  | carried => exact ⟨⟨_, rfl⟩, rfl⟩
  | stopped _ _ _ passes => cases passes

/-- Visits that come to an end are live and counted, but for a last one that was lost. -/
theorem count_of_visits {visits : List Visit}
    (made : Visits context configuration before steps visits (.value flow, after)) :
    (flow = .finished ∧ (∀ visit ∈ visits, visit.Live) ∧
      after.stepsExecuted = before.stepsExecuted + visits.length) ∨
    (flow = .stopped ∧ ∃ executed step, visits = executed ++ [lostVisit step] ∧
      (∀ visit ∈ executed, visit.Live) ∧
      after.stepsExecuted = before.stepsExecuted + executed.length) := by
  generalize same : (Outcome.value flow, after) = ending at made
  induction made with
  | exhausted =>
      cases same
      exact .inl ⟨rfl, by simp, rfl⟩
  | @lost _ step _ _ _ runs =>
      cases same
      cases visited_of_runs runs with
      | lost => exact .inr ⟨rfl, [], step, rfl, by simp, rfl⟩
      | stopped _ _ _ passes => cases passes
  | ended _ passes =>
      cases same
      exact absurd rfl (passes.ne_value _)
  | next runs _ inductionHypothesis =>
      obtain ⟨live, counts⟩ := live_of_visit runs
      rcases inductionHypothesis same with
        ⟨rfl, lives, count⟩ | ⟨rfl, executed, step, rfl, lives, count⟩
      · refine .inl ⟨rfl, List.forall_mem_cons.mpr ⟨live, lives⟩, ?_⟩
        rw [List.length_cons]
        omega
      · refine .inr ⟨rfl, _ :: executed, step, rfl, List.forall_mem_cons.mpr ⟨live, lives⟩, ?_⟩
        rw [List.length_cons]
        omega

theorem polls_eventsOf_cons (visit : Visit) (visits : List Visit) :
    polls (eventsOf (visit :: visits)) = polls visit.events ++ polls (eventsOf visits) :=
  polls_append visit.events (eventsOf visits)

theorem eventsOf_append (first second : List Visit) :
    eventsOf (first ++ second) = eventsOf first ++ eventsOf second :=
  List.flatMap_append

/-- No step behind a drive that was cut short finds the run live. -/
theorem not_live_of_cutShort {earlier later : List Visit} {visit : Visit}
    (steady : Steady (eventsOf (earlier ++ visit :: later))) (cut : visit.CutShort) :
    ∀ other ∈ later, ¬ other.Live := by
  rintro other member ⟨rest, live⟩
  rw [Steady, eventsOf_append, polls_append, polls_eventsOf_cons] at steady
  have apart := (List.pairwise_append.mp (List.pairwise_append.mp steady).2.1).2.2
  obtain ⟨doing, polled, lost⟩ := cut.cut
  have lostThere : false ∈ polls visit.events := by
    rw [polled, polls_isActive]
    exact List.mem_cons_of_mem true lost
  have liveLater : true ∈ polls (eventsOf later) := by
    refine List.mem_filterMap.mpr ⟨⟨.robot .isActive, true⟩, ?_, rfl⟩
    refine List.mem_flatMap.mpr ⟨other, member, ?_⟩
    rw [live]
    exact List.mem_cons_self
  exact absurd (apart false lostThere true liveLater rfl) (by simp)

/-- A drive that was cut short is counted, and nothing but a lost visit may follow it. -/
theorem count_of_cutShort {earlier later : List Visit} {visit : Visit}
    (made : Visits context configuration before steps (earlier ++ visit :: later)
      (.value flow, after))
    (steady : Steady (eventsOf (earlier ++ visit :: later))) (cut : visit.CutShort) :
    after.stepsExecuted = before.stepsExecuted + earlier.length + 1 ∧
      (later = [] ∧ flow = .finished ∨ ∃ step, later = [lostVisit step] ∧ flow = .stopped) := by
  have notLive := not_live_of_cutShort steady cut
  rcases count_of_visits made with ⟨rfl, lives, count⟩ | ⟨rfl, executed, step, same, lives, count⟩
  · cases later with
    | nil =>
        rw [List.length_append, List.length_singleton] at count
        exact ⟨by omega, .inl ⟨rfl, rfl⟩⟩
    | cons other later => exact absurd (lives other (by simp)) (notLive other (by simp))
  · rcases List.eq_nil_or_concat later with rfl | ⟨others, last, rfl⟩
    · obtain ⟨_, here⟩ := List.append_inj' same rfl
      obtain ⟨rest, polled, lost⟩ := cut.cut
      cases here
      cases polled
    · rw [List.concat_eq_append, ← List.cons_append, ← List.append_assoc] at same
      obtain ⟨rfl, here⟩ := List.append_inj' same rfl
      obtain rfl : last = lostVisit step := List.singleton_inj.mp here
      cases others with
      | nil =>
          rw [List.length_append, List.length_singleton] at count
          exact ⟨by omega, .inr ⟨step, rfl, rfl⟩⟩
      | cons other others => exact absurd (lives other (by simp)) (notLive other (by simp))

/-- A report says that the run was completed, and it was shown so, or that it was aborted, and it
was found not to be live. -/
def Tells (context : DispatchContext) (events : List Event) (report : RunReport) : Prop :=
  report.state = .completed ∧ context.completions events = 1 ∨
    report.state = .aborted ∧ context.completions events = 0 ∧ false ∈ polls events

theorem tells_of_run {report : RunReport}
    (runs : Runs (context.run configuration before) events (.value report, after)) :
    context.Tells events report := by
  rcases visits_run_cases runs (by simp) with
    ⟨rfl, same, rfl⟩ | ⟨visits, closing, stop, middle, rfl, made, _, concludes⟩
  · cases same
    refine .inr ⟨rfl, ?_, ?_⟩
    · simp [completions, opening, notice]
    · simp [polls, poll?, opening, notice]
  · have shown := completions_course made concludes
    rw [liveOpening, List.append_assoc] at shown
    cases concludes with
    | finished completion =>
        cases completion
        exact .inl ⟨rfl, shown⟩
    | stopped =>
        obtain ⟨impossible, _⟩ | ⟨_, executed, step, rfl, _⟩ := count_of_visits made
        · cases impossible
        · refine .inr ⟨rfl, shown, ?_⟩
          simp [lostVisit, eventsOf]

/-- What a report says of a run in which a drive was cut short. -/
structure CountsCut (context : DispatchContext) (before : Progress) (events : List Event)
    (report : RunReport) (earlier later : List Visit) : Prop where
  /-- The drive is counted, as all steps before it are. -/
  counted : report.stepsExecuted = before.stepsExecuted + earlier.length + 1
  /-- The run is aborted if there is another step to find it out, and else completed. -/
  ending : later = [] ∧ report.state = .completed ∧ context.completions events = 1 ∨
    ∃ step, later = [lostVisit step] ∧ report.state = .aborted ∧ context.completions events = 0

theorem polls_of_concludes {middle : Progress} {stop : Outcome RunError Flow} {closing : List Event}
    {ending : Outcome RunError RunReport × Progress}
    (concludes : Concludes context middle stop closing ending) : polls closing = [] := by
  cases concludes with
  | finished completion => cases completion <;> rfl
  | _ => rfl

/-- A drive that was cut short is counted like any other, and if it is the last step that was come
to, the run is reported and shown as complete. -/
theorem report_of_cut_drive {report : RunReport}
    (runs : Runs (context.run configuration before) events (.value report, after))
    (live : context.liveOpening <+: events) (steady : Steady events) :
    ∃ visits ending closing, events = context.liveOpening ++ (eventsOf visits ++ closing) ∧
      Visits context configuration (inState .running before) configuration.actions visits ending ∧
      polls closing = [] ∧
      ∀ earlier visit later, visits = earlier ++ visit :: later → visit.CutShort →
        context.CountsCut before events report earlier later := by
  rcases visits_run_cases runs (by simp) with
    ⟨rfl, _⟩ | ⟨visits, closing, stop, middle, rfl, made, _, concludes⟩
  · obtain ⟨_, same⟩ := live
    simp [liveOpening] at same
  · have split : opening context ++ ⟨.robot .isActive, true⟩ :: (eventsOf visits ++ closing) =
        context.liveOpening ++ (eventsOf visits ++ closing) := by
      rw [liveOpening, List.append_assoc, List.singleton_append]
    have shown := completions_course made concludes
    refine ⟨visits, _, closing, split, made, polls_of_concludes concludes, ?_⟩
    rintro earlier visit later rfl cut
    rw [split] at steady ⊢
    rw [Steady, polls_append, polls_append] at steady
    have steadyVisits : Steady (eventsOf (earlier ++ visit :: later)) :=
      (List.pairwise_append.mp (List.pairwise_append.mp steady).2.1).1
    cases concludes with
    | finished completion =>
        obtain ⟨counted, ⟨rfl, _⟩ | ⟨_, _, impossible⟩⟩ := count_of_cutShort made steadyVisits cut
        · cases completion
          exact { counted, ending := .inl ⟨rfl, rfl, shown⟩ }
        · cases impossible
    | stopped =>
        obtain ⟨counted, ⟨_, impossible⟩ | ⟨step, rfl, _⟩⟩ :=
          count_of_cutShort made steadyVisits cut
        · cases impossible
        · exact { counted, ending := .inr ⟨step, rfl, rfl, shown⟩ }

/-- A world without time that is found live as often as is left, and never again. -/
def losingLiveness : (request : Call) → Nat → request.Reply × Nat
  | .robot .isActive, left => (decide (0 < left), left - 1)
  | request, left => ((obliging .left request .zero).1, left)

def longStep : ActionStep := ⟨"FORWARD_BY_TIME", [("seconds", "30")]⟩

/-- A configuration of nothing but a drive of half a minute. -/
def longDrive : Configuration where
  loggingThreshold := none
  regionOfInterest := .empty
  tagsOfInterest := []
  startingPose := none
  actions := [longStep]
  branchTable := none

theorem drive_longStep :
    ∃ direction duration, Command.resolve longStep = .ok (.drive direction duration) := by
  have resolved : (match Command.resolve longStep with
      | .ok (.drive _ _) => true
      | _ => false) = true := by decide +kernel
  split at resolved
  case h_1 same => exact ⟨_, _, same⟩
  case h_2 => cases resolved

/-- The visit of the only step, with the polls of the run in which the last one is lost. -/
theorem cutShort_of_visits {visits : List Visit} {ending : Outcome RunError Flow × Progress}
    (made : Visits context longDrive before [longStep] visits ending)
    (polled : polls (eventsOf visits) = [true, true, false]) :
    ∃ visit, visits = [visit] ∧ visit.CutShort := by
  have only : ∃ part final, Runs (context.visit longDrive longStep before) part final ∧
      visits = [⟨longStep, part⟩] := by
    cases made with
    | lost runs => exact ⟨_, _, runs, rfl⟩
    | ended runs => exact ⟨_, _, runs, rfl⟩
    | next runs others =>
        obtain ⟨marker, _⟩ | ⟨_, rfl⟩ := spliced_of_visit runs
        · exact absurd marker (by decide)
        · cases others
          exact ⟨_, _, runs, rfl⟩
  obtain ⟨part, final, runs, rfl⟩ := only
  obtain ⟨live, rest, rfl⟩ := poll_of_runs_visit runs
  rw [polls_eventsOf_cons, polls_isActive, List.cons_append, List.cons.injEq] at polled
  obtain ⟨rfl, behind⟩ := polled
  change polls rest ++ [] = [true, false] at behind
  rw [List.append_nil] at behind
  refine ⟨_, rfl, { drive := drive_longStep, cut := ⟨rest, rfl, ?_⟩ }⟩
  rw [behind]
  decide

/-- The run of a drive that is cut short in its first seconds and reported as completed. -/
theorem report_of_cut_drive_longDrive :
    ∃ visit closing report after,
      Runs (sampleContext.run longDrive .fresh)
        (sampleContext.liveOpening ++ (eventsOf [visit] ++ closing)) (.value report, after) ∧
      visit.CutShort ∧ report.state = .completed ∧ report.stepsExecuted = 1 ∧
      sampleContext.completions
        (sampleContext.liveOpening ++ (eventsOf [visit] ++ closing)) = 1 := by
  have runs := Program.runs_exec losingLiveness (sampleContext.run longDrive .fresh) 3
  have polled : polls ((sampleContext.run longDrive .fresh).events losingLiveness 3) =
      [true, true, true, false] := by decide +kernel
  have steady : Steady ((sampleContext.run longDrive .fresh).events losingLiveness 3) := by
    rw [Steady, polled]
    decide
  have given : (match ((sampleContext.run longDrive .fresh).exec losingLiveness 3).1.1 with
      | .value _ => true
      | _ => false) = true := by decide +kernel
  generalize ((sampleContext.run longDrive .fresh).exec losingLiveness 3).1 = ended at runs given
  obtain ⟨_ | _ | _ | _ | _, after⟩ := ended
  case value report =>
    obtain ⟨visits, ending, closing, same, made, quiet, counts⟩ :=
      report_of_cut_drive runs ⟨_, rfl⟩ steady
    rw [same, polls_append, polls_append, quiet, List.append_nil] at polled
    obtain ⟨visit, rfl, cut⟩ := cutShort_of_visits made (List.cons.inj polled).2
    rw [same] at runs counts
    obtain ⟨counted, ⟨_, completed, shown⟩ | ⟨_, impossible, _⟩⟩ := counts [] visit [] rfl cut
    · exact ⟨visit, closing, report, after, runs, cut, completed, counted, shown⟩
    · cases impossible
  all_goals cases given

end DispatchContext

end RobotRoutine
