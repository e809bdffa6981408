import RobotRoutine.Proofs.Run.Visits

/-!
The course of a whole run.

A run opens with two records and a poll of liveness.  If it is live, its steps are run, and whatever
ends them is concluded: the state is set, and a run that came to its end is shown as complete.  Only
a crash leaves no conclusion.
-/

namespace RobotRoutine.DispatchContext

open Program (Runs Event)

variable {context : DispatchContext} {configuration : Configuration} {before after : Progress}
  {events : List Event}

def notice (text : String) : Event := ⟨.host (.record .info dispatchTag text), ()⟩

def opening (context : DispatchContext) : List Event :=
  [notice "At start",
    notice s!"OpMode: {context.tag}, Alliance: {context.alliance.name}"]

def inState (state : RunState) (progress : Progress) : Progress := { progress with state }

def stateOfError : RunError → RunState
  | .interrupted => .aborted
  | _ => .faulted

/-- How a run that came to its end is concluded: it is shown, and only a crash of the display keeps
the report back. -/
inductive Completion (context : DispatchContext) (report : RunReport) :
    List Event → Outcome RunError RunReport → Prop where
  | notShown {crash} :
      Completion context report [⟨.robot (.addItem context.tag "COMPLETE"), Receipt.crashed crash⟩]
        (.crash crash)
  | notRefreshed {crash} :
      Completion context report
        [⟨.robot (.addItem context.tag "COMPLETE"), Receipt.returned⟩,
          ⟨.robot .refresh, Answer.crashed crash⟩]
        (.crash crash)
  | shown {answer : Answer Unit} :
      (∀ crash, answer ≠ .crashed crash) →
      Completion context report
        [⟨.robot (.addItem context.tag "COMPLETE"), Receipt.returned⟩, ⟨.robot .refresh, answer⟩]
        (.value report)

/-- How the ending of the steps of a run is concluded. -/
inductive Concludes (context : DispatchContext) (middle : Progress) :
    Outcome RunError Flow → List Event → Outcome RunError RunReport × Progress → Prop where
  | finished {shown outcome} :
      Completion context (inState .completed middle) shown outcome →
      Concludes context middle (.value .finished) (notice "Exiting dispatcher" :: shown)
        (outcome, inState .completed middle)
  | stopped :
      Concludes context middle (.value .stopped) [notice "Exiting dispatcher"]
        (.value (inState .aborted middle), inState .aborted middle)
  | error {error} :
      Concludes context middle (.error error) [notice "Exiting dispatcher"]
        (.error error, inState (stateOfError error) middle)
  | crash {crash} : Concludes context middle (.crash crash) [] (.crash crash, middle)
  | halted : Concludes context middle .halted [] (.halted, middle)
  | waiting : Concludes context middle .waiting [] (.waiting, middle)

theorem runs_conclude_finished {middle : Progress} {outcome : Outcome RunError RunReport}
    (runs : Runs (context.conclude (.ok .finished) middle) events (outcome, after)) :
    Completion context (inState .completed middle) events outcome ∧
      after = inState .completed middle := by
  obtain ⟨receipt, rest, rfl, runsRest⟩ := Program.runs_call_iff.mp runs
  cases receipt with
  | crashed crash =>
      obtain ⟨rfl, same⟩ := Program.runs_done_iff.mp runsRest
      cases same
      exact ⟨.notShown, rfl⟩
  | returned =>
      obtain ⟨answer, _, rfl, runsEnd⟩ := Program.runs_call_iff.mp runsRest
      cases answer with
      | crashed crash =>
          obtain ⟨rfl, same⟩ := Program.runs_done_iff.mp runsEnd
          cases same
          exact ⟨.notRefreshed, rfl⟩
      | _ =>
          obtain ⟨rfl, same⟩ := Program.runs_done_iff.mp runsEnd
          cases same
          exact ⟨.shown (by simp), rfl⟩

theorem runs_conclude_error {error : RunError} {middle : Progress}
    {outcome : Outcome RunError RunReport}
    (runs : Runs (context.conclude (.error error) middle) events (outcome, after)) :
    events = [] ∧ outcome = .error error ∧ after = inState (stateOfError error) middle := by
  cases error <;>
    obtain ⟨rfl, same⟩ := Program.runs_done_iff.mp runs <;>
    cases same <;>
    exact ⟨rfl, rfl, rfl⟩

theorem runs_live_cases {outcome : Outcome RunError RunReport}
    (runs : Runs (((Dispatch.attempt (context.runActions configuration)).bind fun ending =>
      (Dispatch.record .info "Exiting dispatcher").bind fun _ => context.conclude ending) before)
      events (outcome, after)) :
    ∃ acting closing ending middle, events = acting ++ closing ∧
      Runs (context.runActions configuration before) acting (ending, middle) ∧
      Concludes context middle ending closing (outcome, after) := by
  obtain ⟨attempting, closing, attempted, rfl, runsAttempt, runsRest⟩ := Program.runs_of_bind runs
  obtain ⟨acting, nothing, ⟨ending, middle⟩, rfl, runsActions, runsDone⟩ :=
    Program.runs_of_bind runsAttempt
  refine ⟨acting, closing, ending, middle, ?_, runsActions, ?_⟩
  · cases ending <;> obtain ⟨rfl, -⟩ := Program.runs_done_iff.mp runsDone <;>
      rw [List.append_nil]
  · cases ending with
    | value flow =>
        obtain ⟨-, rfl⟩ := Program.runs_done_iff.mp runsDone
        obtain ⟨_, rest, rfl, runsConclude⟩ := Program.runs_call_iff.mp runsRest
        cases flow with
        | finished =>
            obtain ⟨completion, rfl⟩ := runs_conclude_finished runsConclude
            exact .finished completion
        | stopped =>
            obtain ⟨rfl, same⟩ := Program.runs_done_iff.mp runsConclude
            cases same
            exact .stopped
    | error error =>
        obtain ⟨-, rfl⟩ := Program.runs_done_iff.mp runsDone
        obtain ⟨_, rest, rfl, runsConclude⟩ := Program.runs_call_iff.mp runsRest
        obtain ⟨rfl, rfl, rfl⟩ := runs_conclude_error runsConclude
        exact .error
    | _ =>
        obtain ⟨-, rfl⟩ := Program.runs_done_iff.mp runsDone
        obtain ⟨rfl, same⟩ := Program.runs_done_iff.mp runsRest
        cases same
        constructor

theorem runs_run_cases {outcome : Outcome RunError RunReport}
    (runs : Runs (context.run configuration before) events (outcome, after)) :
    (events = opening context ++ [⟨.robot .isActive, false⟩,
        notice "OpMode inactive at start; aborting run"] ∧
      outcome = .value (inState .aborted before) ∧ after = inState .aborted before) ∨
    ∃ acting closing ending middle,
      events = opening context ++ ⟨.robot .isActive, true⟩ :: (acting ++ closing) ∧
      Runs (context.runActions configuration (inState .running before)) acting (ending, middle) ∧
      Concludes context middle ending closing (outcome, after) := by
  obtain ⟨_, _, rfl, runsBanner⟩ := Program.runs_call_iff.mp runs
  obtain ⟨_, _, rfl, runsPoll⟩ := Program.runs_call_iff.mp runsBanner
  obtain ⟨live, _, rfl, runsRest⟩ := Program.runs_call_iff.mp runsPoll
  cases live with
  | false =>
      obtain ⟨_, _, rfl, runsEnd⟩ := Program.runs_call_iff.mp runsRest
      obtain ⟨rfl, same⟩ := Program.runs_done_iff.mp runsEnd
      cases same
      exact .inl ⟨rfl, rfl, rfl⟩
  | true =>
      obtain ⟨acting, closing, ending, middle, rfl, runsActions, concludes⟩ :=
        runs_live_cases runsRest
      exact .inr ⟨acting, closing, ending, middle, rfl, runsActions, concludes⟩

/-- A run that is not left waiting is over at its first poll, or it makes its visits and is
concluded. -/
theorem visits_run_cases {outcome : Outcome RunError RunReport}
    (runs : Runs (context.run configuration before) events (outcome, after))
    (ended : outcome ≠ .waiting) :
    (events = opening context ++ [⟨.robot .isActive, false⟩,
        notice "OpMode inactive at start; aborting run"] ∧
      outcome = .value (inState .aborted before) ∧ after = inState .aborted before) ∨
    ∃ visits closing ending middle,
      events = opening context ++ ⟨.robot .isActive, true⟩ :: (eventsOf visits ++ closing) ∧
      Visits context configuration (inState .running before) configuration.actions visits
        (ending, middle) ∧
      ending ≠ .waiting ∧ Concludes context middle ending closing (outcome, after) := by
  rcases runs_run_cases runs with
    refused | ⟨acting, closing, ending, middle, rfl, runsActions, concludes⟩
  · exact .inl refused
  · have notWaiting : ending ≠ .waiting := by
      rintro rfl
      cases concludes
      exact ended rfl
    obtain ⟨visits, rfl, made⟩ := visits_of_runs_runActions runsActions notWaiting
    exact .inr ⟨visits, closing, ending, middle, rfl, made, notWaiting, concludes⟩

end RobotRoutine.DispatchContext
