import RobotRoutine.Proofs.Run.Heeding
import RobotRoutine.Proofs.Run.MotorSafety
import RobotRoutine.Proofs.Run.Report

/-!
Interruptions that a collaborator reports.

A run ends with the error that it makes of a failure, and with the stop request in its chain it ends
interrupted and aborted.  Two replies are passed over: that of a zeroing while another mishap is on
its way out, and that of the display to which a run is shown that has come to its end.  And a
channel whose zeroing crashes unwinds the run instead.
-/

namespace RobotRoutine

open Program (Runs Event)

/-- A failure is reported with the stop request in its chain. -/
def Program.Event.interrupts (event : Event) : Bool :=
  match event.mishap? with
  | some (.failed failure) => failure.hasInterruption
  | _ => false

theorem exists_failed_of_interrupts {event : Event} (interrupts : event.interrupts = true) :
    ∃ failure, event.mishap? = some (.failed failure) ∧ failure.hasInterruption = true := by
  unfold Event.interrupts at interrupts
  split at interrupts
  case h_1 failure failed => exact ⟨failure, failed, interrupts⟩
  case h_2 => cases interrupts

theorem stopOf?_of_failed {event : Event} {failure : Failure}
    (failed : event.mishap? = some (.failed failure)) :
    stopOf? event = some (.error (errorOf event.request failure)) := by
  simp [Task.ending?, failed, runErrors]

theorem errorOf_of_hasInterruption {failure : Failure} (inside : failure.hasInterruption = true)
    (request : Call) : errorOf request failure = .interrupted := by
  unfold errorOf
  split <;> exact if_pos inside

namespace DispatchContext

variable {context : DispatchContext} {configuration : Configuration}
variable {before after : Progress} {earlier later : List Event} {event : Event}
  {stop : Outcome RunError Empty} {outcome : Outcome RunError RunReport}

/-- The replies that a run passes over, and what it ends with instead. -/
inductive PassesOver (context : DispatchContext) :
    List Event → Event → Outcome RunError RunReport × Progress → Prop where
  /-- The channel could not be zeroed while something else was on its way out. -/
  | leaving {before previous channel failure stop outcome after} :
      stopOf? previous = some stop → stop.Passes outcome →
      PassesOver context (before ++ [previous]) (zeroing channel (.failed failure)) (outcome, after)
  /-- The run came to its end, and only that could not be shown. -/
  | completion {before failure report} :
      report.state = .completed →
      PassesOver context
        (before ++ [⟨.robot (.addItem context.tag completionText), Receipt.returned⟩])
        ⟨.robot .refresh, Answer.failed failure⟩ (.value report, report)

theorem stopOf?_opening (live : Bool) :
    ∀ event ∈ opening context ++ [⟨.robot .isActive, live⟩], stopOf? event = none := by
  simp only [opening, List.cons_append, List.nil_append, List.forall_mem_cons]
  exact ⟨rfl, rfl, rfl, List.forall_mem_nil _⟩

/-- A mishap comes behind the events that are none. -/
theorem skip_spared {spared rest : List Event} (none : ∀ event ∈ spared, stopOf? event = none)
    (stops : stopOf? event = some stop) (same : earlier ++ event :: later = spared ++ rest) :
    ∃ begun, earlier = spared ++ begun ∧ rest = begun ++ event :: later := by
  rcases split_cases same with ⟨_, rfl, _⟩ | behind
  · have spared := none event (by simp)
    rw [stops] at spared
    cases spared
  · exact behind

theorem skip_spared_cons {first : Event} {rest : List Event} (none : stopOf? first = none)
    (stops : stopOf? event = some stop) (same : earlier ++ event :: later = first :: rest) :
    ∃ begun, earlier = first :: begun ∧ rest = begun ++ event :: later :=
  skip_spared (List.forall_mem_singleton.mpr none) stops same

theorem eq_of_singleton {last : Event} (same : [last] = earlier ++ event :: later) :
    earlier = [] ∧ event = last ∧ later = [] := by
  simpa [List.append_eq_singleton_iff] using same.symm

/-- A mishap in a run is one of its steps, or of showing that it is complete. -/
theorem mishap_of_run_cases
    (runs : Runs (context.run configuration before) (earlier ++ event :: later) (outcome, after))
    (stops : stopOf? event = some stop) :
    (∃ first begun way closing ending middle, earlier = first ++ begun ∧ later = way ++ closing ∧
      Runs (context.runActions configuration (inState .running before)) (begun ++ event :: way)
        (ending, middle) ∧
      Concludes context middle ending closing (outcome, after)) ∨
    ∃ first begun, earlier = first ++ begun ∧ after.state = .completed ∧
      Completion context after (begun ++ event :: later) outcome := by
  rcases runs_run_cases runs with
    ⟨same, _⟩ | ⟨acting, closing, ending, middle, same, runsActions, concludes⟩
  · rw [List.append_cons _ _ [_]] at same
    obtain ⟨begun, _, rest⟩ := skip_spared (stopOf?_opening false) stops same
    obtain ⟨rfl, rfl, rfl⟩ := eq_of_singleton rest
    cases stops
  · rw [List.append_cons _ _ (acting ++ closing)] at same
    obtain ⟨rest, rfl, inside⟩ := skip_spared (stopOf?_opening true) stops same
    rcases split_cases inside.symm with ⟨way, rfl, rfl⟩ | ⟨begun, rfl, rfl⟩
    · exact .inl ⟨_, rest, way, closing, ending, middle, rfl, rfl, runsActions, concludes⟩
    · refine .inr ?_
      generalize there : begun ++ event :: later = closing at concludes
      cases concludes with
      | @finished shown _ completion =>
          obtain ⟨begun, rfl, rfl⟩ := skip_spared_cons rfl stops there
          refine ⟨opening context ++ [⟨.robot .isActive, true⟩] ++ acting ++
            [notice "Exiting dispatcher"], begun, ?_, rfl, completion⟩
          rw [List.append_cons acting]
          simp only [List.append_assoc]
      | stopped | error =>
          obtain ⟨rfl, rfl, rfl⟩ := eq_of_singleton there.symm
          cases stops
      | _ => simp at there

/-- A failed display leaves a run complete that has come to its end. -/
theorem eq_of_completion {report : RunReport} {failure : Failure}
    (completion : Completion context report (earlier ++ event :: later) outcome)
    (failed : event.mishap? = some (.failed failure)) :
    earlier = [⟨.robot (.addItem context.tag completionText), Receipt.returned⟩] ∧
      event = ⟨.robot .refresh, Answer.failed failure⟩ ∧ outcome = .value report := by
  have stops := stopOf?_of_failed failed
  generalize same : earlier ++ event :: later = shown at completion
  cases completion with
  | notShown =>
      obtain ⟨rfl, rfl, rfl⟩ := eq_of_singleton same.symm
      cases failed
  | notRefreshed =>
      obtain ⟨begun, rfl, rest⟩ := skip_spared_cons rfl stops same
      obtain ⟨rfl, rfl, rfl⟩ := eq_of_singleton rest
      cases failed
  | @shown answer returned =>
      obtain ⟨begun, rfl, rest⟩ := skip_spared_cons rfl stops same
      obtain ⟨rfl, rfl, rfl⟩ := eq_of_singleton rest
      cases answer with
      | failed =>
          cases failed
          exact ⟨rfl, rfl, rfl⟩
      | _ => cases failed

theorem passes_of_concludes {middle : Progress} {ended : Outcome RunError Empty}
    {stopped : Outcome RunError Flow} {closing : List Event} (passes : ended.Passes stopped)
    (concludes : Concludes context middle stopped closing (outcome, after)) :
    ended.Passes outcome ∧ ∀ crash, ended = .crash crash → closing = [] := by
  cases passes <;> cases concludes <;> exact ⟨by constructor, by simp⟩

/-- A failure in a run is its error, if neither the zeroing behind it crashes nor the run passes it
over. -/
theorem ending_of_failure {failure : Failure}
    (runs : Runs (context.run configuration before) (earlier ++ event :: later) (outcome, after))
    (failed : event.mishap? = some (.failed failure)) :
    (outcome = .error (errorOf event.request failure) ∧
        after.state = stateOfError (errorOf event.request failure)) ∨
      (event.request.InCommand ∧ ∃ channel crash, later = [zeroing channel (.crashed crash)] ∧
        outcome = .crash crash) ∨
      context.PassesOver earlier event (outcome, after) := by
  have stops := stopOf?_of_failed failed
  rcases mishap_of_run_cases runs stops with
    ⟨first, begun, way, closing, ending, middle, rfl, rfl, runsActions, concludes⟩ |
      ⟨first, begun, rfl, completed, completion⟩
  · by_cases leaving : Leaving begun event
    · obtain ⟨before, previous, channel, answer, rfl, rfl, stopsBefore⟩ := leaving
      obtain ⟨stop, causes⟩ := Option.ne_none_iff_exists'.mp stopsBefore
      cases answer with
      | failed failure =>
          rw [← List.append_cons] at runsActions
          obtain ⟨rfl, ended, heeded, passes⟩ :=
            (heedful_runActions _).of_leaving runsActions causes
          obtain ⟨passes, _⟩ := passes_of_concludes passes concludes
          rw [← List.append_assoc]
          refine .inr (.inr ?_)
          cases heeded
          exact .leaving causes passes
      | _ => cases failed
    · obtain ⟨ended, heeded, passes⟩ := heedful_runActions _ _ _ _ _ _ runsActions stops leaving
      obtain ⟨passes, nothing⟩ := passes_of_concludes passes concludes
      cases heeded with
      | @unwound _ channel crash inCommand =>
          obtain rfl := nothing crash rfl
          cases passes
          exact .inr (.inl ⟨inCommand, channel, crash, rfl, rfl⟩)
      | _ =>
          cases passes
          exact .inl ⟨rfl, (state_of_run runs).2 _ rfl⟩
  · obtain ⟨rfl, rfl, rfl⟩ := eq_of_completion completion failed
    exact .inr (.inr (.completion completed))

/-- An interruption that a collaborator reports interrupts the run, if neither the zeroing behind it
crashes nor the run passes it over. -/
theorem interrupted_of_interrupts
    (runs : Runs (context.run configuration before) (earlier ++ event :: later) (outcome, after))
    (interrupts : event.interrupts = true) :
    (outcome = .error .interrupted ∧ after.state = .aborted) ∨
      (∃ channel crash, later = [zeroing channel (.crashed crash)] ∧ outcome = .crash crash) ∨
      context.PassesOver earlier event (outcome, after) := by
  obtain ⟨failure, failed, inside⟩ := exists_failed_of_interrupts interrupts
  have ending := ending_of_failure runs failed
  rw [errorOf_of_hasInterruption inside] at ending
  rcases ending with interrupted | ⟨_, crashed⟩ | passedOver
  · exact .inl interrupted
  · exact .inr (.inl crashed)
  · exact .inr (.inr passedOver)

/-- A world in which the sensor and the zeroing of a channel are answered as given. -/
def drivenBy (reading : Answer Binary64) (zeroed : Answer Unit) :
    (request : Call) → Duration → request.Reply × Duration
  | .robot (.readSensor _), clock => (reading, clock)
  | .robot (.setPower _ power), clock =>
      (if power = Binary64.zero then zeroed else .ok (), clock)
  | request, clock => obliging .left request clock

theorem interrupted_of_interrupts_reading :
    ∃ earlier event later after,
      Runs (sampleContext.run sampleDrive .fresh) (earlier ++ event :: later)
        (.error .interrupted, after) ∧
      event.interrupts = true ∧ after.state = .aborted := by
  let answer := drivenBy (.failed (.context "bus" .interrupted)) (.ok ())
  have runs := Program.runs_exec answer (sampleContext.run sampleDrive .fresh) .zero
  have read : ((sampleContext.run sampleDrive .fresh).events answer .zero).any (fun event =>
      event.interrupts && event.request = .robot (.readSensor ⟨0⟩)) = true := by decide +kernel
  have failed : (match ((sampleContext.run sampleDrive .fresh).exec answer .zero).1.1 with
      | .error _ => true
      | _ => false) = true := by decide +kernel
  obtain ⟨event, member, holds⟩ := List.any_eq_true.mp read
  obtain ⟨earlier, later, same⟩ := List.append_of_mem member
  rw [Bool.and_eq_true, decide_eq_true_eq] at holds
  rw [same] at runs
  generalize ((sampleContext.run sampleDrive .fresh).exec answer .zero).1 = ended at runs failed
  obtain ⟨outcome, after⟩ := ended
  rcases interrupted_of_interrupts runs holds.1 with
    ⟨rfl, aborted⟩ | ⟨_, _, _, rfl⟩ | passedOver
  · exact ⟨earlier, event, later, after, runs, holds.1, aborted⟩
  · cases failed
  · cases passedOver <;> exact absurd holds.2 (by simp [zeroing])

/-- A world in which the display reports an interruption whenever it is to be shown. -/
def interruptedDisplay : (request : Call) → Duration → request.Reply × Duration
  | .robot .refresh, clock => (.failed .interrupted, clock)
  | request, clock => obliging .left request clock

def stepless : Configuration := { sampleDrive with actions := [] }

/-- A run with an interruption that leaves the dispatcher in a certain state. -/
structure LeavesIn (answer : (request : Call) → Duration → request.Reply × Duration)
    (configuration : Configuration) (state : RunState) : Prop where
  interrupts : ((sampleContext.run configuration .fresh).events answer .zero).any
    Event.interrupts = true
  state : ((sampleContext.run configuration .fresh).exec answer .zero).1.2.state = state

/-- Interruptions by which a run faults, completes and unwinds. -/
theorem interruption_passed_over :
    LeavesIn (drivenBy (.failed (.plain "offline")) (.failed .interrupted)) sampleDrive .faulted ∧
      LeavesIn interruptedDisplay stepless .completed ∧
      LeavesIn (drivenBy (.failed .interrupted) (.crashed .mute)) sampleDrive .running :=
  ⟨⟨by decide +kernel, by decide +kernel⟩, ⟨by decide +kernel, by decide +kernel⟩,
    ⟨by decide +kernel, by decide +kernel⟩⟩

end DispatchContext

end RobotRoutine
