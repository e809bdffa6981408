import RobotRoutine.Proofs.Check.Agreement
import RobotRoutine.Proofs.Program.Frames
import RobotRoutine.Proofs.Run.Phases

/-!
What the operator sees.

Nothing is cleared at the start of a run, so a frame may hold what was shown before.  A drive clears
first and after each of its turns, so its frames are its own whatever was left over.  A hold clears
after each of its turns only: its first frame may hold what the body has left, but never the fault
that it shows, since nothing else in a run has such a caption.
-/

namespace RobotRoutine

open Program (Runs Event)

/-- What brings no item to the display, or one with one of these captions, may do all else. -/
def captionEffects (ε : Type) (captions : List String) : Effects ε where
  calls call := call.Captioned captions
  errors _ := True
  waits := True
  halts := True

theorem Call.Captioned.mono {captions others : List String} {call : Call}
    (captioned : call.Captioned captions) (among : captions ⊆ others) : call.Captioned others := by
  unfold Captioned at captioned ⊢
  split
  · exact among captioned
  · trivial

theorem Call.captioned_of_quiet {captions : List String} {call : Call}
    (quiet : call.LeavesDisplay) : call.Captioned captions := by
  unfold Captioned
  split
  · exact quiet.elim
  · trivial

namespace DispatchContext

variable {context : DispatchContext} {configuration : Configuration} {direction : Direction}
  {items last : List Item} {frames : List (List Item)} {step : ActionStep}
  {before after : Progress} {events : List Event}

/-- A frame of a drive: its label and a position. -/
def DriveFrame (direction : Direction) (frame : List Item) : Prop :=
  ∃ position : Binary64,
    frame = [("Driving", direction.label), ("Position", position.wholeText)]

theorem driveTurns_shows (duration started : Duration) (turns : Nat) :
    (context.driveTurns direction duration started turns).Shows (DriveFrame direction) []
      Task.anyItems := by
  induction turns with
  | zero => exact Task.shows_waiting
  | succ turns inductionHypothesis =>
      rw [driveTurns]
      refine Task.shows_robot_bind trivial ?_
      intro live
      split
      · refine Task.shows_host_bind ?_
        intro now
        split
        · refine Task.shows_quiet_bind (Task.within_readSensor trivial fun _ => trivial) ?_
          intro position
          refine Task.shows_bind (Task.shows_addItem "Driving" direction.label) ?_
          rintro _ _ rfl
          refine Task.shows_bind (Task.shows_addItem "Position" position.wholeText) ?_
          rintro _ _ rfl
          refine Task.shows_bind (Task.shows_refresh ⟨position, rfl⟩) ?_
          rintro _ _ rfl
          refine Task.shows_bind Task.shows_clearItems ?_
          rintro _ _ rfl
          split
          · exact Task.shows_host_bind fun _ => inductionHypothesis
          · exact inductionHypothesis
        · exact Task.shows_result () trivial
      · exact Task.shows_result () trivial

/-- Whatever was left over, the frames of a drive are its own. -/
theorem driveByTime_shows (items : List Item) (direction : Direction) (duration : Duration) :
    (context.driveByTime direction duration).Shows (DriveFrame direction) items Task.anyItems := by
  refine Task.shows_bind Task.shows_clearItems ?_
  rintro _ _ rfl
  apply PowerHold.shows_during
  refine Task.shows_host_bind ?_
  intro started
  exact driveTurns_shows duration started context.patience

theorem restRules_quiet : RestRules fun task => task.Within (quietEffects RunError) :=
  restRules_within trivial (fun _ _ => trivial) (fun _ => trivial) trivial

/-- Of the commands only a drive does not leave the display alone. -/
theorem carryOut_quiet {command : Command}
    (other : ∀ direction given, command ≠ .drive direction given) :
    (context.carryOut step command).Within (quietEffects RunError) := by
  cases command with
  | drive direction given => exact absurd rfl (other direction given)
  | sleep duration => exact restRules_quiet.sleep duration
  | breakpoint => exact restRules_quiet.waitForOperator
  | zoneChoice => exact Task.within_result ()

theorem carryOut_shows (given : Option Duration) :
    (context.carryOut step (.drive direction given)).Shows (DriveFrame direction) items
      Task.anyItems := by
  have given : (Task.ofExcept (context.driveDuration step given)).Within
      (quietEffects RunError) := Task.within_ofExcept fun _ _ => trivial
  refine Task.shows_quiet_bind given ?_
  intro duration
  exact driveByTime_shows items direction duration

/-- What the visit of a step shows: the frames of its drive, or nothing. -/
structure Visit.InView (visit : Visit) : Prop where
  drive : ∀ direction given, Command.resolve visit.step = .ok (.drive direction given) →
    ∀ items frames last, Displays items visit.events frames last →
      ∀ frame ∈ frames, DriveFrame direction frame
  other : (∀ direction given, Command.resolve visit.step ≠ .ok (.drive direction given)) →
    ∀ event ∈ visit.events, event.request.LeavesDisplay

theorem inView_of_visit {ending : Outcome RunError (Option (List ActionStep)) × Progress}
    (runs : Runs (context.visit configuration step before) events ending) :
    Visit.InView ⟨step, events⟩ := by
  have carried {command : Command} {doing : List Event} {stop : Outcome RunError Unit}
      (resolved : Command.resolve step = .ok command)
      (runs : Runs (context.carryOut step command) doing stop) :
      Visit.InView ⟨step, ⟨.robot .isActive, true⟩ :: beginning step :: doing⟩ := by
    constructor
    · intro direction given drives items frames last displays
      cases resolved.symm.trans drives
      change Displays items ([⟨.robot .isActive, true⟩, beginning step] ++ doing) frames last
        at displays
      obtain ⟨shown, others, _, rfl, before, within⟩ := displays.split
      obtain ⟨rfl, rfl⟩ := before.of_quiet (by simp [beginning, Call.LeavesDisplay])
      exact (carryOut_shows given _ _ _ _ runs within).1
    · intro other
      rw [List.forall_mem_cons, List.forall_mem_cons]
      refine ⟨trivial, trivial, ?_⟩
      refine (Task.within_of_runs (carryOut_quiet ?_) runs).1
      rintro direction given rfl
      exact other direction given resolved
  have quiet (quiet : ∀ event ∈ events, event.request.LeavesDisplay) :
      Visit.InView ⟨step, events⟩ := by
    refine ⟨?_, fun _ => quiet⟩
    intro direction given _ items frames last displays
    obtain ⟨rfl, -⟩ := displays.of_quiet quiet
    simp
  obtain ⟨outcome, after⟩ := ending
  cases visited_of_runs runs with
  | carried _ resolved carriedOut => exact carried resolved carriedOut
  | stopped _ resolved carriedOut _ => exact carried resolved carriedOut
  | _ => exact quiet (by simp [beginning, foundZone, Call.LeavesDisplay])

/-- A dispatcher that is not refused at once visits its steps, each of them in view. -/
def StepsInView (context : DispatchContext) (configuration : Configuration) (before : Progress)
    (events : List Event) : Prop :=
  events = opening context ++ [⟨.robot .isActive, false⟩,
    notice "OpMode inactive at start; aborting run"] ∨
  ∃ visits closing ending,
    events = opening context ++ ⟨.robot .isActive, true⟩ :: (eventsOf visits ++ closing) ∧
    Visits context configuration (inState .running before) configuration.actions visits ending ∧
    ∀ visit ∈ visits, visit.InView

theorem stepsInView_of_run (branches : configuration.Branches)
    {ending : Outcome RunError RunReport × Progress}
    (runs : Runs (context.run configuration before) events ending) :
    context.StepsInView configuration before events := by
  obtain ⟨outcome, after⟩ := ending
  rcases runs_run_cases runs with ⟨refused, _⟩ | ⟨_, closing, stop, middle, rfl, runsActions, _⟩
  · exact .inl refused
  · obtain ⟨visits, rfl, visited⟩ := visits_of_branches branches runsActions
    refine .inr ⟨visits, closing, _, rfl, visited, ?_⟩
    exact visited.forall_visit fun runs _ => inView_of_visit runs

theorem covers_captionEffects (step : ActionStep) :
    context.Covers step (captionEffects RunError driveCaptions) where
  polls _ made := made.2.2
  powers _ := trivial
  zeroing := trivial
  device _ := trivial
  duration _ _ _ := trivial
  waits := trivial
  halts := trivial

theorem captioned_of_visit {ending : Outcome RunError (Option (List ActionStep)) × Progress}
    (runs : Runs (context.visit configuration step before) events ending) :
    ∀ event ∈ events, event.request.Captioned driveCaptions := by
  have carried {command : Command} {doing : List Event} {stop : Outcome RunError Unit}
      (runs : Runs (context.carryOut step command) doing stop) :
      ∀ event ∈ ⟨.robot .isActive, true⟩ :: beginning step :: doing,
        event.request.Captioned driveCaptions := by
    rw [List.forall_mem_cons, List.forall_mem_cons]
    have within := carryOut_within_of (context.covers_captionEffects step) command
    exact ⟨trivial, trivial, (Task.within_of_runs within runs).1⟩
  obtain ⟨outcome, after⟩ := ending
  cases visited_of_runs runs with
  | carried _ _ carriedOut => exact carried carriedOut
  | stopped _ _ carriedOut _ => exact carried carriedOut
  | _ => simp [beginning, foundZone, Call.Captioned]

theorem captioned_of_concludes {middle : Progress} {stop : Outcome RunError Flow}
    {ending : Outcome RunError RunReport × Progress} {closing : List Event}
    (concludes : Concludes context middle stop closing ending) :
    ∀ event ∈ closing, event.request.Captioned [context.tag] := by
  cases concludes with
  | finished completion => cases completion <;> simp [notice, Call.Captioned]
  | _ => simp [notice, Call.Captioned]

/-- The items of a dispatcher are those of its drives and the one that it is completed with. -/
theorem captioned_of_run (branches : configuration.Branches)
    {ending : Outcome RunError RunReport × Progress}
    (runs : Runs (context.run configuration before) events ending) :
    ∀ event ∈ events, event.request.Captioned (context.tag :: driveCaptions) := by
  have opens : ∀ event ∈ opening context,
      event.request.Captioned (context.tag :: driveCaptions) := by
    simp [opening, notice, Call.Captioned]
  obtain ⟨outcome, after⟩ := ending
  rcases runs_run_cases runs with
    ⟨rfl, _⟩ | ⟨_, closing, stop, middle, rfl, runsActions, concludes⟩
  · rw [List.forall_mem_append]
    exact ⟨opens, by simp [notice, Call.Captioned]⟩
  · obtain ⟨visits, rfl, visited⟩ := visits_of_branches branches runsActions
    have acts : ∀ visit ∈ visits, ∀ event ∈ visit.events,
        event.request.Captioned driveCaptions :=
      visited.forall_visit fun runs _ => captioned_of_visit runs
    rw [List.forall_mem_append, List.forall_mem_cons, List.forall_mem_append]
    refine ⟨opens, trivial, ?_, ?_⟩
    · intro event member
      obtain ⟨visit, isVisit, member⟩ := List.mem_flatMap.mp member
      exact (acts visit isVisit event member).mono (List.subset_cons_self _ _)
    · intro event member
      exact (captioned_of_concludes concludes event member).mono (by simp)

end DispatchContext

namespace ContainmentContext

variable {context : ContainmentContext} {fault : Fault} {items last : List Item}
  {frames : List (List Item)} {before turns : Nat} {events : List Event}

/-- The item by which a hold shows a fault. -/
def item (context : ContainmentContext) (fault : Fault) : Item :=
  (context.caption fault, fault.message?.getD "")

/-- What a turn of a hold does when the fault has been shown. -/
def afterShown (context : ContainmentContext) (fault : Fault) (before turns : Nat) :
    Task Empty Nat := do
  Task.clearItems
  Task.pause context.holdInterval
  if ← Task.isStopRequested then pure (before + 1)
  else context.holdTurns fault (before + 1) turns

theorem afterShown_shows
    (shows : (context.holdTurns fault (before + 1) turns).Shows (· = [context.item fault]) []
      Task.anyItems) :
    (context.afterShown fault before turns).Shows (· = [context.item fault]) items
      Task.anyItems := by
  refine Task.shows_bind Task.shows_clearItems ?_
  rintro _ _ rfl
  refine Task.shows_host_bind ?_
  intro _
  refine Task.shows_robot_bind trivial ?_
  intro stop
  split
  · exact Task.shows_result _ trivial
  · exact shows

/-- On a display that was cleared, a hold shows its fault alone. -/
theorem holdTurns_shows (fault : Fault) (before turns : Nat) :
    (context.holdTurns fault before turns).Shows (· = [context.item fault]) [] Task.anyItems := by
  induction turns generalizing before with
  | zero => exact Task.shows_waiting
  | succ turns inductionHypothesis =>
      refine Task.shows_bind (Task.shows_addItem _ _) ?_
      rintro _ _ rfl
      refine Task.shows_bind (Task.shows_ignoringFailure rfl) ?_
      rintro _ _ rfl
      exact afterShown_shows (inductionHypothesis (before + 1))

/-- The first frame of a hold has the fault behind what was left over, and the others have nothing
else. -/
theorem frames_holdTurns {outcome : Outcome Empty Nat}
    (runs : Runs (context.holdTurns fault before turns) events outcome)
    (displays : Displays items events frames last) :
    frames = [] ∨ ∃ rest, frames = (items ++ [context.item fault]) :: rest ∧
      ∀ frame ∈ rest, frame = [context.item fault] := by
  cases turns with
  | zero =>
      obtain ⟨rfl, -⟩ := Program.runs_done_iff.mp runs
      cases displays
      exact .inl rfl
  | succ turns =>
      obtain ⟨receipt, rest, rfl, runsRefresh⟩ := Program.runs_call_iff.mp runs
      cases displays with
      | next turned displays =>
          obtain ⟨rfl, added⟩ := turned.addItem_cases
          cases receipt with
          | crashed crash =>
              obtain ⟨rfl, -⟩ := Program.runs_done_iff.mp runsRefresh
              cases displays
              exact .inl rfl
          | returned =>
              obtain rfl := added.resolve_right (by simp)
              obtain ⟨answer, rest, rfl, runsRest⟩ := Program.runs_call_iff.mp runsRefresh
              cases displays with
              | next turned displays =>
                  obtain ⟨rfl, rfl⟩ := turned.refresh_eq
                  refine .inr ⟨_, rfl, ?_⟩
                  have others : (context.afterShown fault before turns).Shows
                      (· = [context.item fault]) (items ++ [context.item fault]) Task.anyItems :=
                    afterShown_shows (holdTurns_shows fault (before + 1) turns)
                  cases answer with
                  | crashed crash =>
                      obtain ⟨rfl, -⟩ := Program.runs_done_iff.mp runsRest
                      cases displays
                      simp
                  | _ => exact (others _ _ _ _ runsRest displays).1

theorem caption_eq (context : ContainmentContext) (fault : Fault) :
    ∃ ending : String, ' ' ∈ ending.toList ∧ context.caption fault = context.tag ++ ending := by
  cases fault with
  | unclassified message => exact ⟨" fatal Exception", by decide, rfl⟩
  | _ => exact ⟨" fatal error", by decide, rfl⟩

theorem caption_ne_of_unspaced {caption : String} (unspaced : ' ' ∉ caption.toList) :
    context.caption fault ≠ caption := by
  rintro rfl
  obtain ⟨ending, spaced, same⟩ := context.caption_eq fault
  rw [same, String.toList_append] at unspaced
  exact unspaced (List.mem_append_right _ spaced)

theorem caption_ne_tag : context.caption fault ≠ context.tag := by
  obtain ⟨ending, spaced, same⟩ := context.caption_eq fault
  rw [same]
  intro equal
  have none : ending.toList = [] := by
    simpa using congrArg String.toList equal
  rw [none] at spaced
  cases spaced

theorem finish_quiet (containment : Containment) :
    (finish containment).Within (quietEffects Empty) := by
  refine Task.within_bind (Task.within_host trivial) ?_
  intro _
  refine ⟨trivial, ?_⟩
  rintro (_ | _ | _) _ <;> trivial

/-- A fault that is no cancellation is held, and nothing else is shown. -/
theorem exists_hold_of_settle {failure : Failure} {outcome : Outcome Empty Containment}
    (fatal : failure.fault ≠ .cancellation) (runs : Runs (context.settle failure) events outcome) :
    ∃ recording holding closing ended, events = recording ++ (holding ++ closing) ∧
      Runs (context.hold failure.fault) holding ended ∧
      ∀ event ∈ recording ++ closing, event.request.LeavesDisplay := by
  cases shown : context.placard? failure.fault with
  | none => exact absurd (placard?_eq_none_iff.mp shown) fatal
  | some placard =>
      rw [settle_of_placard? shown, runs_report_iff shown] at runs
      obtain ⟨rest, rfl, runs⟩ := runs
      rcases Task.runs_bind runs with
        ⟨holding, closing, cycles, rfl, runsHold, runsFinish⟩ | ⟨ended, runsHold, -⟩
      · refine ⟨[placard.recorded], holding, closing, _, rfl, runsHold, ?_⟩
        rw [List.singleton_append, List.forall_mem_cons]
        exact ⟨trivial, (Task.within_of_runs (finish_quiet _) runsFinish).1⟩
      · refine ⟨[placard.recorded], rest, [], ended, by simp, runsHold, ?_⟩
        rw [List.singleton_append, List.forall_mem_singleton]
        trivial

/-- Without such a fault, what follows a body shows nothing. -/
theorem quiet_of_contain {stop : Outcome Failure Unit} {outcome : Outcome Empty Containment}
    (calm : ∀ failure, stop.failure? = some failure → failure.fault = .cancellation)
    (runs : Runs (context.contain stop) events outcome) :
    ∀ event ∈ events, event.request.LeavesDisplay := by
  have cancelled (failure : Failure) (cancels : failure.fault = .cancellation) :
      (context.settle failure).Within (quietEffects Empty) := by
    rw [settle, cancels]
    exact Task.within_bind (Task.within_host trivial) fun _ => finish_quiet _
  have within : (context.contain stop).Within (quietEffects Empty) := by
    cases stop with
    | value _ => exact finish_quiet _
    | error failure => exact cancelled failure (calm failure rfl)
    | crash crash => exact cancelled crash.failure (calm crash.failure rfl)
    | halted => trivial
    | waiting => trivial
  exact (Task.within_of_runs within runs).1

theorem contain_of_failure? {stop : Outcome Failure Unit} {failure : Failure}
    (failed : stop.failure? = some failure) : context.contain stop = context.settle failure := by
  cases stop <;> cases failed <;> rfl

end ContainmentContext

namespace Autonomous

open ContainmentContext

variable {request : AutonomousRequest} {patience : Nat} {events acting after : List Event}
  {stop : Outcome Failure Unit} {outcome : Outcome Empty Containment}

/-- The part of a body that reads the document. -/
def load (request : AutonomousRequest) : Task Failure Configuration := do
  Task.record .info autonomousTag "Initializing"
  Task.ofExcept (checkAlliance request.alliance)
  loadConfiguration request

/-- The part of a body from the document to the start. -/
def start (request : AutonomousRequest) (configuration : Configuration) :
    Task Failure ChannelId := do
  Task.setThreshold configuration.loggingThreshold
  Task.record .debug autonomousTag
    s!"Loaded {configuration.actions.length} actions from {request.settings.documentPath}"
  let driveChannel ← initializeDrive request.settings.drive
  announce "Waiting for start ..."
  Task.waitForStart id
  announce "Running ..."
  pure driveChannel

/-- The part of a body before the steps are dispatched. -/
def prepare (request : AutonomousRequest) : Task Failure (Configuration × ChannelId) := do
  let configuration ← load request
  let driveChannel ← start request configuration
  pure (configuration, driveChannel)

theorem body_eq (request : AutonomousRequest) (patience : Nat) :
    body request patience = (prepare request).bind fun (configuration, channel) =>
      (dispatch (dispatchContext request patience channel) configuration).bind fun _ =>
        Task.result () := by
  simp [body, prepare, load, start, Task.bind_assoc, dispatchContext]

theorem exists_loaded_of_load {configuration : Configuration}
    (runs : Runs (load request) events (.value configuration)) :
    ∃ contents, Document.ofFile request.settings.documentPath contents request.selector =
      .ok configuration := by
  obtain ⟨_, _, rfl, runsCheck⟩ := Program.runs_call_iff.mp runs
  change Runs (Task.bind (Task.ofExcept (checkAlliance request.alliance)) _) _ _ at runsCheck
  cases checked : checkAlliance request.alliance with
  | error failure =>
      rw [checked] at runsCheck
      obtain ⟨-, same⟩ := Program.runs_done_iff.mp runsCheck
      cases same
  | ok _ =>
      rw [checked] at runsCheck
      obtain ⟨contents, _, rfl, runsLoad⟩ := Program.runs_call_iff.mp runsCheck
      change Runs (Task.ofExcept (Except.mapError _
        (Document.ofFile request.settings.documentPath contents request.selector))) _ _ at runsLoad
      refine ⟨contents, ?_⟩
      cases loaded : Document.ofFile request.settings.documentPath contents request.selector with
      | error error =>
          rw [loaded] at runsLoad
          obtain ⟨-, same⟩ := Program.runs_done_iff.mp runsLoad
          cases same
      | ok found =>
          rw [loaded] at runsLoad
          obtain ⟨-, same⟩ := Program.runs_done_iff.mp runsLoad
          cases same
          rfl

theorem branches_of_prepare {configuration : Configuration} {channel : ChannelId}
    (runs : Runs (prepare request) events (.value (configuration, channel))) :
    configuration.Branches := by
  rcases Task.runs_bind runs with
    ⟨_, _, loaded, -, runsLoad, runsStart⟩ | ⟨_, _, passes⟩
  · rcases Task.runs_bind runsStart with ⟨_, _, _, -, _, runsReady⟩ | ⟨_, _, passes⟩
    · obtain ⟨-, same⟩ := Task.runs_result_iff.mp runsReady
      cases same
      obtain ⟨contents, same⟩ := exists_loaded_of_load runsLoad
      exact Document.branches_ofFile same
    · exact absurd rfl (passes.ne_value _)
  · exact absurd rfl (passes.ne_value _)

/-- The captions of the items that a run shows before it is held. -/
def bodyCaptions (request : AutonomousRequest) : List String :=
  autonomousTag :: request.selector :: driveCaptions

theorem captioned_of_phases {captions : List String}
    (captioned : ∀ event ∈ phases events, event.request.Captioned captions) :
    ∀ event ∈ events, event.request.Captioned captions := by
  intro event member
  obtain ⟨call | call, reply⟩ := event
  · exact captioned _ (List.mem_filter.mpr ⟨member, rfl⟩)
  · trivial

theorem captioned_of_body (runs : Runs (body request patience) acting stop) :
    ∀ event ∈ acting, event.request.Captioned (bodyCaptions request) := by
  have starts {contents : Except SystemError String} {channel : ChannelId} :
      ∀ step ∈ startup request contents channel,
        step.request.Captioned (bodyCaptions request) := by
    simp [startup, driveSteps, announceSteps, Call.Captioned, bodyCaptions]
  apply captioned_of_phases
  rcases dispatches_or_among runs with
    ⟨contents, channel, _, dispatching, stopped, _, same, loaded, runsRun, rfl⟩ |
      ⟨_, contents, channel, among⟩
  · rw [same, List.forall_mem_append]
    refine ⟨starts, ?_⟩
    intro event member
    have captioned := DispatchContext.captioned_of_run (Document.branches_ofFile loaded) runsRun
      event (List.mem_filter.mp member).1
    exact captioned.mono (List.subset_cons_self _ _)
  · intro event member
    obtain ⟨step, isStep, same⟩ := among event member
    rw [same]
    exact starts step isStep

/-- No item that is left over when a fault is shown is that of the fault. -/
theorem item_not_mem_of_displays {fault : Fault} {recording : List Event}
    {initial left : List Item} {frames : List (List Item)}
    (runs : Runs (body request patience) acting stop)
    (records : ∀ event ∈ recording, event.request.LeavesDisplay)
    (displays : Displays initial (opened request :: (acting ++ recording)) frames left)
    (fresh : (around request patience).item fault ∉ initial) :
    (around request patience).item fault ∉ left := by
  intro listed
  rcases displays.mem_last listed with before | ⟨event, member, adds⟩
  · exact fresh before
  · have captioned : event.request.Captioned (bodyCaptions request) := by
      rw [List.mem_cons, List.mem_append] at member
      rcases member with rfl | inBody | recorded
      · trivial
      · exact captioned_of_body runs event inBody
      · exact Call.captioned_of_quiet (records event recorded)
    rw [adds] at captioned
    have other : (around request patience).caption fault ∉ bodyCaptions request := by
      have tag : (around request patience).caption fault ≠ request.selector := caption_ne_tag
      simp only [bodyCaptions, driveCaptions, List.mem_cons, List.not_mem_nil, or_false, not_or]
      refine ⟨caption_ne_of_unspaced ?_, tag, caption_ne_of_unspaced ?_,
        caption_ne_of_unspaced ?_⟩ <;> decide
    exact other captioned

/-- A body ends before its steps, or it comes to them and visits them, each visit in view. -/
def DrivesInView (request : AutonomousRequest) (patience : Nat) (acting : List Event)
    (stop : Outcome Failure Unit) : Prop :=
  (∃ ended, Runs (prepare request) acting ended ∧ ended.Passes stop) ∨
  ∃ starting dispatching configuration channel ending,
    acting = starting ++ dispatching ∧
    Runs (prepare request) starting (.value (configuration, channel)) ∧
    Runs ((dispatchContext request patience channel).run configuration .fresh) dispatching ending ∧
    (dispatchContext request patience channel).StepsInView configuration .fresh dispatching

theorem drivesInView_of_body (runs : Runs (body request patience) acting stop) :
    DrivesInView request patience acting stop := by
  rw [body_eq] at runs
  rcases Task.runs_bind runs with
    ⟨starting, dispatching, ⟨configuration, channel⟩, rfl, runsPrepare, runsDispatch⟩ |
      ⟨ended, runsPrepare, passes⟩
  · obtain ⟨ended, final, runsRun, -⟩ := runs_dispatch runsDispatch
    exact .inr ⟨starting, dispatching, configuration, channel, _, rfl, runsPrepare, runsRun,
      DispatchContext.stepsInView_of_run (branches_of_prepare runsPrepare) runsRun⟩
  · exact .inl ⟨ended, runsPrepare, passes⟩

/-- Frames that show a fault: its item is the last one in each and not there before, and behind the
first frame it is the only one. -/
structure ShowsFault (item : Item) (frames : List (List Item)) : Prop where
  last : ∀ frame ∈ frames, ∃ others, frame = others ++ [item] ∧ item ∉ others
  alone : ∀ frame ∈ frames.tail, frame = [item]

/-- What the display shows of a run. -/
structure InView (request : AutonomousRequest) (patience : Nat) (acting after : List Event)
    (stop : Outcome Failure Unit) : Prop where
  drives : DrivesInView request patience acting stop
  /-- A fault is held on a display that did not show it before, and is shown by every refresh. -/
  hold : ∀ failure, stop.failure? = some failure → failure.fault ≠ .cancellation →
    ∃ recording holding closing ended, after = recording ++ (holding ++ closing) ∧
      Runs ((around request patience).hold failure.fault) holding ended ∧
      (∀ event ∈ recording ++ closing, event.request.LeavesDisplay) ∧
      ∀ initial shown left frames last,
        (around request patience).item failure.fault ∉ initial →
        Displays initial (opened request :: (acting ++ recording)) shown left →
        Displays left holding frames last →
        ShowsFault ((around request patience).item failure.fault) frames
  /-- Without such a fault nothing is shown behind the body. -/
  quiet : (∀ failure, stop.failure? = some failure → failure.fault = .cancellation) →
    ∀ event ∈ after, event.request.LeavesDisplay

theorem showsFault_of_hold {fault : Fault} {context : ContainmentContext} {items last : List Item}
    {frames : List (List Item)} {ended : Outcome Empty Nat}
    (runs : Runs (context.hold fault) events ended) (displays : Displays items events frames last)
    (unlisted : context.item fault ∉ items) : ShowsFault (context.item fault) frames := by
  rcases frames_holdTurns runs displays with rfl | ⟨rest, rfl, alone⟩
  · exact ⟨by simp, by simp⟩
  · refine ⟨?_, alone⟩
    rw [List.forall_mem_cons]
    refine ⟨⟨items, rfl, unlisted⟩, ?_⟩
    intro frame member
    exact ⟨[], alone frame member, by simp⟩

/-- In every run the drives and the hold are in view, whatever the display has answered. -/
theorem run_inView (runs : Runs (run request patience) events outcome) :
    ∃ acting after stop, events = opened request :: (acting ++ after) ∧
      Runs (body request patience) acting stop ∧ InView request patience acting after stop := by
  obtain ⟨_, _, rfl, runsGuard⟩ := Program.runs_call_iff.mp runs
  change Runs (Program.bind (body request patience) (around request patience).contain) _ _
    at runsGuard
  obtain ⟨acting, after, stop, rfl, runsBody, runsContain⟩ := Program.runs_of_bind runsGuard
  refine ⟨acting, after, stop, rfl, runsBody, drivesInView_of_body runsBody, ?_, ?_⟩
  · intro failure failed fatal
    rw [contain_of_failure? failed] at runsContain
    obtain ⟨recording, holding, closing, ended, rfl, runsHold, quiet⟩ :=
      exists_hold_of_settle fatal runsContain
    refine ⟨recording, holding, closing, ended, rfl, runsHold, quiet, ?_⟩
    intro initial shown left frames last fresh before displays
    rw [List.forall_mem_append] at quiet
    exact showsFault_of_hold runsHold displays
      (item_not_mem_of_displays runsBody quiet.1 before fresh)
  · intro calm
    exact quiet_of_contain calm runsContain

/-- A world with a document of one drive, in which the display can no longer be refreshed after a
while and the stop is requested later still. -/
def failingDisplay : (request : Call) → Duration → request.Reply × Duration
  | .robot .refresh, clock =>
      (if clock < .ofSecs 40 then .ok () else .failed (.plain "display gone"), clock + .ofSecs 1)
  | .robot .isStopRequested, clock => (decide (Duration.ofSecs 60 ≤ clock), clock + .ofSecs 1)
  | .host (.readText _), clock =>
      (.ok ("<RobotAction><OpMode id='A'><parameters/><actions><forward_by_time seconds='90'/>" ++
        "</actions></OpMode></RobotAction>"), clock + .ofSecs 1)
  | request, clock => obliging .left request clock

def refreshes (events : List Event) : Nat :=
  events.countP fun event => event.request = .robot .refresh

theorem run_inView_of_failingDisplay :
    ∃ acting after stop,
      (run sampleRequest 9).events failingDisplay .zero =
        opened sampleRequest :: (acting ++ after) ∧
      InView sampleRequest 9 acting after stop ∧ refreshes (acting ++ after) = 8 := by
  have runs := Program.runs_exec failingDisplay (run sampleRequest 9) .zero
  obtain ⟨acting, after, stop, same, _, inView⟩ := run_inView runs
  have shown : refreshes ((run sampleRequest 9).events failingDisplay .zero) = 8 := by
    decide +kernel
  rw [same] at shown
  exact ⟨acting, after, stop, same, inView, shown⟩

end Autonomous

end RobotRoutine
