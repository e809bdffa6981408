import RobotRoutine.Proofs.Program.Runs
import RobotRoutine.Run.Autonomous

/-!
The start-up of a run.

A run reads its document, prepares the drive, waits for the start and dispatches its steps.  A phase
is entered only if the one before it went well: the phase calls of a run are those of a start-up in
which all goes well, up to the first that does not, and then those of the dispatcher.  Each task of
the start-up undertakes its own steps, and what follows it begins where these have ended.
-/

namespace RobotRoutine

open Program (Runs Event)

/-- The calls that make up the phases of a run.  The others are for the clock and the run log. -/
def Call.isPhase : Call → Bool
  | .robot _ => true
  | .host (.readText _) => true
  | .host _ => false

def phases (events : List Event) : List Event := events.filter fun event => event.request.isPhase

/-- The reply of a collaborator that did what it was asked for.  A document has to be that of the
selected run. -/
def Succeeds (selector : String) : (request : Call) → request.Reply → Prop
  | .host (.readText path), contents =>
      ∃ configuration, Document.ofFile path contents selector = .ok configuration
  | .robot .waitForStart, answer => answer = .ok ()
  | .robot (.findChannel _), answer => ∃ channel, answer = .ok channel
  | .robot (.setPower _ _), answer => answer = .ok ()
  | .robot (.setMode _ _), answer => answer = .ok ()
  | .robot (.addItem _ _), receipt => receipt = .returned
  | .robot .refresh, answer => answer = .ok ()
  | _, _ => True

/-- Events go as the steps say and then on, or, if they may stop short, break off with the first
step that does not succeed. -/
inductive Proceeds (selector : String) (stops : Prop) (continues : List Event → Prop) :
    List Event → List Event → Prop where
  | through {events} : continues events → Proceeds selector stops continues [] events
  | next {event steps events} :
      Succeeds selector event.request event.reply →
      Proceeds selector stops continues steps events →
      Proceeds selector stops continues (event :: steps) (event :: events)
  | broken {call expected reply steps} :
      stops → ¬ Succeeds selector call reply →
      Proceeds selector stops continues (⟨call, expected⟩ :: steps) [⟨call, reply⟩]

@[simp]
theorem phases_append (first second : List Event) :
    phases (first ++ second) = phases first ++ phases second :=
  List.filter_append first second

/-- What is read off the calls of the robot alone can be read off the phases. -/
theorem filterMap_phases {α : Type} {read : Event → Option α}
    (unread : ∀ (call : HostCall) (reply : call.Reply), read ⟨.host call, reply⟩ = none)
    (events : List Event) : (phases events).filterMap read = events.filterMap read := by
  rw [phases, List.filterMap_filter]
  congr 1
  funext event
  obtain ⟨call | call, reply⟩ := event
  · rfl
  · rw [unread]
    exact ite_self none

theorem phases_cons_of_isPhase {event : Event} (isPhase : event.request.isPhase = true)
    (events : List Event) : phases (event :: events) = event :: phases events :=
  List.filter_cons_of_pos isPhase

namespace Proceeds

variable {selector : String} {stops halts : Prop} {continues further : List Event → Prop}
  {steps others events : List Event}

theorem append (proceeds : Proceeds selector stops continues steps events) (weakens : stops → halts)
    (goesOn : ∀ rest, continues rest → Proceeds selector halts further others rest) :
    Proceeds selector halts further (steps ++ others) events := by
  induction proceeds with
  | through continues => exact goesOn _ continues
  | next succeeds _ inductionHypothesis => exact .next succeeds inductionHypothesis
  | broken stops fails => exact .broken (weakens stops) fails

theorem mono (proceeds : Proceeds selector stops continues steps events) (weakens : stops → halts)
    (goesOn : ∀ rest, continues rest → further rest) :
    Proceeds selector halts further steps events := by
  rw [← List.append_nil steps]
  exact proceeds.append weakens fun rest continues => .through (goesOn rest continues)

theorem of_succeed (succeed : ∀ event ∈ steps, Succeeds selector event.request event.reply)
    (goesOn : continues events) : Proceeds selector stops continues steps (steps ++ events) := by
  induction steps with
  | nil => exact .through goesOn
  | cons event steps inductionHypothesis =>
      rw [List.forall_mem_cons] at succeed
      exact .next succeed.1 (inductionHypothesis succeed.2)

/-- Events go through all steps, or stop short with calls that are among those of the steps. -/
theorem through_or_among (proceeds : Proceeds selector stops continues steps events) :
    (∃ rest, events = steps ++ rest ∧ continues rest) ∨
      stops ∧ ∀ event ∈ events, ∃ step ∈ steps, event.request = step.request := by
  induction proceeds with
  | through continues => exact .inl ⟨_, rfl, continues⟩
  | next succeeds _ inductionHypothesis =>
      rcases inductionHypothesis with ⟨rest, rfl, continues⟩ | ⟨stops, among⟩
      · exact .inl ⟨rest, rfl, continues⟩
      · refine .inr ⟨stops, List.forall_mem_cons.mpr ⟨⟨_, List.mem_cons_self, rfl⟩, ?_⟩⟩
        intro event member
        obtain ⟨step, isStep, same⟩ := among event member
        exact ⟨step, List.mem_cons_of_mem _ isStep, same⟩
  | broken stops fails =>
      refine .inr ⟨stops, ?_⟩
      rw [List.forall_mem_singleton]
      exact ⟨_, List.mem_cons_self, rfl⟩

end Proceeds

namespace Task

variable {α β : Type} {selector : String} {steps others : List Event} {a : α} {b : β}

/-- Events that take steps and give a value, or break off in them and give none. -/
def Undertaken (selector : String) (steps : List Event) (a : α) (events : List Event)
    (outcome : Outcome Failure α) : Prop :=
  (outcome = .value a ∧ phases events = steps ∧
    ∀ event ∈ steps, Succeeds selector event.request event.reply) ∨
  ((∀ b, outcome ≠ .value b) ∧ Proceeds selector True (fun _ => False) steps (phases events))

def Undertakes (selector : String) (steps : List Event) (a : α) (task : Task Failure α) : Prop :=
  ∀ events outcome, Runs task events outcome → Undertaken selector steps a events outcome

theorem Undertaken.taken {events : List Event} {given : α}
    (undertaken : Undertaken selector steps a events (.value given)) :
    given = a ∧ phases events = steps ∧
      ∀ event ∈ steps, Succeeds selector event.request event.reply := by
  rcases undertaken with ⟨same, taken, succeed⟩ | ⟨other, _⟩
  · cases same
    exact ⟨rfl, taken, succeed⟩
  · exact absurd rfl (other given)

/-- A task that hands its ending on has broken off in its steps. -/
theorem Undertaken.breaks {events : List Event} {stop : Outcome Failure α}
    {outcome : Outcome Failure β} {continues : List Event → Prop}
    (undertaken : Undertaken selector steps a events stop) (passes : stop.Passes outcome) :
    Proceeds selector (∀ b, outcome ≠ .value b) continues steps (phases events) := by
  rcases undertaken with ⟨rfl, _⟩ | ⟨_, breaks⟩
  · cases passes
  · exact breaks.mono (fun _ => passes.ne_value) fun _ impossible => impossible.elim

/-- What follows a task begins where the steps of the task have ended. -/
theorem Undertakes.proceeds {task : Task Failure α} {next : α → Task Failure β}
    {events : List Event} {outcome : Outcome Failure β} {continues : List Event → Prop}
    (undertakes : task.Undertakes selector steps a) (runs : Runs (task.bind next) events outcome)
    (goesOn : ∀ rest, Runs (next a) rest outcome → continues (phases rest)) :
    Proceeds selector (∀ b, outcome ≠ .value b) continues steps (phases events) := by
  rcases runs_bind runs with
    ⟨first, second, given, rfl, runsTask, runsNext⟩ | ⟨stop, runsTask, passes⟩
  · obtain ⟨rfl, taken, succeed⟩ := (undertakes _ _ runsTask).taken
    rw [phases_append, taken]
    exact .of_succeed succeed (goesOn second runsNext)
  · exact (undertakes _ _ runsTask).breaks passes

theorem Undertakes.goOn {task : Task Failure α} {next : α → Task Failure β}
    {events : List Event} {outcome : Outcome Failure β} {continues : List Event → Prop}
    (undertakes : task.Undertakes selector steps a) (runs : Runs (task.bind next) events outcome)
    (goesOn : ∀ rest, Runs (next a) rest outcome →
      Proceeds selector (∀ b, outcome ≠ .value b) continues others (phases rest)) :
    Proceeds selector (∀ b, outcome ≠ .value b) continues (steps ++ others) (phases events) :=
  (undertakes.proceeds runs goesOn).append id fun _ => id

theorem Undertakes.bind {task : Task Failure α} {next : α → Task Failure β}
    (undertakes : task.Undertakes selector steps a)
    (undertakesNext : (next a).Undertakes selector others b) :
    (task.bind next).Undertakes selector (steps ++ others) b := by
  intro events outcome runs
  rcases runs_bind runs with
    ⟨first, second, given, rfl, runsTask, runsNext⟩ | ⟨stop, runsTask, passes⟩
  · obtain ⟨rfl, taken, succeed⟩ := (undertakes _ _ runsTask).taken
    rw [Undertaken, phases_append, taken]
    rcases undertakesNext _ _ runsNext with ⟨rfl, takenNext, succeedNext⟩ | ⟨none, breaks⟩
    · exact .inl ⟨rfl, congrArg _ takenNext, List.forall_mem_append.mpr ⟨succeed, succeedNext⟩⟩
    · exact .inr ⟨none, (Proceeds.of_succeed succeed breaks).append id fun _ => id⟩
  · have breaks : Proceeds selector (∀ b, outcome ≠ .value b) (fun _ => False) steps _ :=
      (undertakes _ _ runsTask).breaks passes
    exact .inr ⟨passes.ne_value, breaks.append (fun _ => trivial) fun _ => False.elim⟩

theorem undertakes_result (a : α) : (result a).Undertakes selector [] a := by
  intro events outcome runs
  obtain ⟨rfl, rfl⟩ := runs_result_iff.mp runs
  exact .inl ⟨rfl, rfl, by simp⟩

theorem undertakes_record (level : LogLevel) (tag text : String) :
    (record level tag text).Undertakes selector [] () := by
  intro events outcome runs
  obtain ⟨_, _, rfl, runsRest⟩ := Program.runs_call_iff.mp runs
  obtain ⟨rfl, rfl⟩ := runs_result_iff.mp runsRest
  exact .inl ⟨rfl, rfl, by simp⟩

/-- A call is a step if it gives the value for the one reply that succeeds and ends with every
other one. -/
theorem undertakes_call {request : Call} {reply : request.Reply}
    {next : request.Reply → Task Failure α} (isPhase : request.isPhase = true)
    (succeeds : Succeeds selector request reply) (gives : next reply = result a)
    (ends : ∀ other, other = reply ∨ ¬ Succeeds selector request other ∧
      ∃ outcome, next other = Program.done outcome ∧ ∀ b, outcome ≠ .value b) :
    Task.Undertakes selector [⟨request, reply⟩] a (Program.call request next) := by
  intro events outcome runs
  obtain ⟨other, rest, rfl, runsRest⟩ := Program.runs_call_iff.mp runs
  rcases ends other with rfl | ⟨fails, stop, same, noValue⟩
  · rw [gives] at runsRest
    obtain ⟨rfl, rfl⟩ := runs_result_iff.mp runsRest
    exact .inl ⟨rfl, by simp [phases, isPhase], by simpa using succeeds⟩
  · rw [same] at runsRest
    obtain ⟨rfl, rfl⟩ := Program.runs_done_iff.mp runsRest
    refine .inr ⟨noValue, ?_⟩
    rw [phases_cons_of_isPhase isPhase]
    exact .broken trivial fails

theorem ends_ofAnswer (answer : Answer Unit) :
    answer = .ok () ∨ ¬ answer = .ok () ∧ ∃ outcome,
      (ofAnswer id answer : Task Failure Unit) = Program.done outcome ∧
        ∀ b, outcome ≠ .value b := by
  cases answer with
  | ok _ => exact .inl rfl
  | failed failure => exact .inr ⟨by simp, _, rfl, by simp⟩
  | crashed c => exact .inr ⟨by simp, _, rfl, by simp⟩

theorem undertakes_setPower (channel : ChannelId) (power : Binary64) :
    (setPower id channel power).Undertakes selector
      [⟨.robot (.setPower channel power), Answer.ok ()⟩] () :=
  undertakes_call rfl rfl rfl ends_ofAnswer

theorem undertakes_setMode (channel : ChannelId) (mode : MotorMode) :
    (setMode id channel mode).Undertakes selector
      [⟨.robot (.setMode channel mode), Answer.ok ()⟩] () :=
  undertakes_call rfl rfl rfl ends_ofAnswer

theorem undertakes_refresh :
    (refresh id).Undertakes selector [⟨.robot .refresh, Answer.ok ()⟩] () :=
  undertakes_call rfl rfl rfl ends_ofAnswer

theorem undertakes_waitForStart :
    (waitForStart id).Undertakes selector [⟨.robot .waitForStart, Answer.ok ()⟩] () :=
  undertakes_call rfl rfl rfl ends_ofAnswer

theorem undertakes_addItem (caption value : String) :
    (addItem caption value).Undertakes selector
      [⟨.robot (.addItem caption value), Receipt.returned⟩] () := by
  refine undertakes_call rfl rfl rfl ?_
  rintro (_ | c)
  · exact .inl rfl
  · exact .inr ⟨by simp [Succeeds], _, rfl, by simp⟩

end Task

namespace Autonomous

variable {request : AutonomousRequest} {patience : Nat} {acting after : List Event}
  {stop : Outcome Failure Unit}

def dispatchContext (request : AutonomousRequest) (patience : Nat) (channel : ChannelId) :
    DispatchContext where
  tag := request.selector
  alliance := request.alliance
  driveChannel := channel
  drive := request.settings.drive
  timing := request.settings.timing
  patience := patience

/-- The containment around a run. -/
def around (request : AutonomousRequest) (patience : Nat) : ContainmentContext where
  tag := request.selector
  holdInterval := request.settings.timing.holdInterval
  patience

/-- What the body of a run makes of the ending of the dispatcher: the report is dropped. -/
def bodyEnding : Outcome RunError RunReport → Outcome Failure Unit
  | .value _ => .value ()
  | .error error => .error (.run error)
  | .crash c => .crash c
  | .halted => .halted
  | .waiting => .waiting

theorem runs_dispatch {context : DispatchContext} {configuration : Configuration}
    (runs : Runs ((dispatch context configuration).bind fun _ => Task.result ()) acting stop) :
    ∃ ended final, Runs (context.run configuration .fresh) acting (ended, final) ∧
      stop = bodyEnding ended := by
  obtain ⟨_, ending, mapped, rfl, runsDispatch, runsEnd⟩ := Program.runs_of_bind runs
  obtain ⟨_, mapping, given, rfl, runsInner, runsMap⟩ := Program.runs_of_bind runsDispatch
  obtain ⟨dispatching, nothing, ⟨ended, final⟩, rfl, runsRun, runsDone⟩ :=
    Program.runs_of_bind runsInner
  obtain ⟨rfl, same⟩ := Program.runs_done_iff.mp runsDone
  obtain rfl : given = ended := same
  cases given <;>
    obtain ⟨rfl, rfl⟩ := Program.runs_done_iff.mp runsMap <;>
    obtain ⟨rfl, rfl⟩ := Program.runs_done_iff.mp runsEnd <;>
    exact ⟨_, final, by simpa only [List.append_nil] using runsRun, rfl⟩

/-- The steps that prepare the drive on a channel. -/
def driveSteps (settings : DriveSettings) (channel : ChannelId) : List Event :=
  [⟨.robot (.findChannel settings.channel), Answer.ok channel⟩,
    ⟨.robot (.setPower channel Binary64.zero), Answer.ok ()⟩,
    ⟨.robot (.setMode channel .stopAndResetEncoder), Answer.ok ()⟩,
    ⟨.robot (.setMode channel .runUsingEncoder), Answer.ok ()⟩]

def announceSteps (phase : String) : List Event :=
  [⟨.robot (.addItem autonomousTag phase), Receipt.returned⟩, ⟨.robot .refresh, Answer.ok ()⟩]

/-- The steps of a start-up in which all goes well. -/
def startup (request : AutonomousRequest) (contents : Except SystemError String)
    (channel : ChannelId) : List Event :=
  ⟨.host (.readText request.settings.documentPath), contents⟩ ::
    (driveSteps request.settings.drive channel ++
      (announceSteps "Waiting for start ..." ++
        (⟨.robot .waitForStart, Answer.ok ()⟩ :: announceSteps "Running ...")))

/-- The phase calls of a dispatcher on the configuration of a document. -/
def Dispatches (request : AutonomousRequest) (patience : Nat) (contents : Except SystemError String)
    (channel : ChannelId) (stop : Outcome Failure Unit) (dispatching : List Event) : Prop :=
  ∃ configuration events ended final,
    Document.ofFile request.settings.documentPath contents request.selector = .ok configuration ∧
    Runs ((dispatchContext request patience channel).run configuration .fresh) events
      (ended, final) ∧
    dispatching = phases events ∧ stop = bodyEnding ended

theorem undertakes_announce {selector : String} (phase : String) :
    (announce phase).Undertakes selector (announceSteps phase) () :=
  (Task.undertakes_addItem autonomousTag phase).bind <|
    Task.undertakes_refresh.bind (Task.undertakes_record .info autonomousTag phase)

theorem undertakes_prepare {selector : String} (channel : ChannelId) :
    Task.Undertakes selector
      [⟨.robot (.setPower channel Binary64.zero), Answer.ok ()⟩,
        ⟨.robot (.setMode channel .stopAndResetEncoder), Answer.ok ()⟩,
        ⟨.robot (.setMode channel .runUsingEncoder), Answer.ok ()⟩]
      channel
      (do
        Task.setPower id channel Binary64.zero
        Task.setMode id channel .stopAndResetEncoder
        Task.setMode id channel .runUsingEncoder
        pure channel) :=
  (Task.undertakes_setPower channel Binary64.zero).bind <|
    (Task.undertakes_setMode channel .stopAndResetEncoder).bind <|
      (Task.undertakes_setMode channel .runUsingEncoder).bind (Task.undertakes_result channel)

/-- Whatever is undertaken once a channel was found is undertaken on that channel. -/
theorem exists_undertaken_of_initializeDrive {settings : DriveSettings} (selector : String)
    {events : List Event} {outcome : Outcome Failure ChannelId}
    (runs : Runs (initializeDrive settings) events outcome) :
    ∃ channel, Task.Undertaken selector (driveSteps settings channel) channel events outcome := by
  obtain ⟨answer, rest, rfl, runsRest⟩ := Program.runs_call_iff.mp runs
  cases answer with
  | ok channel =>
      have found : Succeeds selector (.robot (.findChannel settings.channel)) (.ok channel) :=
        ⟨channel, rfl⟩
      refine ⟨channel, ?_⟩
      rcases undertakes_prepare channel _ _ runsRest with ⟨rfl, taken, succeed⟩ | ⟨none, breaks⟩
      · exact .inl ⟨rfl, congrArg _ taken, List.forall_mem_cons.mpr ⟨found, succeed⟩⟩
      · exact .inr ⟨none, .next found breaks⟩
  | failed failure =>
      obtain ⟨rfl, rfl⟩ := Program.runs_done_iff.mp runsRest
      exact ⟨⟨0⟩, .inr ⟨by simp, .broken trivial (by simp [Succeeds])⟩⟩
  | crashed c =>
      obtain ⟨rfl, rfl⟩ := Program.runs_done_iff.mp runsRest
      exact ⟨⟨0⟩, .inr ⟨by simp, .broken trivial (by simp [Succeeds])⟩⟩

/-- The steps from the start on, once the drive was prepared. -/
theorem proceeds_of_start {contents : Except SystemError String} {configuration : Configuration}
    {channel : ChannelId}
    (loaded : Document.ofFile request.settings.documentPath contents request.selector =
      .ok configuration)
    (runs : Runs ((do
      announce "Waiting for start ..."
      Task.waitForStart id
      announce "Running ..."
      let _ ← dispatch (dispatchContext request patience channel) configuration
      pure ()) : Task Failure Unit) acting stop) :
    Proceeds request.selector (∀ u, stop ≠ .value u)
      (Dispatches request patience contents channel stop)
      (announceSteps "Waiting for start ..." ++
        (⟨.robot .waitForStart, Answer.ok ()⟩ :: announceSteps "Running ...")) (phases acting) := by
  refine (undertakes_announce _).goOn runs fun _ runsWait => ?_
  refine Task.undertakes_waitForStart.goOn runsWait fun _ runsRunning => ?_
  refine (undertakes_announce _).proceeds runsRunning fun dispatching runsDispatch => ?_
  obtain ⟨ended, final, runsRun, same⟩ := runs_dispatch runsDispatch
  exact ⟨configuration, dispatching, ended, final, loaded, runsRun, rfl, same⟩

/-- The phases of a run of a known alliance are those of a start-up, up to the first that fails. -/
theorem exists_proceeds_of_body (known : request.alliance ≠ .unknown)
    (runs : Runs (body request patience) acting stop) :
    ∃ contents channel, Proceeds request.selector (∀ u, stop ≠ .value u)
      (Dispatches request patience contents channel stop) (startup request contents channel)
      (phases acting) := by
  have checked : checkAlliance request.alliance = .ok () := by
    cases alliance : request.alliance with
    | unknown => exact absurd alliance known
    | _ => rfl
  obtain ⟨_, _, rfl, runsCheck⟩ := Program.runs_call_iff.mp runs
  change Runs (Task.bind (Task.ofExcept (checkAlliance request.alliance)) _) _ _ at runsCheck
  rw [checked] at runsCheck
  obtain ⟨contents, _, rfl, runsLoad⟩ := Program.runs_call_iff.mp runsCheck
  change Runs (Task.bind (Task.ofExcept (Except.mapError _
    (Document.ofFile request.settings.documentPath contents request.selector))) _) _ _ at runsLoad
  refine ⟨contents, ?_⟩
  cases loaded : Document.ofFile request.settings.documentPath contents request.selector with
  | error error =>
      rw [loaded] at runsLoad
      obtain ⟨rfl, rfl⟩ := Program.runs_done_iff.mp runsLoad
      exact ⟨⟨0⟩, .broken (by simp) (by simp [Succeeds, loaded])⟩
  | ok configuration =>
      rw [loaded] at runsLoad
      obtain ⟨_, _, rfl, runsRecord⟩ := Program.runs_call_iff.mp runsLoad
      obtain ⟨_, _, rfl, runsDrive⟩ := Program.runs_call_iff.mp runsRecord
      change Runs (Task.bind (initializeDrive request.settings.drive) _) _ _ at runsDrive
      rcases Task.runs_bind runsDrive with
        ⟨preparing, rest, found, rfl, runsPrepare, runsStart⟩ | ⟨broken, runsPrepare, passes⟩
      · obtain ⟨channel, undertaken⟩ :=
          exists_undertaken_of_initializeDrive request.selector runsPrepare
        obtain ⟨rfl, taken, succeed⟩ := undertaken.taken
        refine ⟨found, .next ⟨configuration, loaded⟩ ?_⟩
        change Proceeds _ _ _ _ (phases (preparing ++ rest))
        rw [phases_append, taken]
        have starts := proceeds_of_start loaded runsStart
        exact (Proceeds.of_succeed succeed starts).append id fun _ => id
      · obtain ⟨channel, undertaken⟩ :=
          exists_undertaken_of_initializeDrive request.selector runsPrepare
        have breaks : Proceeds request.selector (∀ u, stop ≠ .value u) (fun _ => False) _ _ :=
          undertaken.breaks passes
        exact ⟨channel, .next ⟨configuration, loaded⟩ (breaks.append id fun _ => False.elim)⟩

/-- An unknown alliance is refused before anything is done. -/
theorem refused_of_unknown (unknown : request.alliance = .unknown)
    (runs : Runs (body request patience) acting stop) :
    (∀ u, stop ≠ .value u) ∧ phases acting = [] := by
  obtain ⟨_, _, rfl, runsCheck⟩ := Program.runs_call_iff.mp runs
  change Runs (Task.bind (Task.ofExcept (checkAlliance request.alliance)) _) _ _ at runsCheck
  rw [unknown] at runsCheck
  obtain ⟨rfl, rfl⟩ := Program.runs_done_iff.mp runsCheck
  exact ⟨by simp, rfl⟩

end Autonomous

end RobotRoutine
