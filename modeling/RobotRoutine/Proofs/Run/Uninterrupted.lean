import RobotRoutine.Proofs.Failure.Fault
import RobotRoutine.Proofs.Run.Branches
import RobotRoutine.Proofs.Run.Protocol
import RobotRoutine.Proofs.Run.Startup

/-!
Runs that nobody interrupts.

Devices, display and classifier may fail, but none of them answers with a stop request.  Then no
task of a run ends with one: whatever an error is made of, its chain is that of a reply or one of
the dispatcher's own.  So the containment takes no failure of such a run for a cancellation.
-/

namespace RobotRoutine

open Program (Runs Event)

def Answer.IsUninterrupted {α : Type} : Answer α → Prop
  | .failed failure => failure.Uninterrupted
  | _ => True

/-- The reply of a collaborator that does not ask for the stop by a failure. -/
def Uninterrupted : (request : Call) → request.Reply → Prop
  | .robot .waitForStart, answer => answer.IsUninterrupted
  | .robot (.findChannel _), answer => answer.IsUninterrupted
  | .robot (.setPower _ _), answer => answer.IsUninterrupted
  | .robot (.setMode _ _), answer => answer.IsUninterrupted
  | .robot (.readSensor _), answer => answer.IsUninterrupted
  | .robot .refresh, answer => answer.IsUninterrupted
  | .robot .flushDisplay, answer => answer.IsUninterrupted
  | .robot .currentZone, answer => answer.IsUninterrupted
  | _, _ => True

/-- What holds of the result of every run holds along the tree. -/
theorem Program.Keeps.of_all_runs {α : Type} {replies : (request : Call) → request.Reply → Prop}
    {results : α → Prop} {program : Program α}
    (all : ∀ events result, Runs program events result →
      (∀ event ∈ events, replies event.request event.reply) → results result) :
    program.Keeps replies (fun _ => True) results := by
  induction program with
  | done result => exact all [] result .done (by simp)
  | call request next inductionHypothesis =>
      refine ⟨trivial, ?_⟩
      intro reply given
      apply inductionHypothesis reply
      intro events result runs givenRest
      exact all _ result (.call runs) (List.forall_mem_cons.mpr ⟨given, givenRest⟩)

namespace Task

variable {ε α β : Type} {errors : ε → Prop}

/-- If nobody interrupts, a task ends with no errors but these. -/
def Faults (errors : ε → Prop) (task : Task ε α) : Prop :=
  Program.Keeps Uninterrupted (fun _ => True)
    (fun outcome => ∀ error, outcome = .error error → errors error) task

theorem faults_result (a : α) : (result a).Faults errors := by
  intro error same
  cases same

theorem faults_throw {error : ε} (thrown : errors error) :
    (throw error : Task ε α).Faults errors := by
  intro other same
  cases same
  exact thrown

theorem faults_crash (c : Crash) : (crash c : Task ε α).Faults errors := by
  intro error same
  cases same

theorem faults_halted : (halted : Task ε α).Faults errors := by
  intro error same
  cases same

theorem faults_waiting : (waiting : Task ε α).Faults errors := by
  intro error same
  cases same

theorem faults_bind {task : Task ε α} {next : α → Task ε β} (faults : task.Faults errors)
    (faultsNext : ∀ a, (next a).Faults errors) : (task.bind next).Faults errors := by
  refine Program.Keeps.bind faults ?_
  intro stop thrown
  cases stop with
  | value a => exact faultsNext a
  | error error => exact faults_throw (thrown error rfl)
  | crash c => exact faults_crash c
  | halted => exact faults_halted
  | waiting => exact faults_waiting

theorem faults_robot (request : RobotCall) :
    (ofProgram (Program.robot request) : Task ε _).Faults errors :=
  ⟨trivial, fun reply _ => faults_result reply⟩

theorem faults_host (request : HostCall) :
    (ofProgram (Program.host request) : Task ε _).Faults errors :=
  ⟨trivial, fun reply _ => faults_result reply⟩

theorem faults_ofExcept {outcome : Except ε α}
    (thrown : ∀ error, outcome = .error error → errors error) :
    (ofExcept outcome).Faults errors := by
  cases outcome with
  | ok a => exact faults_result a
  | error error => exact faults_throw (thrown error rfl)

theorem faults_ofReceipt (receipt : Receipt) : (ofReceipt receipt : Task ε Unit).Faults errors := by
  cases receipt with
  | returned => exact faults_result ()
  | crashed c => exact faults_crash c

theorem faults_addItem (caption value : String) :
    (addItem caption value : Task ε Unit).Faults errors :=
  faults_bind (faults_robot _) faults_ofReceipt

theorem faults_clearItems : (clearItems : Task ε Unit).Faults errors :=
  faults_bind (faults_robot _) faults_ofReceipt

section Devices

variable {toError : Failure → ε}
  (thrown : ∀ failure, failure.Uninterrupted → errors (toError failure))

include thrown

theorem faults_ofAnswer {answer : Answer α} (given : answer.IsUninterrupted) :
    (ofAnswer toError answer).Faults errors := by
  cases answer with
  | ok a => exact faults_result a
  | failed failure => exact faults_throw (thrown failure given)
  | crashed c => exact faults_crash c

theorem faults_waitForStart : (waitForStart toError).Faults errors :=
  ⟨trivial, fun _ given => faults_ofAnswer thrown given⟩

theorem faults_findChannel (name : String) : (findChannel toError name).Faults errors :=
  ⟨trivial, fun _ given => faults_ofAnswer thrown given⟩

theorem faults_setPower (channel : ChannelId) (power : Binary64) :
    (setPower toError channel power).Faults errors :=
  ⟨trivial, fun _ given => faults_ofAnswer thrown given⟩

theorem faults_setMode (channel : ChannelId) (mode : MotorMode) :
    (setMode toError channel mode).Faults errors :=
  ⟨trivial, fun _ given => faults_ofAnswer thrown given⟩

theorem faults_readSensor (channel : ChannelId) : (readSensor toError channel).Faults errors :=
  ⟨trivial, fun _ given => faults_ofAnswer thrown given⟩

theorem faults_refresh : (refresh toError).Faults errors :=
  ⟨trivial, fun _ given => faults_ofAnswer thrown given⟩

theorem faults_leave (channel : ChannelId) {stop : Outcome ε α}
    (faults : ∀ error, stop = .error error → errors error) :
    (PowerHold.leave toError channel stop).Faults errors := by
  cases stop with
  | value value => exact faults_bind (faults_setPower thrown channel _) fun _ => faults_result value
  | error error =>
      refine ⟨trivial, ?_⟩
      intro answer _
      cases answer with
      | crashed c => exact faults_crash c
      | _ => exact faults_throw (faults error rfl)
  | crash c =>
      refine ⟨trivial, ?_⟩
      intro answer _
      cases answer with
      | crashed again => exact faults_halted
      | _ => exact faults_crash c
  | halted => exact faults_halted
  | waiting => exact faults_waiting

theorem faults_during (channel : ChannelId) (power : Binary64) {body : Task ε α}
    (faults : body.Faults errors) :
    (PowerHold.during toError channel power body).Faults errors := by
  rw [PowerHold.during_eq]
  have engaged := faults_bind (faults_setPower thrown channel power) fun _ => faults
  exact Program.Keeps.bind engaged fun _ => faults_leave thrown channel

end Devices

end Task

namespace DispatchContext

variable {context : DispatchContext} {configuration : Configuration} {step : ActionStep}
  {before after : Progress} {events : List Event} {error : RunError}

theorem commandRules_faults :
    context.CommandRules fun task => task.Faults RunError.Uninterrupted where
  result := Task.faults_result
  waiting := Task.faults_waiting
  bind := Task.faults_bind
  record _ _ := Task.faults_host _
  pause _ := Task.faults_host _
  operatorSignal := Task.faults_robot _
  isActive := Task.faults_robot _
  now := Task.faults_host _
  readSensor := Task.faults_readSensor (fun _ => Failure.Uninterrupted.ofDevice) _
  direction _ := Task.faults_addItem _ _
  position _ := Task.faults_addItem _ _
  refresh := Task.faults_refresh fun _ => Failure.Uninterrupted.ofDevice
  clearItems := Task.faults_clearItems
  during _ := Task.faults_during (fun _ => Failure.Uninterrupted.ofDevice) _ _

theorem uninterrupted_invalidValue (command key value : String) :
    (RunError.invalidValue command key value).Uninterrupted :=
  List.forall_mem_singleton.mpr id

theorem carryOut_faults (step : ActionStep) (command : Command) :
    (context.carryOut step command).Faults RunError.Uninterrupted := by
  apply commandRules_faults.carryOut
  intro duration
  apply Task.faults_ofExcept
  intro error given
  obtain ⟨_, _, key, value, rfl⟩ := driveDuration_error_cases given
  exact uninterrupted_invalidValue _ key value

theorem uninterrupted_of_visit
    (runs : Runs (context.visit configuration step before) events (.error error, after))
    (given : ∀ event ∈ events, Uninterrupted event.request event.reply) : error.Uninterrupted := by
  cases visited_of_runs runs with
  | unresolved unresolved =>
      rcases Command.resolve_error_cases unresolved with rfl | ⟨key, value, rfl⟩
      · exact List.forall_mem_singleton.mpr id
      · exact uninterrupted_invalidValue _ key value
  | noTable => exact List.forall_mem_singleton.mpr id
  | @failed failure =>
      have asked : Uninterrupted (.robot .currentZone) (Answer.failed failure) :=
        given ⟨.robot .currentZone, Answer.failed failure⟩ (by simp)
      exact Failure.Uninterrupted.ofClassifier asked
  | @stopped command doing _ _ _ _ carriedOut passes =>
      cases passes
      rw [List.forall_mem_cons, List.forall_mem_cons] at given
      exact (Program.Keeps.of_runs (carryOut_faults step command) carriedOut given.2.2).2 error rfl

/-- A dispatcher that nobody interrupts is not stopped by an error either. -/
theorem uninterrupted_of_run
    (runs : Runs (context.run configuration before) events (.error error, after))
    (given : ∀ event ∈ events, Uninterrupted event.request event.reply) : error.Uninterrupted := by
  obtain ⟨step, _, before, part, after, runsVisit, inside⟩ := exists_failed_visit_of_run runs
  have givenPart : ∀ event ∈ part, Uninterrupted event.request event.reply :=
    fun event member => given event (inside.subset member)
  exact uninterrupted_of_visit runsVisit givenPart

end DispatchContext

namespace Autonomous

variable {request : AutonomousRequest} {patience : Nat} {acting : List Event}
  {stop : Outcome Failure Unit}

theorem faults_dispatch (context : DispatchContext) (configuration : Configuration) :
    Task.Faults Failure.Uninterrupted
      ((dispatch context configuration).bind fun _ => Task.result ()) := by
  apply Program.Keeps.of_all_runs
  intro events outcome runs given failure same
  obtain ⟨ended, final, runsRun, rfl⟩ := runs_dispatch runs
  cases ended with
  | error error =>
      cases same
      exact DispatchContext.uninterrupted_of_run runsRun given
  | _ => cases same

theorem faults_announce (phase : String) :
    (announce phase).Faults Failure.Uninterrupted := by
  apply Task.faults_bind (Task.faults_addItem _ _)
  intro _
  apply Task.faults_bind (Task.faults_refresh fun _ => id)
  intro _
  exact Task.faults_host _

theorem faults_loadConfiguration (request : AutonomousRequest) :
    (loadConfiguration request).Faults Failure.Uninterrupted := by
  apply Task.faults_bind (Task.faults_host _)
  intro contents
  apply Task.faults_ofExcept
  intro failure same
  cases loaded : Document.ofFile request.settings.documentPath contents request.selector with
  | ok configuration =>
      rw [loaded] at same
      cases same
  | error error =>
      rw [loaded] at same
      cases same
      exact (Failure.Uninterrupted.document error).context _

theorem faults_initializeDrive (settings : DriveSettings) :
    (initializeDrive settings).Faults Failure.Uninterrupted := by
  apply Task.faults_bind (Task.faults_findChannel (fun _ given => given.context _) _)
  intro channel
  apply Task.faults_bind (Task.faults_setPower (fun _ => id) _ _)
  intro _
  apply Task.faults_bind (Task.faults_setMode (fun _ => id) _ _)
  intro _
  apply Task.faults_bind (Task.faults_setMode (fun _ => id) _ _)
  intro _
  exact Task.faults_result channel

theorem faults_body (request : AutonomousRequest) (patience : Nat) :
    (body request patience).Faults Failure.Uninterrupted := by
  apply Task.faults_bind (Task.faults_host _)
  intro _
  apply Task.faults_bind (Task.faults_ofExcept ?_)
  · intro _
    apply Task.faults_bind (faults_loadConfiguration request)
    intro configuration
    apply Task.faults_bind (Task.faults_host _)
    intro _
    apply Task.faults_bind (Task.faults_host _)
    intro _
    apply Task.faults_bind (faults_initializeDrive _)
    intro channel
    apply Task.faults_bind (faults_announce _)
    intro _
    apply Task.faults_bind (Task.faults_waitForStart fun _ => id)
    intro _
    apply Task.faults_bind (faults_announce _)
    intro _
    exact faults_dispatch _ configuration
  · intro failure refused
    unfold checkAlliance at refused
    split at refused
    case h_1 =>
      cases refused
      exact .tagged _ _
    case h_2 => cases refused

/-- No failure that ends a body is a cancellation if nobody interrupts. -/
theorem fault_ne_cancellation_of_body (runs : Runs (body request patience) acting stop)
    (given : ∀ event ∈ acting, Uninterrupted event.request event.reply) {failure : Failure}
    (failed : stop.failure? = some failure) : failure.fault ≠ .cancellation := by
  cases stop with
  | error other =>
      cases failed
      have thrown := (Program.Keeps.of_runs (faults_body request patience) runs given).2
      exact (thrown failure rfl).fault_ne_cancellation
  | crash c =>
      cases failed
      exact (Failure.Uninterrupted.plain _).fault_ne_cancellation
  | _ => cases failed

end Autonomous

end RobotRoutine
