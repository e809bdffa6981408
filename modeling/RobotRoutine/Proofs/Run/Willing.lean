import RobotRoutine.Proofs.Run.PlainLoop

/-!
Runs in which nobody fails.

The robot stays live, no device and no display fails or crashes, and the target is seen in a zone;
the clock and the operator may do as they like.  Such a run may be left waiting, but if it ends, it
ends as the steps on the agenda of the zone resolve.
-/

namespace RobotRoutine

open Program (Runs Event)

/-- The reply of a collaborator that does not fail. -/
def Willing (zone : Zone) : (request : Call) → request.Reply → Prop
  | .robot .isActive, live => live = true
  | .robot (.setPower _ _), answer => answer = .ok ()
  | .robot (.readSensor _), answer => ∃ position, answer = .ok position
  | .robot (.addItem _ _), receipt => receipt = .returned
  | .robot .clearItems, receipt => receipt = .returned
  | .robot .refresh, answer => answer = .ok ()
  | .robot .currentZone, answer => answer = .ok zone
  | _, _ => True

theorem Willing.findsZone {zone : Zone} {request : Call} {reply : request.Reply}
    (willing : Willing zone request reply) : FindsZone zone request reply := by
  cases request with
  | host call => trivial
  | robot call =>
      cases call with
      | currentZone =>
          rw [show reply = .ok zone from willing]
          exact rfl
      | _ => trivial

namespace Task

variable {ε α β : Type} {zone : Zone} {ending : Outcome ε α → Prop}

def EndsWilling (zone : Zone) (ending : Outcome ε α → Prop) (task : Task ε α) : Prop :=
  Program.Keeps (Willing zone) (fun _ => True) (fun outcome => outcome = .waiting ∨ ending outcome)
    task

/-- If nobody fails, a task gives a value or is left waiting. -/
def Yields (zone : Zone) (task : Task ε α) : Prop :=
  task.EndsWilling zone fun outcome => ∃ a, outcome = .value a

theorem yields_result (a : α) : (result a : Task ε α).Yields zone := .inr ⟨a, rfl⟩

theorem yields_waiting : (waiting : Task ε α).Yields zone := .inl rfl

theorem endsWilling_bind {task : Task ε β} {next : β → Task ε α} (yields : task.Yields zone)
    (ends : ∀ b, (next b).EndsWilling zone ending) : (task.bind next).EndsWilling zone ending := by
  apply Program.Keeps.bind yields
  rintro _ (rfl | ⟨b, rfl⟩)
  · exact .inl rfl
  · exact ends b

theorem yields_bind {task : Task ε β} {next : β → Task ε α} (yields : task.Yields zone)
    (goesOn : ∀ b, (next b).Yields zone) : (task.bind next).Yields zone :=
  endsWilling_bind yields goesOn

theorem yields_host {request : HostCall} :
    (ofProgram (Program.host request) : Task ε _).Yields zone :=
  ⟨trivial, fun reply _ => .inr ⟨reply, rfl⟩⟩

theorem yields_operatorSignal : (operatorSignal : Task ε Bool).Yields zone :=
  ⟨trivial, fun reply _ => .inr ⟨reply, rfl⟩⟩

theorem yields_isActive : (isActive : Task ε Bool).Yields zone :=
  ⟨trivial, fun live _ => .inr ⟨live, rfl⟩⟩

theorem yields_robot {request : RobotCall} {next : request.Reply → Task ε α}
    (yields : ∀ reply, Willing zone (.robot request) reply → (next reply).Yields zone) :
    ((ofProgram (Program.robot request)).bind next).Yields zone :=
  ⟨trivial, yields⟩

/-- If nobody fails, only the live branch is taken behind a poll. -/
theorem endsWilling_isActive {next : Bool → Task ε α}
    (ends : (next true).EndsWilling zone ending) :
    (isActive.bind next).EndsWilling zone ending := by
  refine ⟨trivial, ?_⟩
  rintro live isLive
  rw [show live = true from isLive]
  exact ends

theorem yields_setPower {toError : Failure → ε} {channel : ChannelId} {power : Binary64} :
    (setPower toError channel power).Yields zone := by
  apply yields_robot
  rintro answer rfl
  exact yields_result ()

theorem yields_readSensor {toError : Failure → ε} {channel : ChannelId} :
    (readSensor toError channel).Yields zone := by
  apply yields_robot
  rintro answer ⟨position, rfl⟩
  exact yields_result position

theorem yields_addItem {caption value : String} :
    (addItem caption value : Task ε Unit).Yields zone := by
  apply yields_robot
  rintro receipt rfl
  exact yields_result ()

theorem yields_clearItems : (clearItems : Task ε Unit).Yields zone := by
  apply yields_robot
  rintro receipt rfl
  exact yields_result ()

theorem yields_refresh {toError : Failure → ε} : (refresh toError).Yields zone := by
  apply yields_robot
  rintro answer rfl
  exact yields_result ()

theorem yields_show : (ignoringFailure (Program.robot .refresh) : Task ε Unit).Yields zone := by
  apply yields_robot
  rintro answer rfl
  exact yields_result ()

theorem yields_currentZone {toError : Failure → ε} : (currentZone toError).Yields zone := by
  apply yields_robot
  rintro answer rfl
  exact yields_result zone

theorem yields_during {toError : Failure → ε} {channel : ChannelId} {power : Binary64}
    {body : Task ε α} (yields : body.Yields zone) :
    (PowerHold.during toError channel power body).Yields zone := by
  rw [PowerHold.during_eq]
  refine Program.Keeps.bind (yields_bind yields_setPower fun _ => yields) ?_
  rintro _ (rfl | ⟨a, rfl⟩)
  · exact .inl rfl
  · exact yields_bind yields_setPower fun _ => yields_result a

end Task

namespace DispatchContext

variable {context : DispatchContext} {configuration : Configuration} {zone : Zone}
  {timed : Duration}

theorem commandRules_yields : context.CommandRules fun task => task.Yields zone where
  result := Task.yields_result
  waiting := Task.yields_waiting
  bind := Task.yields_bind
  record _ _ := Task.yields_host
  pause _ := Task.yields_host
  operatorSignal := Task.yields_operatorSignal
  isActive := Task.yields_isActive
  now := Task.yields_host
  readSensor := Task.yields_readSensor
  direction _ := Task.yields_addItem
  position _ := Task.yields_addItem
  refresh := Task.yields_refresh
  clearItems := Task.yields_clearItems
  during _ := Task.yields_during

theorem carryOut_yields (default : context.drive.defaultDuration = .ok timed)
    (step : ActionStep) (command : Command) : (context.carryOut step command).Yields zone := by
  apply commandRules_yields.carryOut
  intro duration
  obtain ⟨length, known⟩ := exists_driveDuration step duration default
  rw [known]
  exact Task.yields_result length

theorem execute_yields (default : context.drive.defaultDuration = .ok timed) (length : Nat)
    (step : ActionStep) (command : Command) :
    (context.execute zone length step command).Yields zone := by
  cases command with
  | zoneChoice =>
      apply Task.yields_bind Task.yields_currentZone
      intro _
      exact Task.yields_host
  | drive direction duration => exact carryOut_yields default step (.drive direction duration)
  | sleep duration => exact carryOut_yields default step (.sleep duration)
  | breakpoint => exact carryOut_yields default step .breakpoint

/-- If nobody fails, the plain loop comes to the end of its list or to the first step that does not
resolve. -/
theorem plainLoop_endsWilling (default : context.drive.defaultDuration = .ok timed) (length : Nat)
    (executed steps : List ActionStep) :
    (context.plainLoop zone length executed steps).EndsWilling zone fun outcome =>
      match firstError steps with
      | none => ∃ executed, outcome = .value (.finished, executed)
      | some error => outcome = .error error := by
  induction steps generalizing executed with
  | nil => exact .inr ⟨executed, rfl⟩
  | cons step rest inductionHypothesis =>
      rw [plainLoop]
      apply Task.endsWilling_isActive
      rw [if_pos rfl]
      cases resolved : Command.resolve step with
      | error error =>
          rw [firstError_cons_of_error resolved]
          exact .inr rfl
      | ok command =>
          rw [firstError_cons_of_ok resolved]
          apply Task.endsWilling_bind Task.yields_host
          intro _
          apply Task.endsWilling_bind (execute_yields default length step command)
          intro _
          exact inductionHypothesis (executed ++ [step])

theorem plainRun_endsWilling (default : context.drive.defaultDuration = .ok timed) :
    (context.plainRun configuration zone).EndsWilling zone
      (EndsAsResolved (configuration.agenda zone)) := by
  rw [plainRun]
  apply Task.endsWilling_bind Task.yields_host
  intro _
  apply Task.endsWilling_bind Task.yields_host
  intro _
  apply Task.endsWilling_isActive
  apply Program.Keeps.bind (plainLoop_endsWilling default _ _ _)
  rintro _ (rfl | ends)
  · exact .inl rfl
  · cases wrong : firstError (configuration.agenda zone) with
    | none =>
        rw [wrong] at ends
        obtain ⟨executed, rfl⟩ := ends
        apply Task.endsWilling_bind Task.yields_host
        intro _
        apply Task.endsWilling_bind Task.yields_addItem
        intro _
        apply Task.endsWilling_bind Task.yields_show
        intro _
        exact .inr (endsAsResolved_of_none wrong rfl)
    | some error =>
        rw [wrong] at ends
        subst ends
        apply Task.endsWilling_bind Task.yields_host
        intro _
        exact .inr (endsAsResolved_of_some wrong)

/-- A run in which nobody fails, if it ends, ends as the agenda of its zone resolves. -/
theorem endsAsResolved_of_run {events : List Event} {outcome : Outcome RunError RunReport}
    {after : Progress} (default : context.drive.defaultDuration = .ok timed)
    (branches : configuration.Branches)
    (willing : ∀ event ∈ events, Willing zone event.request event.reply)
    (runs : Runs (context.run configuration .fresh) events (outcome, after))
    (ended : outcome ≠ .waiting) : EndsAsResolved (configuration.agenda zone) outcome := by
  have finds : ∀ event ∈ events, FindsZone zone event.request event.reply :=
    fun event member => (willing event member).findsZone
  obtain ⟨_, rfl, runsPlain⟩ := (simulates_run branches).runs runs finds
  have ends := Program.Keeps.of_runs (plainRun_endsWilling default) runsPlain willing
  exact ends.2.resolve_left ended

end DispatchContext

end RobotRoutine
