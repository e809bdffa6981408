import RobotRoutine.Proofs.Check.Agreement
import RobotRoutine.Proofs.Run.Commands

/-!
The calls of a dispatcher.

Whatever is configured and whatever is answered, a dispatcher drives and reads its own motor alone,
with no power but that of its drives and zero, and touches no file.  It refuses the default duration
only if the settings do.
-/

namespace RobotRoutine

namespace Dispatch

variable {α β : Type} {effects : Effects RunError}

/-- A part does no more than its effects say, from any progress on. -/
def Within (effects : Effects RunError) (part : Dispatch α) : Prop :=
  ∀ progress, (part progress).Keeps anyReply effects.calls fun ending => effects.Allows ending.1

theorem within_result (a : α) : Within effects (result a) := fun _ => trivial

theorem within_update (change : Progress → Progress) : Within effects (update change) :=
  fun _ => trivial

theorem within_progress : Within effects progress := fun _ => trivial

theorem within_lift {task : Task RunError α} (within : task.Within effects) :
    Within effects (lift task) :=
  fun _ => Program.Keeps.bind within fun _ allowed => allowed

theorem within_bind {part : Dispatch α} {next : α → Dispatch β} (within : Within effects part)
    (withinNext : ∀ a, Within effects (next a)) : Within effects (part.bind next) := by
  intro progress
  refine Program.Keeps.bind (within progress) ?_
  rintro ⟨stop, middle⟩ allowed
  cases stop with
  | value a => exact withinNext a middle
  | _ => exact allowed

theorem within_throw {error : RunError} (thrown : effects.errors error) :
    Within effects (throw error : Dispatch α) :=
  fun _ => thrown

/-- What follows an attempt has only to deal with errors that the part may end with. -/
theorem within_attempt {part : Dispatch α} {next : Except RunError α → Dispatch β}
    (within : Within effects part) (withinValue : ∀ a, Within effects (next (.ok a)))
    (withinError : ∀ error, effects.errors error → Within effects (next (.error error))) :
    Within effects ((attempt part).bind next) := by
  intro progress
  change Program.Keeps _ _ _ (Program.bind (Program.bind _ _) _)
  rw [Program.bind_assoc]
  refine Program.Keeps.bind (within progress) ?_
  rintro ⟨stop, middle⟩ allowed
  cases stop with
  | value a => exact withinValue a middle
  | error error => exact withinError error allowed middle
  | _ => exact allowed

theorem within_record {level : LogLevel} {text : String}
    (made : effects.calls (.host (.record level dispatchTag text))) :
    Within effects (record level text) :=
  within_lift (Task.within_host made)

end Dispatch

theorem eq_error_of_map {ε α β : Type} {f : α → β} {result : Except ε α} {error : ε}
    (failed : result.map f = .error error) : result = .error error := by
  cases result with
  | ok a => cases failed
  | error other =>
      cases failed
      rfl

namespace DispatchContext

def Makes (context : DispatchContext) : Call → Prop
  | .robot (.setPower channel power) => channel = context.driveChannel ∧
      (power = Binary64.zero ∨
        ∃ direction : Direction, power = direction.power context.drive.power)
  | .robot (.readSensor channel) => channel = context.driveChannel
  | .robot .isActive => True
  | .robot .operatorSignal => True
  | .robot (.addItem _ _) => True
  | .robot .refresh => True
  | .robot .clearItems => True
  | .robot .currentZone => True
  | .host .now => True
  | .host (.pause _) => True
  | .host (.record _ _ _) => True
  | _ => False

/-- What a dispatcher may do.  Its errors name the default duration only if that is refused. -/
def runEffects (context : DispatchContext) : Effects RunError where
  calls := context.Makes
  errors error := ∀ command text, error = .invalidValue command "default_duration_secs" text →
    ∃ refusal, context.drive.defaultDuration = .error refusal
  waits := True
  halts := True

variable {context : DispatchContext} {configuration : Configuration}

theorem makes_of_polls {call : Call} (polls : context.pollEffects.calls call) :
    context.Makes call := by
  obtain ⟨inLoop, here, -⟩ := polls
  cases call with
  | robot call => cases call <;> first | exact here | trivial
  | host call => cases call <;> trivial

theorem errors_of_not_isRefusal {error : RunError} (accepted : ¬ error.IsRefusal) :
    context.runEffects.errors error := by
  rintro command text rfl
  exact absurd trivial accepted

theorem key_of_optionalSeconds {step : ActionStep} {command key text : String}
    (refused : Command.optionalSeconds step = .error (.invalidValue command key text)) :
    key = "seconds" := by
  unfold Command.optionalSeconds at refused
  split at refused
  case h_1 => cases refused
  case h_2 =>
    dsimp only at refused
    split at refused
    case h_1 =>
      cases refused
      rfl
    case h_2 =>
      split at refused
      · cases refused
        rfl
      · split at refused <;> cases refused
        rfl

theorem key_of_requiredMillis {step : ActionStep} {command key text : String}
    (refused : Command.requiredMillis step = .error (.invalidValue command key text)) :
    key = "ms" := by
  simp only [Command.requiredMillis] at refused
  split at refused <;> cases refused
  rfl

/-- A step that is refused for a value is refused for one of its own. -/
theorem key_of_resolve {step : ActionStep} {command key text : String}
    (refused : Command.resolve step = .error (.invalidValue command key text)) :
    key = "seconds" ∨ key = "ms" := by
  simp only [Command.resolve] at refused
  split_ifs at refused
  · exact .inl (key_of_optionalSeconds (eq_error_of_map refused))
  · exact .inl (key_of_optionalSeconds (eq_error_of_map refused))
  · exact .inr (key_of_requiredMillis (eq_error_of_map refused))
  · cases refused

theorem errors_of_resolve {step : ActionStep} {error : RunError}
    (refused : Command.resolve step = .error error) : context.runEffects.errors error := by
  rintro command text rfl
  rcases key_of_resolve refused with same | same <;> exact absurd same (by decide)

theorem covers_runEffects (step : ActionStep) : context.Covers step context.runEffects where
  polls _ := makes_of_polls
  powers direction := ⟨rfl, .inr ⟨direction, rfl⟩⟩
  zeroing := ⟨rfl, .inl rfl⟩
  device failure := errors_of_not_isRefusal (RunError.not_isRefusal_ofDevice failure)
  duration given error refused := by
    intro command text _
    unfold driveDuration at refused
    split at refused
    · cases refused
    · split at refused
      · cases refused
      · exact ⟨_, ‹_›⟩
  waits := trivial
  halts := trivial

theorem errors_of_requireTable {error : RunError}
    (missing : requireTable configuration = .error error) : context.runEffects.errors error := by
  unfold requireTable at missing
  split at missing <;> cases missing
  rintro command text ⟨⟩

theorem stepRules_within :
    context.StepRules configuration fun part => part.Within context.runEffects where
  result := Dispatch.within_result
  waiting := Dispatch.within_lift (Task.within_waiting trivial)
  bind := Dispatch.within_bind
  record _ _ := Dispatch.within_record trivial
  isActive := Dispatch.within_lift (Task.within_robot trivial)
  resolve _ := Dispatch.within_lift (Task.within_ofExcept fun _ => errors_of_resolve)
  carryOut step command :=
    Dispatch.within_lift (carryOut_within_of (covers_runEffects step) command)
  countStep := Dispatch.within_update _
  requireTable := Dispatch.within_lift (Task.within_ofExcept fun _ => errors_of_requireTable)
  currentZone := by
    refine Dispatch.within_lift ⟨trivial, fun answer _ => ?_⟩
    refine Task.within_ofAnswer (fun failure => ?_) answer
    exact errors_of_not_isRefusal (RunError.not_isRefusal_ofClassifier failure)
  setZone _ := Dispatch.within_update _

theorem within_conclude {ending : Except RunError Flow}
    (thrown : ∀ error, ending = .error error → context.runEffects.errors error) :
    Dispatch.Within context.runEffects (context.conclude ending) := by
  unfold conclude
  split
  · refine Dispatch.within_bind (Dispatch.within_update _) ?_
    intro _
    refine Dispatch.within_bind (Dispatch.within_lift (Task.within_addItem trivial)) ?_
    intro _
    refine Dispatch.within_bind (Dispatch.within_lift ⟨trivial, fun answer _ => ?_⟩) ?_
    · cases answer <;> trivial
    · intro _
      exact Dispatch.within_progress
  · exact Dispatch.within_bind (Dispatch.within_update _) fun _ => Dispatch.within_progress
  · exact Dispatch.within_bind (Dispatch.within_update _) fun _ =>
      Dispatch.within_throw (thrown _ rfl)
  · exact Dispatch.within_bind (Dispatch.within_update _) fun _ =>
      Dispatch.within_throw (thrown _ rfl)

theorem within_run (context : DispatchContext) (configuration : Configuration) :
    Dispatch.Within context.runEffects (context.run configuration) := by
  rw [run]
  refine Dispatch.within_bind (Dispatch.within_record trivial) ?_
  intro _
  refine Dispatch.within_bind (Dispatch.within_record trivial) ?_
  intro _
  refine Dispatch.within_bind (Dispatch.within_lift (Task.within_robot trivial)) ?_
  intro live
  have concludes (ending : Except RunError Flow)
      (thrown : ∀ error, ending = .error error → context.runEffects.errors error) :
      Dispatch.Within context.runEffects (do
        Dispatch.record .info "Exiting dispatcher"
        context.conclude ending) :=
    Dispatch.within_bind (Dispatch.within_record trivial) fun _ => within_conclude thrown
  split
  · refine Dispatch.within_bind (Dispatch.within_update _) ?_
    intro _
    refine Dispatch.within_attempt stepRules_within.runActions (fun flow => concludes _ nofun) ?_
    rintro error thrown
    refine concludes _ ?_
    rintro _ ⟨⟩
    exact thrown
  · refine Dispatch.within_bind (Dispatch.within_record trivial) ?_
    intro _
    exact Dispatch.within_bind (Dispatch.within_update _) fun _ => Dispatch.within_progress

end DispatchContext

end RobotRoutine
