import Mathlib.Data.List.Induction
import RobotRoutine.Proofs.Program.Mishaps
import RobotRoutine.Proofs.Run.Commands
import RobotRoutine.Proofs.Run.Course

/-!
Mishaps that end a run.

A failure or crash of a collaborator ends the steps of a run: nothing more is called, but for the
channel of a drive, which is zeroed on the way out.  The reply to that zeroing cannot change what is
on its way out, unless it crashes.
-/

namespace RobotRoutine

open Program (Runs Event)

/-- The error that a run makes of the failure of a call. -/
def errorOf : Call → Failure → RunError
  | .robot .currentZone, failure => .ofClassifier failure
  | _, failure => .ofDevice failure

def runErrors (request : Call) (failure : Failure) : Option RunError :=
  some (errorOf request failure)

/-- The ending that an event makes of the steps of a run. -/
abbrev stopOf? (event : Event) : Option (Outcome RunError Empty) := Task.ending? runErrors event

/-- A zeroing right behind a mishap. -/
def Leaving (earlier : List Event) (event : Event) : Prop :=
  ∃ before previous channel answer, earlier = before ++ [previous] ∧
    event = zeroing channel answer ∧ stopOf? previous ≠ none

theorem Leaving.prepend {earlier : List Event} {event : Event} (leaving : Leaving earlier event)
    (first : List Event) : Leaving (first ++ earlier) event := by
  obtain ⟨before, previous, channel, answer, rfl, same, stops⟩ := leaving
  exact ⟨first ++ before, previous, channel, answer, (List.append_assoc _ _ _).symm, same, stops⟩

/-- What is still called behind a mishap, and how the way out ends.  Only from within a drive there
is something to be called. -/
inductive Heeded (event : Event) :
    Outcome RunError Empty → List Event → Outcome RunError Empty → Prop where
  | atOnce {stop} : Heeded event stop [] stop
  | zeroed {stop channel answer} :
      event.request.InCommand → (∀ crash, answer ≠ .crashed crash) →
      Heeded event stop [zeroing channel answer] stop
  | unwound {error channel crash} :
      event.request.InCommand →
      Heeded event (.error error) [zeroing channel (.crashed crash)] (.crash crash)
  | halted {first channel again} :
      event.request.InCommand →
      Heeded event (.crash first) [zeroing channel (.crashed again)] .halted

theorem Heeded.length_le {event : Event} {stop ended : Outcome RunError Empty} {later : List Event}
    (heeded : Heeded event stop later ended) : later.length ≤ 1 := by
  cases heeded <;> simp

/-- An event in a list put together is in its first part or in its second. -/
theorem split_cases {first second earlier later : List Event} {event : Event}
    (same : earlier ++ event :: later = first ++ second) :
    (∃ rest, first = earlier ++ event :: rest ∧ later = rest ++ second) ∨
      ∃ rest, earlier = first ++ rest ∧ second = rest ++ event :: later := by
  rcases List.append_eq_append_iff.mp same with ⟨rest, inFirst, here⟩ | inSecond
  · rcases List.cons_eq_append_iff.mp here with ⟨rfl, there⟩ | ⟨others, rfl, there⟩
    · exact .inr ⟨[], by simpa using inFirst.symm, by simpa using there⟩
    · exact .inl ⟨others, inFirst, there⟩
  · exact .inr inSecond

namespace Program

variable {α β : Type} {results others : Type}

/-- Every mishap is the end of a program, but for zeroing on the way out.  The ending is read off
the result. -/
def Heedful (ending : results → Outcome RunError α) (program : Program results) : Prop :=
  ∀ earlier event later result stop, Runs program (earlier ++ event :: later) result →
    stopOf? event = some stop → ¬ Leaving earlier event →
    ∃ ended, Heeded event stop later ended ∧ ended.Passes (ending result)

variable {ending : results → Outcome RunError α} {endingNext : others → Outcome RunError β}

/-- Behind a mishap there is at most the zeroing, which may go wrong itself. -/
theorem Heedful.length_le {program : Program results} {earlier later : List Event} {event : Event}
    {result : results} {stop : Outcome RunError Empty} (heedful : program.Heedful ending)
    (runs : Runs program (earlier ++ event :: later) result) (stops : stopOf? event = some stop) :
    later.length ≤ 1 := by
  -- A zeroing behind a mishap is the one event that may come behind that mishap, so the induction
  -- is on what came before.
  induction earlier using List.reverseRecOn generalizing event later stop with
  | nil =>
      obtain ⟨_, heeded, _⟩ := heedful [] event later result stop runs stops <| by
        rintro ⟨before, previous, _, _, impossible, _⟩
        simp at impossible
      exact heeded.length_le
  | append_singleton before previous inductionHypothesis =>
      by_cases leaving : Leaving (before ++ [previous]) event
      · obtain ⟨_, last, _, _, same, _, stopsLast⟩ := leaving
        obtain ⟨rfl, here⟩ := List.append_inj' same rfl
        cases here
        obtain ⟨cause, causes⟩ := Option.ne_none_iff_exists'.mp stopsLast
        rw [← List.append_cons] at runs
        have atMostOne := inductionHypothesis runs causes
        rw [List.length_cons] at atMostOne
        omega
      · obtain ⟨_, heeded, _⟩ := heedful _ event later result stop runs stops leaving
        exact heeded.length_le

/-- A zeroing that goes wrong leaves the ending to the mishap before it. -/
theorem Heedful.of_leaving {program : Program results} {before later : List Event}
    {previous event : Event} {result : results} {stop : Outcome RunError Empty}
    (heedful : program.Heedful ending)
    (runs : Runs program (before ++ previous :: event :: later) result)
    (stops : stopOf? previous = some stop) :
    later = [] ∧ ∃ ended, Heeded previous stop [event] ended ∧ ended.Passes (ending result) := by
  have atMostOne := heedful.length_le runs stops
  obtain rfl : later = [] := by
    rw [List.length_cons] at atMostOne
    exact List.eq_nil_of_length_eq_zero (by omega)
  refine ⟨rfl, heedful _ _ _ _ _ runs stops ?_⟩
  -- The mishap itself is no zeroing on the way out: there would be two events behind the first one.
  rintro ⟨first, cause, _, _, rfl, _, stopsFirst⟩
  obtain ⟨_, causes⟩ := Option.ne_none_iff_exists'.mp stopsFirst
  rw [← List.append_cons] at runs
  have tooLong := heedful.length_le runs causes
  simp at tooLong

theorem heedful_done (result : results) : (done result).Heedful ending := by
  intro earlier event later ended stop runs
  exact absurd (runs_done_iff.mp runs).1 (by simp)

theorem heedful_bind {program : Program results} {next : results → Program others}
    (heedful : program.Heedful ending)
    (handsOn : ∀ result (stop : Outcome RunError Empty), stop.Passes (ending result) →
      ∃ last, next result = done last ∧ stop.Passes (endingNext last))
    (heedfulNext : ∀ result, (next result).Heedful endingNext) :
    (program.bind next).Heedful endingNext := by
  intro earlier event later last stop runs stops notLeaving
  obtain ⟨first, second, result, same, runsFirst, runsSecond⟩ := runs_of_bind runs
  rcases split_cases same with ⟨rest, rfl, rfl⟩ | ⟨rest, rfl, rfl⟩
  · obtain ⟨ended, heeded, passes⟩ := heedful _ _ _ _ _ runsFirst stops notLeaving
    obtain ⟨final, same, passesToo⟩ := handsOn result ended passes
    rw [same] at runsSecond
    obtain ⟨rfl, rfl⟩ := runs_done_iff.mp runsSecond
    rw [List.append_nil]
    exact ⟨ended, heeded, passesToo⟩
  · exact heedfulNext result _ _ _ _ _ runsSecond stops fun leaving =>
      notLeaving (leaving.prepend first)

end Program

namespace Task

variable {α β : Type}

abbrev Heedful (task : Task RunError α) : Prop := Program.Heedful id task

theorem heedful_bind {task : Task RunError α} {next : α → Task RunError β} (heedful : task.Heedful)
    (heedfulNext : ∀ a, (next a).Heedful) : (task.bind next).Heedful := by
  refine Program.heedful_bind heedful ?_ ?_
  · intro outcome stop passes
    cases passes <;> exact ⟨_, rfl, by constructor⟩
  · intro outcome
    cases outcome with
    | value a => exact heedfulNext a
    | _ => exact Program.heedful_done _

theorem heedful_of_brittle {task : Task RunError α} (brittle : task.Brittle runErrors) :
    task.Heedful := by
  intro earlier event later outcome stop runs stops _
  obtain ⟨rfl, passes⟩ := (brittle _ _ runs).of_ending stops
  exact ⟨stop, .atOnce, passes⟩

theorem heedful_ofExcept (result : Except RunError α) : (ofExcept result).Heedful := by
  cases result <;> exact Program.heedful_done _

/-- A reply that is taken as a value, an error or a crash is a mishap just if it is no value. -/
theorem breaks_ofAnswer {toError : Failure → RunError} {event : Event} (answer : Answer α)
    (same : event.mishap? = answer.mishap?)
    (made : ∀ failure, errorOf event.request failure = toError failure) :
    stopOf? event = none ∧ (ofAnswer toError answer).Brittle runErrors ∨
      ∃ stop outcome, stopOf? event = some stop ∧
        ofAnswer toError answer = Program.done outcome ∧ stop.Passes outcome := by
  unfold stopOf? ending?
  rw [same]
  cases answer with
  | ok a => exact .inl ⟨rfl, brittle_done trivial⟩
  | failed failure =>
      refine .inr ⟨.error (toError failure), .error (toError failure), ?_, rfl, .error _⟩
      simp [Answer.mishap?, runErrors, made]
  | crashed crash => exact .inr ⟨.crash crash, .crash crash, rfl, rfl, .crash crash⟩

theorem brittle_setPower (channel : ChannelId) (power : Binary64) :
    (setPower .ofDevice channel power).Brittle runErrors :=
  brittle_call fun answer => breaks_ofAnswer answer rfl fun _ => rfl

theorem brittle_readSensor (channel : ChannelId) :
    (readSensor .ofDevice channel).Brittle runErrors :=
  brittle_call fun answer => breaks_ofAnswer answer rfl fun _ => rfl

theorem brittle_refresh : (refresh .ofDevice).Brittle runErrors :=
  brittle_call fun answer => breaks_ofAnswer answer rfl fun _ => rfl

theorem brittle_currentZone : (currentZone .ofClassifier).Brittle runErrors :=
  brittle_call fun answer => breaks_ofAnswer answer rfl fun _ => rfl

end Task

namespace PowerHold

variable {α : Type} {channel : ChannelId} {power : Binary64} {body : Task RunError α}
  {events : List Event} {outcome : Outcome RunError α}

/-- What a stopped body is left by is at most one zeroing. -/
theorem heeded_leave {event : Event} {stop : Outcome RunError Empty}
    {stopped : Outcome RunError α} (inCommand : event.request.InCommand)
    (passes : stop.Passes stopped) (runs : Runs (leave .ofDevice channel stopped) events outcome) :
    (events = [] ∨ ∃ answer, events = [zeroing channel answer]) ∧
      ∃ ended, Heeded event stop events ended ∧ ended.Passes outcome := by
  have leaves := leaves_of_runs runs
  cases passes <;> cases leaves
  case error.errorKept safe => exact ⟨.inr ⟨_, rfl⟩, _, .zeroed inCommand safe, .error _⟩
  case error.errorLost => exact ⟨.inr ⟨_, rfl⟩, _, .unwound inCommand, .crash _⟩
  case crash.crashKept safe => exact ⟨.inr ⟨_, rfl⟩, _, .zeroed inCommand safe, .crash _⟩
  case crash.crashTwice => exact ⟨.inr ⟨_, rfl⟩, _, .halted inCommand, .halted⟩
  case halted.halted => exact ⟨.inl rfl, _, .atOnce, .halted⟩
  case waiting.waiting => exact ⟨.inl rfl, _, .atOnce, .waiting⟩

theorem heedful_release (value : α) : (release .ofDevice channel value).Heedful :=
  Task.heedful_of_brittle
    (Task.brittle_bind (Task.brittle_setPower _ _) fun _ => Task.brittle_done trivial)

theorem inCommand_of_runs (within : body.Within loopEffects)
    (runs : Runs ((Task.setPower .ofDevice channel power).bind fun _ => body) events outcome) :
    ∀ event ∈ events, event.request.InCommand := by
  obtain ⟨answer, rest, rfl, runsRest⟩ := Program.runs_call_iff.mp runs
  refine List.forall_mem_cons.mpr ⟨trivial, ?_⟩
  cases answer with
  | ok _ =>
      intro event member
      exact ((Task.within_of_runs within runsRest).1 event member).inCommand
  | _ =>
      obtain ⟨rfl, _⟩ := Program.runs_done_iff.mp runsRest
      exact List.forall_mem_nil _

theorem heedful_during (brittle : body.Brittle runErrors) (within : body.Within loopEffects) :
    (during .ofDevice channel power body).Heedful := by
  intro earlier event later outcome stop runs stops notLeaving
  rw [during_eq] at runs
  obtain ⟨inside, way, stopped, same, runsInside, runsWay⟩ := Program.runs_of_bind runs
  have inCommand := inCommand_of_runs within runsInside
  have breaks := Task.brittle_bind (Task.brittle_setPower channel power) (fun _ => brittle) _ _
    runsInside
  rcases split_cases same with ⟨rest, rfl, rfl⟩ | ⟨rest, rfl, rfl⟩
  · obtain ⟨rfl, passes⟩ := breaks.of_ending stops
    exact (heeded_leave (inCommand event (by simp)) passes runsWay).2
  · cases stopped with
    | value value =>
        exact heedful_release value _ _ _ _ _ runsWay stops fun leaving =>
          notLeaving (leaving.prepend inside)
    | halted => exact absurd (Program.runs_done_iff.mp runsWay).1 (by simp)
    | waiting => exact absurd (Program.runs_done_iff.mp runsWay).1 (by simp)
    | _ =>
        -- A mishap has ended the body, and the event is the zeroing behind it.
        obtain ⟨before, last, cause, rfl, causes, passes⟩ := breaks.exists_last id
        obtain ⟨nothing | ⟨answer, only⟩, _⟩ :=
          heeded_leave (inCommand last (by simp)) passes runsWay
        · exact absurd nothing (by simp)
        · obtain ⟨rfl, rfl, rfl⟩ : rest = [] ∧ event = zeroing channel answer ∧ later = [] := by
            simpa [List.append_eq_singleton_iff] using only
          refine absurd ⟨before, last, channel, answer, List.append_nil _, rfl, ?_⟩ notLeaving
          exact Option.ne_none_iff_exists'.mpr ⟨cause, causes⟩

end PowerHold

namespace DispatchContext

variable {context : DispatchContext} {configuration : Configuration}

theorem loopRules_brittle : context.LoopRules fun task => task.Brittle runErrors where
  result _ := Task.brittle_done trivial
  waiting := Task.brittle_done trivial
  bind := Task.brittle_bind
  record _ _ := Task.brittle_host _
  pause _ := Task.brittle_host _
  operatorSignal := Task.brittle_robot fun _ => rfl
  isActive := Task.brittle_robot fun _ => rfl
  now := Task.brittle_host _
  readSensor := Task.brittle_readSensor _
  direction _ := Task.brittle_addItem _ _
  position _ := Task.brittle_addItem _ _
  refresh := Task.brittle_refresh
  clearItems := Task.brittle_clearItems

theorem heedful_carryOut (step : ActionStep) (command : Command) :
    (context.carryOut step command).Heedful := by
  have rules : context.LoopRules fun task => task.Brittle runErrors := loopRules_brittle
  cases command with
  | drive direction duration =>
      apply Task.heedful_bind (Task.heedful_ofExcept _)
      intro duration
      apply Task.heedful_bind (Task.heedful_of_brittle Task.brittle_clearItems)
      intro _
      exact PowerHold.heedful_during (rules.timedTurns direction duration)
        (loopRules_inLoop.timedTurns direction duration)
  | sleep duration => exact Task.heedful_of_brittle (rules.sleep duration)
  | breakpoint => exact Task.heedful_of_brittle rules.waitForOperator
  | zoneChoice => exact Program.heedful_done _

end DispatchContext

namespace Dispatch

variable {α β : Type}

def Heedful (part : Dispatch α) : Prop := ∀ progress, (part progress).Heedful Prod.fst

theorem heedful_update (change : Progress → Progress) : (update change).Heedful :=
  fun _ => Program.heedful_done _

theorem heedful_result (a : α) : (result a).Heedful := fun _ => Program.heedful_done _

theorem heedful_lift {task : Task RunError α} (heedful : task.Heedful) : (lift task).Heedful :=
  fun _ => Program.heedful_bind heedful (fun _ _ passes => ⟨_, rfl, passes⟩)
    fun _ => Program.heedful_done _

theorem heedful_record (level : LogLevel) (text : String) : (record level text).Heedful :=
  heedful_lift (Task.heedful_of_brittle (Task.brittle_host _))

theorem heedful_bind {part : Dispatch α} {next : α → Dispatch β} (heedful : part.Heedful)
    (heedfulNext : ∀ a, (next a).Heedful) : (part.bind next).Heedful := by
  intro progress
  refine Program.heedful_bind (heedful progress) ?_ ?_
  · rintro ⟨outcome, middle⟩ stop passes
    cases passes <;> exact ⟨_, rfl, by constructor⟩
  · rintro ⟨outcome, middle⟩
    cases outcome with
    | value a => exact heedfulNext a middle
    | _ => exact Program.heedful_done _

end Dispatch

namespace DispatchContext

variable {context : DispatchContext} {configuration : Configuration}

theorem stepRules_heedful : context.StepRules configuration Dispatch.Heedful where
  result := Dispatch.heedful_result
  waiting := Dispatch.heedful_lift (Program.heedful_done _)
  bind := Dispatch.heedful_bind
  record := Dispatch.heedful_record
  isActive := Dispatch.heedful_lift (Task.heedful_of_brittle (Task.brittle_robot fun _ => rfl))
  resolve _ := Dispatch.heedful_lift (Task.heedful_ofExcept _)
  carryOut step command := Dispatch.heedful_lift (heedful_carryOut step command)
  countStep := Dispatch.heedful_update _
  requireTable := Dispatch.heedful_lift (Task.heedful_ofExcept _)
  currentZone := Dispatch.heedful_lift (Task.heedful_of_brittle Task.brittle_currentZone)
  setZone _ := Dispatch.heedful_update _

/-- A mishap ends the steps of a run, wherever among the zones of a branch it comes. -/
theorem heedful_runActions : (context.runActions configuration).Heedful :=
  stepRules_heedful.runActions

end DispatchContext

end RobotRoutine
