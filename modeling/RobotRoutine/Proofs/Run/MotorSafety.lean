import RobotRoutine.Proofs.Program.Obliging
import RobotRoutine.Proofs.Run.Commands
import RobotRoutine.Proofs.Run.Course

/-!
The power of the drive motor in a run.

A held power is taken away by exactly one call on every way out of its body, so the power commands
of a visit are none, or the power of its drive followed by zero.  Nothing else in a run commands
power.
-/

namespace RobotRoutine

open Program (Runs Event)

def powerCommand? : Event → Option (ChannelId × Binary64)
  | ⟨.robot (.setPower channel power), _⟩ => some (channel, power)
  | _ => none

def powerCommands (events : List Event) : List (ChannelId × Binary64) :=
  events.filterMap powerCommand?

@[simp]
theorem powerCommands_append (first second : List Event) :
    powerCommands (first ++ second) = powerCommands first ++ powerCommands second :=
  List.filterMap_append

@[simp]
theorem powerCommands_setPower (channel : ChannelId) (power : Binary64) (answer : Answer Unit)
    (events : List Event) :
    powerCommands (⟨.robot (.setPower channel power), answer⟩ :: events) =
      (channel, power) :: powerCommands events := rfl

def Call.LeavesPower : Call → Prop
  | .robot (.setPower _ _) => False
  | _ => True

theorem powerCommands_eq_nil {events : List Event}
    (leave : ∀ event ∈ events, event.request.LeavesPower) : powerCommands events = [] := by
  rw [powerCommands, List.filterMap_eq_nil_iff]
  intro event member
  have leaves := leave event member
  unfold powerCommand?
  split
  · exact leaves.elim
  · rfl

def powerless (ε : Type) : Effects ε where
  calls := Call.LeavesPower
  errors _ := True
  waits := True
  halts := False

namespace PowerHold

variable {ε α : Type} {toError : Failure → ε} {channel : ChannelId} {power : Binary64}
  {body : Task ε α} {events : List Event} {outcome : Outcome ε α}

/-- Whatever ends a body, the power is taken away once; only a body left waiting keeps it. -/
theorem powerCommands_leave {stop : Outcome ε α}
    (runs : Runs (leave toError channel stop) events outcome) (running : stop ≠ .halted)
    (ended : outcome ≠ .waiting) : powerCommands events = [(channel, Binary64.zero)] := by
  cases leaves_of_runs runs with
  | halted => exact absurd rfl running
  | waiting => exact absurd rfl ended
  | _ => rfl

theorem powerCommands_engage (within : body.Within (powerless ε))
    (runs : Runs ((Task.setPower toError channel power).bind fun _ => body) events outcome) :
    powerCommands events = [(channel, power)] := by
  obtain ⟨answer, rest, rfl, runsRest⟩ := Program.runs_call_iff.mp runs
  rw [powerCommands_setPower]
  cases answer with
  | ok _ => rw [powerCommands_eq_nil (Task.within_of_runs within runsRest).1]
  | _ =>
      obtain ⟨rfl, _⟩ := Program.runs_done_iff.mp runsRest
      rfl

theorem ne_halted_of_engage (within : body.Within (powerless ε))
    (runs : Runs ((Task.setPower toError channel power).bind fun _ => body) events outcome) :
    outcome ≠ .halted := by
  obtain ⟨answer, rest, rfl, runsRest⟩ := Program.runs_call_iff.mp runs
  rintro rfl
  cases answer with
  | ok _ => exact (Task.within_of_runs within runsRest).2
  | _ => cases (Program.runs_done_iff.mp runsRest).2

theorem powerCommands_during (within : body.Within (powerless ε))
    (runs : Runs (during toError channel power body) events outcome) (ended : outcome ≠ .waiting) :
    powerCommands events = [(channel, power), (channel, Binary64.zero)] := by
  rw [during_eq] at runs
  obtain ⟨inside, leaving, stop, rfl, runsInside, runsLeave⟩ := Program.runs_of_bind runs
  rw [powerCommands_append, powerCommands_engage within runsInside,
    powerCommands_leave runsLeave (ne_halted_of_engage within runsInside) ended]
  rfl

end PowerHold

namespace DispatchContext

variable {context : DispatchContext} {configuration : Configuration}

/-- The power commands of a drive that got as far as engaging its power. -/
def drivePower (context : DispatchContext) (direction : Direction) :
    List (ChannelId × Binary64) :=
  [(context.driveChannel, direction.power context.drive.power),
    (context.driveChannel, Binary64.zero)]

theorem loop_powerless {α : Type} {task : Task RunError α} (within : task.Within loopEffects) :
    task.Within (powerless RunError) := by
  refine Task.within_mono within ?_ (fun _ _ => trivial) id id
  intro call inLoop
  change call.LeavesPower
  unfold Call.LeavesPower
  split
  · exact inLoop
  · trivial

theorem powerCommands_eq_nil_of_loop {α : Type} {task : Task RunError α} {events : List Event}
    {outcome : Outcome RunError α} (within : task.Within loopEffects)
    (runs : Runs task events outcome) : powerCommands events = [] :=
  powerCommands_eq_nil (Task.within_of_runs (loop_powerless within) runs).1

theorem powerCommands_driveByTime {direction : Direction} {duration : Duration}
    {events : List Event} {outcome : Outcome RunError Unit}
    (runs : Runs (context.driveByTime direction duration) events outcome)
    (ended : outcome ≠ .waiting) :
    powerCommands events = [] ∨ powerCommands events = context.drivePower direction := by
  obtain ⟨receipt, rest, rfl, runsRest⟩ := Program.runs_call_iff.mp runs
  cases receipt with
  | crashed crash =>
      obtain ⟨rfl, -⟩ := Program.runs_done_iff.mp runsRest
      exact .inl rfl
  | returned =>
      change Runs (PowerHold.during _ _ _ _) rest outcome at runsRest
      have engaged : powerCommands rest = context.drivePower direction := by
        refine PowerHold.powerCommands_during ?_ runsRest ended
        exact loop_powerless (loopRules_inLoop.timedTurns direction duration)
      exact .inr engaged

/-- Only a drive commands power, and what it commands is its own power and then zero. -/
theorem powerCommands_carryOut {step : ActionStep} {command : Command} {events : List Event}
    {outcome : Outcome RunError Unit} (runs : Runs (context.carryOut step command) events outcome)
    (ended : outcome ≠ .waiting) :
    powerCommands events = [] ∨
      ∃ direction duration, command = .drive direction duration ∧
        powerCommands events = context.drivePower direction := by
  have inLoop : context.LoopRules fun task => task.Within loopEffects := loopRules_inLoop
  cases command with
  | drive direction duration =>
      cases given : context.driveDuration step duration with
      | error error =>
          simp only [carryOut, given] at runs
          obtain ⟨rfl, -⟩ := Program.runs_done_iff.mp runs
          exact .inl rfl
      | ok length =>
          simp only [carryOut, given] at runs
          exact (powerCommands_driveByTime runs ended).imp_right fun same =>
            ⟨direction, duration, rfl, same⟩
  | sleep duration =>
      exact .inl (powerCommands_eq_nil_of_loop (inLoop.sleep duration) runs)
  | breakpoint => exact .inl (powerCommands_eq_nil_of_loop inLoop.waitForOperator runs)
  | zoneChoice =>
      obtain ⟨rfl, -⟩ := Program.runs_done_iff.mp runs
      exact .inl rfl

/-- A visit commands no power, or that of the drive that is visited and then zero. -/
def PairsPower (context : DispatchContext) (visit : Visit) : Prop :=
  powerCommands visit.events = [] ∨
    ∃ direction duration, Command.resolve visit.step = .ok (.drive direction duration) ∧
      powerCommands visit.events = context.drivePower direction

theorem pairsPower_of_carryOut {step : ActionStep} {command : Command} {doing : List Event}
    {outcome : Outcome RunError Unit} (resolved : Command.resolve step = .ok command)
    (runs : Runs (context.carryOut step command) doing outcome) (ended : outcome ≠ .waiting) :
    context.PairsPower ⟨step, ⟨.robot .isActive, true⟩ :: beginning step :: doing⟩ := by
  rcases powerCommands_carryOut runs ended with none | ⟨direction, duration, rfl, same⟩
  · exact .inl none
  · exact .inr ⟨direction, duration, resolved, same⟩

theorem pairsPower_of_runs_visit {step : ActionStep} {before after : Progress} {events : List Event}
    {outcome : Outcome RunError (Option (List ActionStep))}
    (runs : Runs (context.visit configuration step before) events (outcome, after))
    (ended : outcome ≠ .waiting) : context.PairsPower ⟨step, events⟩ := by
  cases visited_of_runs runs with
  | carried other resolved carriedOut => exact pairsPower_of_carryOut resolved carriedOut (by simp)
  | stopped other resolved carriedOut passes =>
      exact pairsPower_of_carryOut resolved carriedOut (mt passes.waiting_iff.mp ended)
  | _ => exact .inl rfl

theorem pairsPower_of_visits {before : Progress} {steps : List ActionStep} {visits : List Visit}
    {ending : Outcome RunError Flow × Progress}
    (made : Visits context configuration before steps visits ending)
    (ended : ending.1 ≠ .waiting) : ∀ visit ∈ visits, context.PairsPower visit := by
  refine made.forall_visit ?_
  intro _ _ _ _ _ runs waits
  exact pairsPower_of_runs_visit runs fun waiting => ended (waits waiting)

theorem powerCommands_concludes {middle : Progress} {stop : Outcome RunError Flow}
    {closing : List Event} {ending : Outcome RunError RunReport × Progress}
    (concludes : Concludes context middle stop closing ending) : powerCommands closing = [] := by
  cases concludes with
  | finished completion => cases completion <;> rfl
  | _ => rfl

theorem powerCommands_eventsOf {visits : List Visit}
    (pairs : ∀ visit ∈ visits, context.PairsPower visit) :
    ∃ directions : List Direction,
      powerCommands (eventsOf visits) = directions.flatMap context.drivePower := by
  induction visits with
  | nil => exact ⟨[], rfl⟩
  | cons visit rest inductionHypothesis =>
      rw [List.forall_mem_cons] at pairs
      obtain ⟨directions, same⟩ := inductionHypothesis pairs.2
      have split : powerCommands (eventsOf (visit :: rest)) =
          powerCommands visit.events ++ powerCommands (eventsOf rest) := by
        simp [eventsOf]
      rw [split, same]
      rcases pairs.1 with none | ⟨direction, _, _, pair⟩
      · exact ⟨directions, by rw [none, List.nil_append]⟩
      · exact ⟨direction :: directions, by rw [pair, List.flatMap_cons]⟩

theorem getLast?_flatMap_drivePower {directions : List Direction} (some : directions ≠ []) :
    (directions.flatMap context.drivePower).getLast? =
      .some (context.driveChannel, Binary64.zero) := by
  rcases List.eq_nil_or_concat directions with rfl | ⟨others, last, rfl⟩
  · exact absurd rfl some
  · simp [drivePower]

theorem poll_of_runs_visit {step : ActionStep} {before : Progress} {events : List Event}
    {ending : Outcome RunError (Option (List ActionStep)) × Progress}
    (visited : Runs (context.visit configuration step before) events ending) :
    ∃ live rest, events = ⟨.robot .isActive, live⟩ :: rest := by
  obtain ⟨live, rest, rfl, _⟩ := Program.runs_call_iff.mp visited
  exact ⟨live, rest, rfl⟩

theorem poll_of_visits {before : Progress} {steps : List ActionStep} {visits : List Visit}
    {ending : Outcome RunError Flow × Progress}
    (made : Visits context configuration before steps visits ending) :
    ∀ visit ∈ visits, ∃ live rest, visit.events = ⟨.robot .isActive, live⟩ :: rest := by
  refine made.forall_visit ?_
  intro _ _ _ _ _ runs _
  exact poll_of_runs_visit runs

/-- A run is opened, makes its visits and is closed, and only the visits command power. -/
theorem exists_visits_of_run {before after : Progress} {events : List Event}
    {outcome : Outcome RunError RunReport}
    (runs : Runs (context.run configuration before) events (outcome, after))
    (ended : outcome ≠ .waiting) :
    ∃ opened visits closing, events = opened ++ (eventsOf visits ++ closing) ∧
      powerCommands opened = [] ∧ powerCommands closing = [] ∧
      (visits = [] ∨ ∃ ending, Visits context configuration (inState .running before)
        configuration.actions visits ending) ∧
      ∀ visit ∈ visits, context.PairsPower visit ∧
        ∃ live rest, visit.events = ⟨.robot .isActive, live⟩ :: rest := by
  rcases visits_run_cases runs ended with
    ⟨rfl, _⟩ | ⟨visits, closing, stop, middle, rfl, made, stopped, concludes⟩
  · exact ⟨_, [], [], (List.append_nil _).symm, rfl, rfl, .inl rfl, by simp⟩
  · have pairs := pairsPower_of_visits made stopped
    refine ⟨opening context ++ [⟨.robot .isActive, true⟩], visits, closing, by simp, rfl,
      powerCommands_concludes concludes, .inr ⟨_, made⟩, ?_⟩
    intro visit member
    exact ⟨pairs visit member, poll_of_visits made visit member⟩

theorem exists_directions_of_run {before after : Progress} {events : List Event}
    {outcome : Outcome RunError RunReport}
    (runs : Runs (context.run configuration before) events (outcome, after))
    (ended : outcome ≠ .waiting) :
    ∃ directions : List Direction,
      powerCommands events = directions.flatMap context.drivePower := by
  obtain ⟨opened, visits, closing, rfl, noneOpened, noneClosing, _, each⟩ :=
    exists_visits_of_run runs ended
  obtain ⟨directions, same⟩ := powerCommands_eventsOf fun visit member => (each visit member).1
  refine ⟨directions, ?_⟩
  rw [powerCommands_append, powerCommands_append, noneOpened, noneClosing, same, List.nil_append,
    List.append_nil]

/-- The power commands of a run are pairs, the power of a drive and then zero. -/
structure PairedPower (context : DispatchContext) (configuration : Configuration)
    (before : Progress) (events : List Event) : Prop where
  /-- Each pair belongs to the visit of its drive, and every visit begins with a poll. -/
  visits : ∃ opened visits closing, events = opened ++ (eventsOf visits ++ closing) ∧
    powerCommands opened = [] ∧ powerCommands closing = [] ∧
    (visits = [] ∨ ∃ ending, Visits context configuration (inState .running before)
      configuration.actions visits ending) ∧
    ∀ visit ∈ visits, context.PairsPower visit ∧
      ∃ live rest, visit.events = ⟨.robot .isActive, live⟩ :: rest
  pairs : ∃ directions : List Direction,
    powerCommands events = directions.flatMap context.drivePower
  last : powerCommands events ≠ [] →
    (powerCommands events).getLast? = some (context.driveChannel, Binary64.zero)

/-- In every run that is not left waiting, also one that unwinds, the motor is let go of. -/
theorem run_pairs_power {before after : Progress} {events : List Event}
    {outcome : Outcome RunError RunReport}
    (runs : Runs (context.run configuration before) events (outcome, after))
    (ended : outcome ≠ .waiting) : context.PairedPower configuration before events where
  visits := exists_visits_of_run runs ended
  pairs := exists_directions_of_run runs ended
  last := by
    obtain ⟨directions, whole⟩ := exists_directions_of_run runs ended
    rw [whole]
    intro commanded
    exact getLast?_flatMap_drivePower (by rintro rfl; exact commanded rfl)

/-- A world in which the sensor crashes whenever it is read, so that a drive unwinds. -/
def crashingSensor : (request : Call) → Duration → request.Reply × Duration
  | .robot (.readSensor _), clock => (.crashed .mute, clock)
  | request, clock => obliging .left request clock

def sampleDrive : Configuration where
  loggingThreshold := none
  regionOfInterest := .empty
  tagsOfInterest := []
  startingPose := none
  actions := [⟨"forward_by_time", []⟩]
  branchTable := none

theorem run_pairs_power_of_crash :
    ∃ events outcome after,
      Runs (sampleContext.run sampleDrive .fresh) events (outcome, after) ∧ outcome ≠ .waiting ∧
        (powerCommands events).getLast? = some (⟨0⟩, Binary64.zero) := by
  have runs := Program.runs_exec crashingSensor (sampleContext.run sampleDrive .fresh) .zero
  let final := (sampleContext.run sampleDrive .fresh).exec crashingSensor .zero
  have ended : final.1.1 ≠ .waiting := by
    intro same
    have settled : (match final.1.1 with
        | .waiting => false
        | _ => true) = true := by decide +kernel
    rw [same] at settled
    cases settled
  have paired := run_pairs_power runs ended
  exact ⟨_, _, _, runs, ended, paired.last (by decide +kernel)⟩

end DispatchContext

end RobotRoutine
