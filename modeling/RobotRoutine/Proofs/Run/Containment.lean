import RobotRoutine.Proofs.Files.RunLog
import RobotRoutine.Proofs.Run.Protocol

/-!
What the containment shows, asks and leaves in the log.

The protocol of the containment is read by those who see a part of it.  The robot is called for the
turns of a hold and for the flush; the polls of the stop request end with the first that finds it;
the host finds its log closed, with a line for the fault as the last one.
-/

namespace RobotRoutine

open Program (Runs Event)

def robotCall? : Event → Option RobotCall
  | ⟨.robot call, _⟩ => some call
  | _ => none

def stopPoll? : Event → Option Bool
  | ⟨.robot .isStopRequested, stop⟩ => some stop
  | _ => none

namespace ContainmentContext

variable {context : ContainmentContext} {stop : Outcome Failure Unit} {after : List Event}
  {outcome : Outcome Empty Containment} {placard : Placard}

theorem filterMap_turns {α : Type} {read : Event → Option α} {found : List α}
    (each : ∀ answer, (context.turn placard answer false).filterMap read = found)
    (before : List (Answer Unit)) :
    (context.turns placard before).filterMap read =
      (List.replicate before.length found).flatten := by
  induction before with
  | nil => rfl
  | cons answer before inductionHypothesis =>
      rw [turns_cons, List.filterMap_append, inductionHypothesis, each]
      rfl

theorem robotCalls_turns (before : List (Answer Unit)) :
    (context.turns placard before).filterMap robotCall? =
      (List.replicate before.length placard.turnCalls).flatten :=
  filterMap_turns (fun _ => rfl) before

theorem stopPolls_turns (before : List (Answer Unit)) :
    (context.turns placard before).filterMap stopPoll? = List.replicate before.length false := by
  rw [filterMap_turns (fun _ => rfl) before]
  exact List.flatten_replicate_singleton

theorem leavesHost_turn {answer : Answer Unit} {stop : Bool} :
    ∀ event ∈ context.turn placard answer stop, Host.LeavesHost event.request := by
  simp [turn, Host.LeavesHost]

theorem log_of_closing {host last : Host} {flushed : Answer Unit}
    (follows : Host.Follows host (closing flushed) last) :
    last.log = (host.log.close host.files).2.1 ∧
      last.files = (host.log.close host.files).2.2 := by
  cases follows with
  | host follows =>
      cases follows with
      | robot follows =>
          cases follows
          exact ⟨rfl, rfl⟩

/-- The record of a held fault is the last thing that the log takes before it is closed. -/
theorem file_of_held {host last : Host} {before : List (Answer Unit)} {answer flushed : Answer Unit}
    {location : Location} {taken : ByteArray} (holds : host.log.Holds host.files location taken)
    (follows : Host.Follows host (placard.recorded ::
      (context.turns placard before ++ context.turn placard answer true ++ closing flushed)) last) :
    ∃ elapsed, FileSystem.entry? last.files location =
      some (.file (taken ++
        (RunLog.line elapsed .error placard.recordTag placard.recordText ++ "\n").toUTF8)) := by
  obtain ⟨middle, elapsed, recorded, followsRest⟩ := follows.record_error holds
  obtain ⟨shown, followsTurns, followsClosing⟩ := followsRest.split
  obtain ⟨log, files⟩ := followsTurns.log_eq <| by
    rw [List.forall_mem_append]
    exact ⟨forall_turns fun _ _ => leavesHost_turn, leavesHost_turn⟩
  rw [← log, ← files] at recorded
  rw [(log_of_closing followsClosing).2]
  exact ⟨elapsed, recorded.close⟩

/-- What a run gives after a body that ended in a certain way, as its collaborators and the host see
it. -/
structure Contained (context : ContainmentContext) (stop : Outcome Failure Unit)
    (after : List Event) (outcome : Outcome Empty Containment) : Prop where
  completed : outcome = .value .completed ↔ stop = .value ()
  cancelled : outcome = .value .cancelled ↔
    ∃ failure, stop.failure? = some failure ∧ failure.fault = .cancellation
  /-- A cancelled run shows nothing and does not look at the stop request. -/
  undisturbed : outcome = .value .cancelled → after.filterMap robotCall? = [.flushDisplay]
  /-- Any other fault is shown until the stop request is seen, or as long as there is patience. -/
  held : ∀ failure placard, stop.failure? = some failure →
    context.placard? failure.fault = some placard →
    (∃ polls, polls < context.patience ∧
      outcome = .value (.held failure.fault (polls + 1)) ∧
      after.filterMap stopPoll? = List.replicate polls false ++ [true] ∧
      after.filterMap robotCall? =
        (List.replicate (polls + 1) placard.turnCalls).flatten ++ [.flushDisplay]) ∨
    outcome = .waiting ∧ after.filterMap stopPoll? = List.replicate context.patience false
  finished : ∀ containment, outcome = .value containment →
    ∃ before flushed, after = before ++ closing flushed ∧
      ∀ event ∈ before, KeepsOpen event.request
  closed : ∀ containment host last, outcome = .value containment →
    Host.Follows host after last → last.log.writer = none
  /-- If the body left the log open, its file ends with one line for the fault. -/
  logged : ∀ failure placard containment host last location taken,
    stop.failure? = some failure → context.placard? failure.fault = some placard →
    outcome = .value containment → host.log.Holds host.files location taken →
    Host.Follows host after last →
    ∃ elapsed, FileSystem.entry? last.files location =
      some (.file (taken ++
        (RunLog.line elapsed .error placard.recordTag placard.recordText ++ "\n").toUTF8))

theorem writer_of_closing {host last : Host} {before : List Event} {flushed : Answer Unit}
    (follows : Host.Follows host (before ++ closing flushed) last) : last.log.writer = none := by
  obtain ⟨middle, _, followsClosing⟩ := follows.split
  rw [(log_of_closing followsClosing).1]
  exact RunLog.writer_close _ _

theorem cancelled_iff_of_aftermath {failure : Failure}
    (aftermath : context.Aftermath failure after outcome) :
    outcome = .value .cancelled ↔ failure.fault = .cancellation := by
  cases aftermath with
  | cancelled cancelled => simpa using cancelled
  | held shown => simpa using ne_cancellation_of_placard? shown
  | holding shown => simpa using ne_cancellation_of_placard? shown

theorem stopPolls_held {before : List (Answer Unit)} {answer flushed : Answer Unit} :
    (placard.recorded ::
      (context.turns placard before ++ context.turn placard answer true ++
        closing flushed)).filterMap stopPoll? = List.replicate before.length false ++ [true] := by
  change List.filterMap stopPoll? (_ ++ _ ++ _) = _
  rw [List.append_assoc, List.filterMap_append, stopPolls_turns]
  rfl

theorem robotCalls_held {before : List (Answer Unit)} {answer flushed : Answer Unit} :
    (placard.recorded ::
      (context.turns placard before ++ context.turn placard answer true ++
        closing flushed)).filterMap robotCall? =
      (List.replicate (before.length + 1) placard.turnCalls).flatten ++ [.flushDisplay] := by
  change List.filterMap robotCall? (_ ++ _ ++ _) = _
  rw [List.filterMap_append, List.filterMap_append, robotCalls_turns, List.replicate_succ',
    List.flatten_concat]
  rfl

theorem contained_of_protocol (protocol : context.Protocol stop after outcome) :
    context.Contained stop after outcome where
  completed := by
    cases protocol with
    | completed => simp
    | failed failed aftermath =>
        have ended : stop ≠ .value () := by
          rintro rfl
          cases failed
        cases aftermath <;> simp [ended]
    | _ => simp
  cancelled := by
    cases protocol with
    | failed failed aftermath => simp [failed, cancelled_iff_of_aftermath aftermath]
    | _ => simp [Outcome.failure?]
  undisturbed := by
    rintro rfl
    cases protocol with
    | failed _ aftermath =>
        cases aftermath
        rfl
  held := by
    intro failure placard failed shown
    have aftermath := (protocol_iff_of_failure? failed).mp protocol
    rcases (aftermath_iff_of_placard? shown).mp aftermath with
      ⟨before, answer, flushed, short, rfl, rfl⟩ | ⟨before, long, rfl, rfl⟩
    · exact .inl ⟨before.length, short, rfl, stopPolls_held, robotCalls_held⟩
    · refine .inr ⟨rfl, ?_⟩
      rw [← long]
      exact stopPolls_turns before
  finished := by
    rintro containment rfl
    exact exists_closing_of_protocol protocol
  closed := by
    rintro containment host last rfl follows
    obtain ⟨before, flushed, rfl, _⟩ := exists_closing_of_protocol protocol
    exact writer_of_closing follows
  logged := by
    rintro failure placard containment host last location taken failed shown rfl holds follows
    have aftermath := (protocol_iff_of_failure? failed).mp protocol
    rcases (aftermath_iff_of_placard? shown).mp aftermath with
      ⟨before, answer, flushed, _, rfl, _⟩ | ⟨_, _, _, impossible⟩
    · exact file_of_held holds follows
    · cases impossible

/-- Turns with replies given in advance, of which the last one finds the stop request. -/
theorem flatMap_turn {stops : Nat → Bool} {refreshed : Nat → Answer Unit} {polls : Nat}
    (unheard : ∀ n < polls, stops n = false) (heard : stops polls = true) :
    ((List.range (polls + 1)).flatMap fun n => context.turn placard (refreshed n) (stops n)) =
      context.turns placard ((List.range polls).map refreshed) ++
        context.turn placard (refreshed polls) true := by
  rw [List.range_succ, List.flatMap_append, turns, List.flatMap_map, List.flatMap_singleton, heard]
  congr 1
  rw [List.flatMap_def, List.flatMap_def, List.map_congr_left]
  intro n member
  rw [unheard n (List.mem_range.mp member)]

theorem calm_turn {answer : Answer Unit} {stop : Bool} (calm : answer.IsCalm) :
    ∀ event ∈ context.turn placard answer stop, Calm event.request event.reply := by
  simp only [turn, List.forall_mem_cons]
  exact ⟨rfl, calm, rfl, trivial, trivial, by simp⟩

/-- A scripted hold is calm as far as the answers of the display are. -/
theorem calm_of_held {before : List (Answer Unit)} {answer flushed : Answer Unit}
    (calm : ∀ answer ∈ before, answer.IsCalm) (calmLast : answer.IsCalm)
    (calmFlush : flushed.IsCalm) :
    ∀ event ∈ placard.recorded ::
      (context.turns placard before ++ context.turn placard answer true ++ closing flushed),
      Calm event.request event.reply := by
  rw [List.forall_mem_cons, List.forall_mem_append, List.forall_mem_append]
  refine ⟨trivial, ⟨?_, calm_turn calmLast⟩, ?_⟩
  · exact forall_turns fun other given => calm_turn (calm other given)
  · simp only [closing, List.forall_mem_cons]
    exact ⟨trivial, calmFlush, by simp⟩

theorem aftermath_of_turns {failure : Failure} {before : List (Answer Unit)} {polls : Nat}
    (answer flushed : Answer Unit) (shown : context.placard? failure.fault = some placard)
    (length : before.length = polls) (short : polls < context.patience) :
    context.Aftermath failure
      (placard.recorded ::
        (context.turns placard before ++ context.turn placard answer true ++ closing flushed))
      (.value (.held failure.fault (polls + 1))) := by
  subst length
  exact .held shown short

/-- A body that ended in a certain way is contained. -/
structure Contains (context : ContainmentContext) (body : Task Failure Unit) (first : List Event)
    (stop : Outcome Failure Unit) : Prop where
  protocol : ∀ after outcome, (∀ event ∈ after, Calm event.request event.reply) →
    (Runs (context.guard body) (first ++ after) outcome ↔ context.Protocol stop after outcome)
  contained : ∀ after outcome, (∀ event ∈ after, Calm event.request event.reply) →
    Runs (context.guard body) (first ++ after) outcome → context.Contained stop after outcome
  /-- Whatever the replies are, the hold ends with the first look that finds the stop request. -/
  released : ∀ failure placard (stops : Nat → Bool) (refreshed : Nat → Answer Unit) flushed polls,
    stop.failure? = some failure → context.placard? failure.fault = some placard →
    (∀ n, (refreshed n).IsCalm) → flushed.IsCalm →
    (∀ n < polls, stops n = false) → stops polls = true → polls < context.patience →
    Runs (context.guard body)
      (first ++ placard.recorded ::
        (((List.range (polls + 1)).flatMap fun n => context.turn placard (refreshed n) (stops n)) ++
          closing flushed))
      (.value (.held failure.fault (polls + 1)))
  crashed : ∀ c failure, stop = .crash c → stop.failure? = some failure →
    failure.fault = .unclassified s!"panic: {c.message}"

theorem guard_contains {body : Task Failure Unit} {first : List Event}
    (ends : Runs body first stop) :
    context.Contains body first stop := by
  have protocol : ∀ after outcome, (∀ event ∈ after, Calm event.request event.reply) →
      (Runs (context.guard body) (first ++ after) outcome ↔
        context.Protocol stop after outcome) := by
    intro after outcome calm
    exact (Program.runs_bind_iff ends).trans (runs_contain_iff calm)
  refine { protocol, contained := ?_, released := ?_, crashed := ?_ }
  · intro after outcome calm runs
    exact contained_of_protocol ((protocol after outcome calm).mp runs)
  · intro failure placard stops refreshed flushed polls failed shown calm calmFlush
      unheard heard short
    rw [flatMap_turn unheard heard]
    have length : ((List.range polls).map refreshed).length = polls := by simp
    have held := aftermath_of_turns (refreshed polls) flushed shown length short
    refine (protocol _ _ (calm_of_held ?_ (calm polls) calmFlush)).mpr (.failed failed held)
    intro answer member
    obtain ⟨n, _, rfl⟩ := List.mem_map.mp member
    exact calm n
  · rintro c failure rfl failed
    cases failed
    rfl

/-- A body that crashed is held for two turns, the display failing in the first, until the stop. -/
theorem guard_contains_crash :
    Runs (ContainmentContext.guard ⟨"TEST", .zero, 5⟩ (Task.crash (.text "odd")))
      [⟨.host (.record .error "TEST" "Unexpected failure: panic: odd"), ()⟩,
        ⟨.robot (.addItem "TEST fatal Exception" "panic: odd"), Receipt.returned⟩,
        ⟨.robot .refresh, Answer.failed (.plain "no display")⟩,
        ⟨.robot .clearItems, Receipt.returned⟩,
        ⟨.host (.pause .zero), ()⟩,
        ⟨.robot .isStopRequested, false⟩,
        ⟨.robot (.addItem "TEST fatal Exception" "panic: odd"), Receipt.returned⟩,
        ⟨.robot .refresh, Answer.ok ()⟩,
        ⟨.robot .clearItems, Receipt.returned⟩,
        ⟨.host (.pause .zero), ()⟩,
        ⟨.robot .isStopRequested, true⟩,
        ⟨.host .closeLog, ()⟩,
        ⟨.robot .flushDisplay, Answer.ok ()⟩]
      (.value (.held (.unclassified "panic: odd") 2)) := by
  have contains : ContainmentContext.Contains ⟨"TEST", .zero, 5⟩ (Task.crash (.text "odd")) []
      (.crash (.text "odd")) := guard_contains .done
  refine contains.released (Crash.failure (.text "odd")) _ (fun n => n == 1)
    (fun n => if n = 0 then .failed (.plain "no display") else .ok ()) (.ok ()) 1 rfl rfl ?_
    trivial (by decide) rfl (by decide)
  intro n
  cases n <;> trivial

end ContainmentContext

end RobotRoutine
