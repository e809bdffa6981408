import Mathlib.Data.List.DropRight
import Mathlib.Data.List.Infix
import RobotRoutine.Proofs.Program.Frames
import RobotRoutine.Simulation.Robot

/-!
Histories of a display.

What a display lists is read off the calls alone: the items added since the last clearing.  A
refresh hands these items over from the first piece of the first line on, whatever became of the
refreshes before it, and ends at the first piece that is rejected.
-/

namespace RobotRoutine

namespace Outlet

variable {σ : Type} [Outlet σ] {outlet middle last : σ} {text : String} {texts rest : List String}
  {cause : Failure}

/-- The outlet takes all the texts, one after the other. -/
inductive Takes : σ → List String → σ → Prop
  | nil (outlet : σ) : Takes outlet [] outlet
  | cons {outlet middle last : σ} {text : String} {rest : List String} :
      write outlet text = (.ok (), middle) → Takes middle rest last →
        Takes outlet (text :: rest) last

/-- The outlet takes the texts of a list and rejects the one that comes next. -/
def Rejects (outlet : σ) (taken : List String) (text : String) (cause : Failure) (last : σ) :
    Prop :=
  ∃ middle, Takes outlet taken middle ∧ write middle text = (.error cause, last)

/-- What is read off an outlet: each text it takes comes to the end, and flushing adds nothing. -/
structure Records (view : σ → String) : Prop where
  write {outlet next : σ} {text : String} :
    Outlet.write outlet text = (.ok (), next) → view next = view outlet ++ text
  flush (outlet : σ) : view (Outlet.flush outlet).2 = view outlet

/-- Outlets that take whatever they are given, and stay so. -/
structure Unfailing (sound : σ → Prop) : Prop where
  write {outlet : σ} (text : String) :
    sound outlet → ∃ next, Outlet.write outlet text = (.ok (), next) ∧ sound next
  flush {outlet : σ} : sound outlet → sound (Outlet.flush outlet).2

@[simp]
theorem takes_nil_iff : Takes outlet [] last ↔ last = outlet := by
  constructor
  · intro takes
    cases takes
    rfl
  · rintro rfl
    exact .nil _

@[simp]
theorem takes_cons_iff :
    Takes outlet (text :: rest) last ↔
      ∃ middle, write outlet text = (.ok (), middle) ∧ Takes middle rest last := by
  constructor
  · intro takes
    cases takes with
    | cons written takes => exact ⟨_, written, takes⟩
  · rintro ⟨middle, written, takes⟩
    exact .cons written takes

theorem writeAll_eq_ok_iff : writeAll outlet texts = (.ok (), last) ↔ Takes outlet texts last := by
  induction texts generalizing outlet with
  | nil => simp [writeAll, eq_comm]
  | cons text rest inductionHypothesis =>
      rw [takes_cons_iff, writeAll]
      split
      case h_1 written => simp [written, inductionHypothesis]
      case h_2 written => simp [written]

/-- A piece in the middle of the list ends the writing; the pieces behind it are not handed over. -/
theorem writeAll_eq_error_iff :
    writeAll outlet texts = (.error cause, last) ↔
      ∃ taken text rest, texts = taken ++ text :: rest ∧ Rejects outlet taken text cause last := by
  induction texts generalizing outlet with
  | nil => simp [writeAll]
  | cons text rest inductionHypothesis =>
      rw [writeAll]
      split
      case h_1 next written =>
        rw [inductionHypothesis]
        constructor
        · rintro ⟨taken, rejected, later, rfl, middle, takes, writtenNext⟩
          exact ⟨text :: taken, rejected, later, rfl, middle, .cons written takes, writtenNext⟩
        · rintro ⟨taken, rejected, later, same, middle, takes, writtenNext⟩
          cases takes with
          | nil =>
              cases same
              rw [written] at writtenNext
              cases writtenNext
          | cons writtenFirst takes =>
              cases same
              rw [written] at writtenFirst
              cases writtenFirst
              exact ⟨_, rejected, later, rfl, middle, takes, writtenNext⟩
      case h_2 failure next written =>
        constructor
        · intro same
          cases same
          exact ⟨[], text, rest, rfl, outlet, .nil _, written⟩
        · rintro ⟨taken, rejected, later, same, middle, takes, writtenNext⟩
          cases takes with
          | nil =>
              cases same
              rw [← written, writtenNext]
          | cons writtenFirst takes =>
              cases same
              rw [written] at writtenFirst
              cases writtenFirst

theorem writeAll_append (texts rest : List String) :
    writeAll outlet (texts ++ rest) =
      match writeAll outlet texts with
      | (.ok _, outlet) => writeAll outlet rest
      | (.error failure, outlet) => (.error failure, outlet) := by
  induction texts generalizing outlet with
  | nil => rfl
  | cons text texts inductionHypothesis =>
      simp only [List.cons_append, writeAll]
      split <;> simp [inductionHypothesis]

theorem Records.view_of_takes {view : σ → String} (records : Records view)
    (takes : Takes outlet texts last) : view last = view outlet ++ String.join texts := by
  induction takes with
  | nil outlet => simp
  | cons written takes inductionHypothesis =>
      rw [inductionHypothesis, records.write written, String.join_cons, String.append_assoc]

theorem Unfailing.exists_takes {sound : σ → Prop} (unfailing : Unfailing sound)
    (started : sound outlet) (texts : List String) :
    ∃ last, Takes outlet texts last ∧ sound last := by
  induction texts generalizing outlet with
  | nil => exact ⟨outlet, .nil _, started⟩
  | cons text rest inductionHypothesis =>
      obtain ⟨middle, written, goesOn⟩ := unfailing.write text started
      obtain ⟨last, takes, ends⟩ := inductionHypothesis goesOn
      exact ⟨last, .cons written takes, ends⟩

end Outlet

theorem Sink.unfailing_unlimited : Outlet.Unfailing fun sink : Sink => sink.room = none where
  write {sink} text unlimited := by
    refine ⟨{ sink with pieces := text :: sink.pieces }, ?_, unlimited⟩
    change sink.write text = _
    simp [Sink.write, unlimited]
  flush unlimited := unlimited

theorem Sink.records_written : Outlet.Records Sink.written where
  write {outlet next text} written := by
    change outlet.write text = _ at written
    unfold Sink.write at written
    split at written
    · cases written
      simp [Sink.written]
    · split at written
      · cases written
        simp [Sink.written]
      · cases written
  flush _ := rfl

namespace DisplayCall

def item? : DisplayCall → Option (String × String)
  | .addItem caption value => some (caption, value)
  | _ => none

def request : DisplayCall → RobotCall
  | .addItem caption value => .addItem caption value
  | .refresh => .refresh
  | .clearItems => .clearItems
  | .flushDisplay => .flushDisplay

/-- The items added since the last clearing, in the order in which they were added. -/
def addedSinceClear (calls : List DisplayCall) : List (String × String) :=
  (calls.rtakeWhile (· ≠ .clearItems)).filterMap item?

/-- For each refresh among the calls, the items added before it since the last clearing. -/
def frames (calls : List DisplayCall) : List (List (String × String)) :=
  (calls.inits.filter (·.getLast? = some .refresh)).map addedSinceClear

variable {calls : List DisplayCall} {call : DisplayCall}

@[simp]
theorem addedSinceClear_concat_clear : addedSinceClear (calls ++ [.clearItems]) = [] := by
  simp [addedSinceClear]

theorem addedSinceClear_concat (keeps : call ≠ .clearItems) :
    addedSinceClear (calls ++ [call]) = addedSinceClear calls ++ call.item?.toList := by
  cases item : call.item? <;> simp [addedSinceClear, keeps, item]

@[simp]
theorem frames_nil : frames [] = [] := rfl

theorem frames_concat (calls : List DisplayCall) (call : DisplayCall) :
    frames (calls ++ [call]) =
      frames calls ++ if call = .refresh then [addedSinceClear calls] else [] := by
  by_cases shows : call = .refresh
  · subst shows
    simp [frames, List.inits_append, addedSinceClear_concat, item?]
  · simp [frames, List.inits_append, shows]

end DisplayCall

namespace ConsoleDisplay

open DisplayCall Outlet

variable {σ : Type} [Outlet σ] {outlet last : σ} {items : List (String × String)}
  {calls : List DisplayCall} {failure : Failure}

def line (item : String × String) : String := item.1 ++ ": " ++ item.2 ++ "\n"

def pieces (items : List (String × String)) : List String :=
  items.flatMap fun (caption, value) => linePieces caption value

theorem join_pieces (items : List (String × String)) :
    String.join (pieces items) = String.join (items.map line) := by
  induction items with
  | nil => rfl
  | cons item rest inductionHypothesis =>
      simp [pieces, linePieces, line, String.append_assoc] at inductionHypothesis ⊢
      exact inductionHypothesis

/-- A refresh is one writing of all its pieces. -/
theorem writeItems_eq (outlet : σ) (items : List (String × String)) :
    writeItems outlet items =
      (writeAll outlet (pieces items)).map (·.mapError (.context "write telemetry" ·)) id := by
  induction items generalizing outlet with
  | nil => rfl
  | cons item rest inductionHypothesis =>
      change _ = (writeAll outlet (linePieces item.1 item.2 ++ pieces rest)).map _ _
      rw [writeAll_append, writeItems]
      rcases writeAll outlet (linePieces item.1 item.2) with ⟨failure | _, next⟩
      · rfl
      · exact inductionHypothesis next

theorem writeItems_eq_ok_iff :
    writeItems outlet items = (.ok (), last) ↔ Takes outlet (pieces items) last := by
  rw [writeItems_eq, ← writeAll_eq_ok_iff]
  rcases writeAll outlet (pieces items) with ⟨_ | _, next⟩ <;> simp [Except.mapError]

/-- A text among the pieces belongs to the line of one item. -/
theorem pieces_eq_append_cons_iff {taken rest : List String} {text : String} :
    pieces items = taken ++ text :: rest ↔
      ∃ earlier item later before after,
        items = earlier ++ item :: later ∧
          linePieces item.1 item.2 = before ++ text :: after ∧
          taken = pieces earlier ++ before ∧ rest = after ++ pieces later := by
  constructor
  · intro split
    induction items generalizing taken with
    | nil => simp [pieces] at split
    | cons item items inductionHypothesis =>
        change linePieces item.1 item.2 ++ pieces items = _ at split
        rcases List.append_eq_append_iff.mp split with ⟨before, rfl, inside⟩ | ⟨after, line, inside⟩
        · obtain ⟨earlier, other, later, front, back, rfl, line, rfl, rfl⟩ :=
            inductionHypothesis inside
          exact ⟨item :: earlier, other, later, front, back, rfl, line, by simp [pieces], rfl⟩
        · cases after with
          | nil =>
              have atFront : pieces items = [] ++ text :: rest := inside.symm
              obtain ⟨earlier, other, later, front, back, rfl, lineOther, same, rfl⟩ :=
                inductionHypothesis atFront
              obtain ⟨nothing, rfl⟩ := List.nil_eq_append_iff.mp same
              refine ⟨item :: earlier, other, later, [], back, rfl, lineOther, ?_, rfl⟩
              change taken = linePieces item.1 item.2 ++ pieces earlier ++ []
              rw [nothing, line, List.append_nil, List.append_nil, List.append_nil]
          | cons first after =>
              cases inside
              exact ⟨[], item, items, taken, after, rfl, line, rfl, rfl⟩
  · rintro ⟨earlier, item, later, before, after, rfl, line, rfl, rfl⟩
    simp [pieces, line]

/-- A refresh fails at a piece of one of its items: the items before it have been taken and so have
the pieces in front of it, and nothing that comes after it is handed over. -/
theorem writeItems_eq_error_iff :
    writeItems outlet items = (.error failure, last) ↔
      ∃ earlier item later taken text rest cause,
        items = earlier ++ item :: later ∧
          linePieces item.1 item.2 = taken ++ text :: rest ∧
          Rejects outlet (pieces earlier ++ taken) text cause last ∧
          failure = .context "write telemetry" cause := by
  rw [writeItems_eq]
  constructor
  · intro failed
    rcases same : writeAll outlet (pieces items) with ⟨cause | _, next⟩ <;>
      simp only [same, Prod.map, Except.mapError, Prod.mk.injEq, reduceCtorEq, false_and,
        Except.error.injEq, id] at failed
    obtain ⟨rfl, rfl⟩ := failed
    obtain ⟨taken, text, rest, split, rejects⟩ := writeAll_eq_error_iff.mp same
    obtain ⟨earlier, item, later, before, after, rfl, line, rfl, -⟩ :=
      pieces_eq_append_cons_iff.mp split
    exact ⟨earlier, item, later, before, text, after, cause, rfl, line, rejects, rfl⟩
  · rintro ⟨earlier, item, later, taken, text, rest, cause, rfl, line, rejects, rfl⟩
    have split := pieces_eq_append_cons_iff.mpr
      ⟨earlier, item, later, taken, rest, rfl, line, rfl, rfl⟩
    rw [writeAll_eq_error_iff.mpr ⟨_, text, _, split, rejects⟩]
    rfl

example :
    writeItems (⟨[], some 7, false⟩ : Sink) [("lift", "up"), ("arm", "out")] =
      (.error (.context "write telemetry" (.plain "sink full")),
        ⟨[": ", "lift"], some 1, false⟩) := by
  cbv

/-- The display and its outlet after some calls, from an empty display. -/
def after (outlet : σ) (calls : List DisplayCall) : ConsoleDisplay × σ :=
  calls.foldl (fun state call => (answer state.1 state.2 call).2) (empty, outlet)

@[simp]
theorem after_concat (outlet : σ) (calls : List DisplayCall) (call : DisplayCall) :
    after outlet (calls ++ [call]) =
      (answer (after outlet calls).1 (after outlet calls).2 call).2 := by
  simp [after]

theorem answer_refresh (display : ConsoleDisplay) (outlet : σ) :
    answer display outlet .refresh =
      ((writeItems outlet display.items).1, display, (writeItems outlet display.items).2) := rfl

/-- No outcome of a call, whatever it is, changes the list otherwise than by the call itself. -/
theorem items_answer (display : ConsoleDisplay) (outlet : σ) (call : DisplayCall) :
    (answer display outlet call).2.1.items =
      if call = .clearItems then [] else display.items ++ call.item?.toList := by
  cases call <;> simp [answer, add, empty, item?]

theorem items_after (outlet : σ) (calls : List DisplayCall) :
    (after outlet calls).1.items = addedSinceClear calls := by
  induction calls using List.reverseRecOn with
  | nil => rfl
  | append_singleton calls call inductionHypothesis =>
      rw [after_concat, items_answer, inductionHypothesis]
      split
      case isTrue clears => simp [clears]
      case isFalse keeps => exact (addedSinceClear_concat keeps).symm

/-- What one call that does not fail adds to what is written. -/
theorem view_answer {view : σ → String} (records : Records view) (display : ConsoleDisplay)
    (outlet : σ) (call : DisplayCall)
    (succeeds : call = .refresh → (answer display outlet call).1 = .ok ()) :
    view (answer display outlet call).2.2 =
      view outlet ++ if call = .refresh then String.join (display.items.map line) else "" := by
  cases call with
  | addItem caption value => simp [answer]
  | clearItems => simp [answer]
  | flushDisplay => simpa [answer] using records.flush outlet
  | refresh =>
      have written : writeItems outlet display.items =
          (.ok (), (writeItems outlet display.items).2) := Prod.ext (succeeds rfl) rfl
      rw [answer_refresh, records.view_of_takes (writeItems_eq_ok_iff.mp written), join_pieces]
      simp

/-- What has been written is the blocks of lines of all the refreshes, in their order. -/
theorem view_after {view : σ → String} (records : Records view)
    (succeed : ∀ before later, calls = before ++ .refresh :: later →
      (answer (after outlet before).1 (after outlet before).2 .refresh).1 = .ok ()) :
    view (after outlet calls).2 = view outlet ++ String.join ((frames calls).flatten.map line) := by
  induction calls using List.reverseRecOn with
  | nil => simp [after]
  | append_singleton calls call inductionHypothesis =>
      have earlier := inductionHypothesis fun before later split =>
        succeed before (later ++ [call]) (by simp [split])
      have last : call = .refresh →
          (answer (after outlet calls).1 (after outlet calls).2 call).1 = .ok () := by
        rintro rfl
        exact succeed calls [] rfl
      rw [after_concat, view_answer records _ _ _ last, earlier, items_after, frames_concat,
        String.append_assoc]
      split <;> simp

theorem sound_after {sound : σ → Prop} (unfailing : Unfailing sound) (started : sound outlet)
    (calls : List DisplayCall) : sound (after outlet calls).2 := by
  induction calls using List.reverseRecOn with
  | nil => exact started
  | append_singleton calls call inductionHypothesis =>
      rw [after_concat]
      cases call with
      | addItem caption value => exact inductionHypothesis
      | clearItems => exact inductionHypothesis
      | flushDisplay => exact unfailing.flush inductionHypothesis
      | refresh =>
          obtain ⟨last, takes, ends⟩ :=
            unfailing.exists_takes inductionHypothesis (pieces (after outlet calls).1.items)
          rw [answer_refresh, writeItems_eq_ok_iff.mpr takes]
          exact ends

theorem succeeds_of_unfailing {sound : σ → Prop} (unfailing : Unfailing sound)
    (started : sound outlet) (display : ConsoleDisplay) :
    (answer display outlet .refresh).1 = .ok () := by
  obtain ⟨last, takes, -⟩ := unfailing.exists_takes started (pieces display.items)
  rw [answer_refresh, writeItems_eq_ok_iff.mpr takes]

/-- What an outlet in memory without a limit has taken. -/
theorem written_after (calls : List DisplayCall) :
    (after Sink.unlimited calls).2.written = String.join ((frames calls).flatten.map line) := by
  have sound : Sink.unlimited.room = none := rfl
  rw [view_after Sink.records_written]
  · exact String.empty_append
  · intro before _ _
    exact succeeds_of_unfailing Sink.unfailing_unlimited
      (sound_after Sink.unfailing_unlimited sound before) _

example :
    (after Sink.unlimited [.addItem "TEST" "Running ...", .refresh, .refresh, .clearItems,
      .refresh]).2.written = "TEST: Running ...\nTEST: Running ...\n" := by
  cbv

/-- What a display does in a history of calls, in front of an outlet that may reject anything. -/
structure Faithful (outlet : σ) (calls : List DisplayCall) : Prop where
  /-- Each call leaves the items added since the last clearing, also if it fails. -/
  items : (after outlet calls).1.items = addedSinceClear calls
  /-- An outlet that never rejects has taken a line for each item of each refresh. -/
  written {view : σ → String} {sound : σ → Prop} :
    Records view → Unfailing sound → sound outlet →
      view (after outlet calls).2 =
        view outlet ++ String.join ((frames calls).flatten.map line)
  /-- The next refresh succeeds just if the outlet takes every piece of every item. -/
  refreshed {last : σ} :
    answer (after outlet calls).1 (after outlet calls).2 .refresh =
        (.ok (), (after outlet calls).1, last) ↔
      Takes (after outlet calls).2 (pieces (addedSinceClear calls)) last
  /-- It fails just if a piece of an item is rejected, and ends there. -/
  failed {failure : Failure} {last : σ} :
    answer (after outlet calls).1 (after outlet calls).2 .refresh =
        (.error failure, (after outlet calls).1, last) ↔
      ∃ earlier item later taken text rest cause,
        addedSinceClear calls = earlier ++ item :: later ∧
          linePieces item.1 item.2 = taken ++ text :: rest ∧
          Rejects (after outlet calls).2 (pieces earlier ++ taken) text cause last ∧
          failure = .context "write telemetry" cause

theorem faithful (outlet : σ) (calls : List DisplayCall) : Faithful outlet calls where
  items := items_after outlet calls
  written := by
    intro view sound records unfailing started
    apply view_after records
    intro before _ _
    exact succeeds_of_unfailing unfailing (sound_after unfailing started before) _
  refreshed := by
    intro last
    rw [answer_refresh, items_after, ← writeItems_eq_ok_iff]
    simp [Prod.ext_iff]
  failed := by
    intro failure last
    rw [answer_refresh, items_after, ← writeItems_eq_error_iff]
    simp [Prod.ext_iff]

/-- An outlet in memory records what it takes, and without a limit it never rejects. -/
theorem faithful_unlimited :
    Records Sink.written ∧ Unfailing (fun sink : Sink => sink.room = none) ∧
      Sink.unlimited.room = none ∧
      (after Sink.unlimited
        [.addItem "TEST" "Running ...", .refresh, .clearItems, .addItem "TEST" "Done",
          .addItem "Zone" "LEFT", .refresh]).2.written =
        "TEST: Running ...\nTEST: Done\nZone: LEFT\n" := by
  refine ⟨Sink.records_written, Sink.unfailing_unlimited, rfl, ?_⟩
  have written := (faithful Sink.unlimited
    [.addItem "TEST" "Running ...", .refresh, .clearItems, .addItem "TEST" "Done",
      .addItem "Zone" "LEFT", .refresh]).written
    Sink.records_written Sink.unfailing_unlimited rfl
  rw [written]
  rfl

end ConsoleDisplay

namespace SimulatedRobot

variable (robot : SimulatedRobot) (now : Duration) (sink : Sink)

/-- The display of a simulated robot is a console display in front of the sink. -/
theorem answer_displayCall (call : DisplayCall) :
    (robot.answer now sink call.request).2 =
      ({ robot with display := (robot.display.answer sink call).2.1 },
        (robot.display.answer sink call).2.2) := by
  cases call <;> rfl

theorem display_withMotors (result : Except Failure Motors) :
    (robot.withMotors result).2.display = robot.display := by
  cases result <;> rfl

/-- It is one of the displays that a run may have. -/
theorem turns_answer (call : RobotCall) :
    Turns robot.display.items ⟨.robot call, (robot.answer now sink call).1⟩
      (if call = .refresh then [robot.display.items] else [])
      (robot.answer now sink call).2.1.display.items := by
  cases call with
  | addItem caption value => exact .added
  | refresh => exact .published
  | clearItems => exact .cleared
  | setPower channel power =>
      change Turns _ _ _ (robot.withMotors _).2.display.items
      rw [display_withMotors]
      exact .aside trivial
  | setMode channel mode =>
      change Turns _ _ _ (robot.withMotors _).2.display.items
      rw [display_withMotors]
      exact .aside trivial
  | _ => exact .aside trivial

end SimulatedRobot

end RobotRoutine
