import RobotRoutine.Proofs.Files.LogPlace

/-!
The text that a run log leaves.

Whatever is asked of a log that has just been opened, its file comes to hold one entry for each
record that was let in before the first close, in the order of the records.  One call adds at most
its own entry to the bytes that the log has taken, and behind a close nothing is added any more; so
the text of all entries stands in the file when the log is closed, or when it is dropped.
-/

namespace RobotRoutine

open FileSystem (SameBut)

/-- What may be asked of a run log. -/
inductive LogCall where
  | record (level : LogLevel) (tag text : String)
  | setThreshold (threshold : Option LogThreshold)
  | close

/-- What is left when calls have been answered: the replies, the log and the files. -/
structure LogSession where
  replies : List (Except Failure Unit)
  log : RunLog
  files : FileSystem

/-- The files when the log is gone as well. -/
def LogSession.final (ended : LogSession) : FileSystem := ended.log.drop ended.files

structure LogEntry where
  elapsed : Duration
  level : LogLevel
  tag : String
  text : String
  deriving DecidableEq

namespace LogEntry

/-- The time stamp in front of an entry. -/
def stamp (entry : LogEntry) : String := RunLog.padLeft 8 (toString entry.elapsed.millis) ++ " "

def body (entry : LogEntry) : String :=
  entry.level.label ++ " [" ++ entry.tag ++ "] " ++ entry.text

theorem line_eq (entry : LogEntry) :
    RunLog.line entry.elapsed entry.level entry.tag entry.text = entry.stamp ++ entry.body := by
  simp only [RunLog.line, stamp, body, String.append_assoc]
  rfl

def textOf (entries : List LogEntry) : String :=
  String.join (entries.map fun entry => entry.stamp ++ entry.body ++ "\n")

theorem textOf_cons (entry : LogEntry) (rest : List LogEntry) :
    textOf (entry :: rest) = entry.stamp ++ entry.body ++ "\n" ++ textOf rest := by
  rw [textOf, List.map_cons, String.join_cons, textOf]

theorem toUTF8_textOf_cons (entry : LogEntry) (rest : List LogEntry) :
    (textOf (entry :: rest)).toUTF8 =
      (RunLog.line entry.elapsed entry.level entry.tag entry.text ++ "\n").toUTF8 ++
        (textOf rest).toUTF8 := by
  rw [textOf_cons, ← line_eq]
  exact String.toByteArray_append

theorem append_toUTF8_textOf_nil (bytes : ByteArray) : bytes ++ (textOf []).toUTF8 = bytes :=
  ByteArray.append_empty

end LogEntry

open LogEntry (textOf textOf_cons)

namespace RunLog

def answer (log : RunLog) (files : FileSystem) (now : Duration) :
    LogCall → Except Failure Unit × RunLog × FileSystem
  | .record level tag text => (.ok (), log.record files now level tag text)
  | .setThreshold threshold => (.ok (), log.setThreshold threshold, files)
  | .close => log.close files

/-- Calls at their moments, one after the other. -/
def session (log : RunLog) (files : FileSystem) : List (Duration × LogCall) → LogSession
  | [] => ⟨[], log, files⟩
  | (now, call) :: rest =>
      let (reply, next, others) := log.answer files now call
      let ended := session next others rest
      { ended with replies := reply :: ended.replies }

/-- The entries that calls ask for, under a threshold, of a log that was opened at a moment. -/
def entriesOf (opened : Duration) : LogLevel → List (Duration × LogCall) → List LogEntry
  | _, [] => []
  | threshold, (now, .record level tag text) :: rest =>
      if level.rank ≤ threshold.rank then
        ⟨now - opened, level, tag, text⟩ :: entriesOf opened threshold rest
      else entriesOf opened threshold rest
  | _, (_, .setThreshold threshold) :: rest =>
      entriesOf opened (LogLevel.ofThreshold threshold) rest
  | _, (_, .close) :: _ => []

/-- Errors are let in by every threshold. -/
theorem mem_entriesOf_error {opened : Duration} {threshold : LogLevel} {moment : Duration}
    {tag text : String} {earlier later : List (Duration × LogCall)}
    (unclosed : ∀ time, (time, .close) ∉ earlier) :
    ⟨moment - opened, .error, tag, text⟩ ∈
      entriesOf opened threshold (earlier ++ (moment, .record .error tag text) :: later) := by
  induction earlier generalizing threshold with
  | nil =>
      have admitted : LogLevel.error.rank ≤ threshold.rank := Nat.zero_le _
      rw [List.nil_append, entriesOf, if_pos admitted]
      exact List.mem_cons_self
  | cons first earlier inductionHypothesis =>
      obtain ⟨time, call⟩ := first
      have unclosedToo : ∀ time, (time, .close) ∉ earlier :=
        fun time member => unclosed time (List.mem_cons_of_mem _ member)
      cases call with
      | record level tag text =>
          rw [List.cons_append, entriesOf]
          split
          · exact List.mem_cons_of_mem _ (inductionHypothesis unclosedToo)
          · exact inductionHypothesis unclosedToo
      | setThreshold threshold => exact inductionHypothesis unclosedToo
      | close => exact absurd List.mem_cons_self (unclosed time)

variable {log : RunLog} {files : FileSystem} {location : Location} {taken : ByteArray}

/-! One call. -/

theorem Holds.isFile (holds : log.Holds files location taken) {place : Location}
    (isFile : log.IsFile place) : place = location := by
  obtain ⟨writer, opened, _, atEnd, _⟩ := holds
  obtain ⟨other, openedToo, rfl⟩ := isFile
  obtain rfl : writer = other := Option.some.inj (opened.symm.trans openedToo)
  rw [atEnd.place]

theorem fields_record (log : RunLog) (files : FileSystem) (now : Duration) (level : LogLevel)
    (tag text : String) :
    (log.record files now level tag text).1.opened = log.opened ∧
      (log.record files now level tag text).1.threshold = log.threshold := by
  unfold record
  split
  · dsimp only
    split <;> exact ⟨rfl, rfl⟩
  · exact ⟨rfl, rfl⟩

theorem record_of_not_admits {level : LogLevel} (refused : log.admits level = false)
    (files : FileSystem) (now : Duration) (tag text : String) :
    log.record files now level tag text = (log, files) := by
  simp only [record, refused]

theorem record_of_closed (closed : log.writer = none) (files : FileSystem) (now : Duration)
    (level : LogLevel) (tag text : String) :
    log.record files now level tag text = (log, files) := by
  unfold record
  rw [closed]
  split
  case h_1 impossible => cases impossible
  case h_2 => rfl

theorem Holds.setThreshold (holds : log.Holds files location taken)
    (threshold : Option LogThreshold) : (log.setThreshold threshold).Holds files location taken :=
  holds

theorem Holds.sameBut_drop (holds : log.Holds files location taken) :
    SameBut (· = location) files (log.drop files) := by
  obtain ⟨writer, opened, _, atEnd, _⟩ := holds
  have confined := LogWriter.confined_flush writer files
  rw [atEnd.place] at confined
  rw [RunLog.drop, opened]
  exact confined.same

/-! All calls. -/

/-- A log that is closed answers everything and does nothing. -/
theorem session_of_closed (closed : log.writer = none) (files : FileSystem)
    (calls : List (Duration × LogCall)) :
    (log.session files calls).replies = List.replicate calls.length (.ok ()) ∧
      (log.session files calls).log.writer = none ∧ (log.session files calls).files = files := by
  induction calls generalizing log with
  | nil => exact ⟨rfl, closed, rfl⟩
  | cons first rest inductionHypothesis =>
      obtain ⟨now, call⟩ := first
      have same : ∃ next, log.answer files now call = (.ok (), next, files) ∧
          next.writer = none := by
        cases call with
        | record level tag text =>
            rw [answer, record_of_closed closed]
            exact ⟨log, rfl, closed⟩
        | setThreshold threshold => exact ⟨log.setThreshold threshold, rfl, closed⟩
        | close =>
            rw [answer, close, closed]
            exact ⟨log, rfl, closed⟩
      obtain ⟨next, answered, closedNext⟩ := same
      obtain ⟨replies, closedLast, left⟩ := inductionHypothesis closedNext
      simp only [session, answered]
      exact ⟨congrArg _ replies, closedLast, left⟩

/-- Calls that have been answered well, and the bytes that are then in the file. -/
structure Kept (files : FileSystem) (calls : List (Duration × LogCall)) (location : Location)
    (taken : ByteArray) (ended : LogSession) : Prop where
  replies : ended.replies = List.replicate calls.length (.ok ())
  stands : ended.final.entry? location = some (.file taken)
  same : SameBut (· = location) files ended.final
  closed : (∃ moment, (moment, .close) ∈ calls) → ended.final = ended.files

theorem Kept.cons {others : FileSystem} {calls : List (Duration × LogCall)} {ended : LogSession}
    (kept : Kept others calls location taken ended) (same : SameBut (· = location) files others)
    (now : Duration) {call : LogCall} (goesOn : call ≠ .close) :
    Kept files ((now, call) :: calls) location taken
      { ended with replies := .ok () :: ended.replies } where
  replies := congrArg _ kept.replies
  stands := kept.stands
  same := same.trans kept.same
  closed := by
    rintro ⟨moment, member⟩
    rcases List.mem_cons.mp member with first | behind
    · cases first
      exact absurd rfl goesOn
    · exact kept.closed ⟨moment, behind⟩

/-- Behind a close nothing changes. -/
theorem Holds.session_close (holds : log.Holds files location taken) (now : Duration)
    (rest : List (Duration × LogCall)) :
    Kept files ((now, .close) :: rest) location taken
      (log.session files ((now, .close) :: rest)) := by
  obtain ⟨next, closes, closedNext⟩ := holds.exists_closed
  have answered : log.answer files now .close = (.ok (), next, log.drop files) := closes
  obtain ⟨replies, closed, left⟩ := session_of_closed closedNext (log.drop files) rest
  have final := drop_of_closed closed
  simp only [RunLog.session, answered]
  refine
    { replies := congrArg _ replies
      stands := ?_
      same := ?_
      closed := fun _ => final _ }
  · simpa only [LogSession.final, final, left] using holds.drop
  · simpa only [LogSession.final, final, left] using holds.sameBut_drop

theorem Holds.session (holds : log.Holds files location taken)
    (calls : List (Duration × LogCall)) :
    Kept files calls location
      (taken ++ (textOf (entriesOf log.opened log.threshold calls)).toUTF8)
      (log.session files calls) := by
  -- By induction on the calls, for all bytes taken so far: a record that is let in adds its entry
  -- to them, and behind a close nothing changes.
  induction calls generalizing log files taken with
  | nil =>
      refine ⟨rfl, ?_, holds.sameBut_drop, ?_⟩
      · rw [entriesOf, LogEntry.append_toUTF8_textOf_nil]
        exact holds.drop
      · rintro ⟨_, member⟩
        cases member
  | cons first rest inductionHypothesis =>
      obtain ⟨now, call⟩ := first
      cases call with
      | record level tag text =>
          by_cases admitted : level.rank ≤ log.threshold.rank
          · have recorded := holds.record_of_admits now (decide_eq_true admitted) tag text
            have same := (sameBut_record log files now level tag text).mono fun _ => holds.isFile
            have kept := inductionHypothesis recorded
            obtain ⟨opened, threshold⟩ := fields_record log files now level tag text
            rw [opened, threshold, ByteArray.append_assoc] at kept
            rw [entriesOf, if_pos admitted, LogEntry.toUTF8_textOf_cons]
            exact kept.cons same now LogCall.noConfusion
          · have refused := record_of_not_admits (decide_eq_false admitted) files now tag text
            have kept := (inductionHypothesis holds).cons (.refl files) now
              (LogCall.noConfusion : LogCall.record level tag text ≠ .close)
            rw [entriesOf, if_neg admitted]
            simp only [RunLog.session, answer, refused]
            exact kept
      | setThreshold threshold =>
          exact (inductionHypothesis (holds.setThreshold threshold)).cons (.refl files) now
            LogCall.noConfusion
      | close =>
          rw [entriesOf, LogEntry.append_toUTF8_textOf_nil]
          exact holds.session_close now rest

/-! Calls of a log that has just been opened. -/

/-- Nothing stands in the way of what is written to the file of a log. -/
structure Accepts (log : RunLog) (files : FileSystem) : Prop where
  faultless : files.faults = []
  roomy : ∀ location, log.IsFile location → files.entry? location ≠ some .fullDevice

variable {before opened : FileSystem} {now : Duration} {directory selector : String}

theorem OpensAt.holds (opensAt : OpensAt files before now directory selector log opened location)
    (accepts : log.Accepts opened) : log.Holds opened location ByteArray.empty := by
  have empty := opensAt.emptied.resolve_right (accepts.roomy location (opensAt.isFile.mpr rfl))
  rw [opensAt.fresh]
  exact ⟨_, rfl, ByteArray.empty, ⟨accepts.faultless, empty, rfl⟩, rfl⟩

theorem OpensAt.kept (opensAt : OpensAt files before now directory selector log opened location)
    (accepts : log.Accepts opened) (calls : List (Duration × LogCall)) :
    Kept opened calls location (textOf (entriesOf now .info calls)).toUTF8
      (log.session opened calls) := by
  have kept := (opensAt.holds accepts).session calls
  rw [ByteArray.empty_append] at kept
  have start : log.opened = now ∧ log.threshold = .info := by
    rw [opensAt.fresh]
    exact ⟨rfl, rfl⟩
  rwa [start.1, start.2] at kept

/-- The text is found under the path of the log. -/
theorem OpensAt.readText (opensAt : OpensAt files before now directory selector log opened location)
    (accepts : log.Accepts opened) (calls : List (Duration × LogCall)) :
    (log.session opened calls).final.readText (pathOf directory selector) =
      .ok (textOf (entriesOf now .info calls)) := by
  have kept := opensAt.kept accepts calls
  have reaches := opensAt.leadsTo.reaches opensAt.rooted (opensAt.same.trans kept.same) kept.stands
  exact FileSystem.readText_of_reaches opensAt.leadsTo.checked reaches

theorem text_of_session (rooted : files.Rooted)
    (opens : openFile files now directory selector = (.ok log, opened))
    (accepts : log.Accepts opened) (calls : List (Duration × LogCall)) :
    (log.session opened calls).replies = List.replicate calls.length (.ok ()) ∧
    (log.session opened calls).final.readText (pathOf directory selector) =
      .ok (textOf (entriesOf now .info calls)) ∧
    ((∃ moment, (moment, .close) ∈ calls) →
      (log.session opened calls).final = (log.session opened calls).files) ∧
    ∀ earlier later moment tag text, calls = earlier ++ (moment, .record .error tag text) :: later →
      (∀ time, (time, .close) ∉ earlier) →
        ⟨moment - now, .error, tag, text⟩ ∈ entriesOf now .info calls := by
  rcases opensAt_of_openFile rooted opens with ⟨⟨_, ⟨⟩⟩, _⟩ | ⟨_, before, location, ⟨⟩, opensAt⟩
  have kept := opensAt.kept accepts calls
  refine ⟨kept.replies, opensAt.readText accepts calls, kept.closed, ?_⟩
  rintro earlier later moment tag text rfl unclosed
  exact mem_entriesOf_error unclosed

/-! A log beside a document. -/

theorem accepts_withLog (document : String) (now : Duration) :
    Accepts ⟨some ⟨⟨["logs", "T.log"], 0⟩, ByteArray.empty⟩, some "logs/T.log", .info, now⟩
      (FileSystem.withLog document) where
  faultless := rfl
  roomy := by
    rintro location ⟨_, ⟨⟩, rfl⟩
    simp [FileSystem.withLog, FileSystem.entry?_put_self]

/-- A record below the threshold and one behind the close are left out. -/
theorem text_of_session_withLog :
    let log : RunLog :=
      ⟨some ⟨⟨["logs", "T.log"], 0⟩, ByteArray.empty⟩, some "logs/T.log", .info, .zero⟩
    let calls : List (Duration × LogCall) :=
      [(.zero, .record .info "Autonomous" "at start"),
        (.zero, .record .debug "Dispatcher" "hidden"), (.zero, .setThreshold (some .debug)),
        (.ofMillis 5, .record .debug "Dispatcher" "SLEEP"), (.ofMillis 9, .close),
        (.ofMillis 9, .record .error "Autonomous" "late"), (.ofMillis 9, .close)]
    (log.session (FileSystem.withLog "") calls).final.readText (pathOf "logs" "T") =
        .ok "       0 I [Autonomous] at start\n       5 D [Dispatcher] SLEEP\n" ∧
      (log.session (FileSystem.withLog "") calls).replies = List.replicate 7 (.ok ()) := by
  intro log calls
  obtain ⟨replies, text, _, _⟩ := text_of_session (rooted_withDocument "") (openFile_log "" .zero)
    (accepts_withLog "" .zero) calls
  refine ⟨text.trans (congrArg _ ?_), replies⟩
  decide +kernel

end RunLog

end RobotRoutine
