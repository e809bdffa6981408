import RobotRoutine.Program.Basic
import RobotRoutine.Simulation.Host

/-!
What the file of a run log holds.

A writer denotes the bytes of its file followed by those that are pending, and every record that is
let in appends one line to them, whichever way the buffer goes.  Closing the log leaves nothing
pending, so then the file itself holds all that was recorded.  The disk is taken to have room and to
be free of faults; a log whose file fails is lost, and nothing can be said of it.
-/

namespace RobotRoutine

open Program (Event)

namespace FileSystem

theorem entry?_put_self (files : FileSystem) {location : Location} (inside : location ≠ [])
    (entry : FileEntry) : entry? (files.put location entry) location = some entry := by
  cases location with
  | nil => exact absurd rfl inside
  | cons name rest =>
      change List.lookup (name :: rest) ((name :: rest, entry) :: _) = some entry
      exact List.lookup_cons_self

/-- Bytes that are laid over a file from its end on stand behind it. -/
theorem overlay_size (old new : ByteArray) : overlay old old.size new = old ++ new := by
  have noGap : (⟨Array.replicate (old.size - old.size) 0⟩ : ByteArray) = ByteArray.empty := by
    rw [Nat.sub_self]
    rfl
  have noRest : old.extract (old.size + new.size) old.size = ByteArray.empty := by
    rw [ByteArray.extract_eq_empty_iff]
    omega
  rw [overlay, noGap, noRest, ByteArray.extract_zero_size, ByteArray.append_empty,
    ByteArray.append_empty]

/-- A handle at the end of the file that stands at a location, on a disk without faults. -/
structure AtEnd (files : FileSystem) (handle : FileHandle) (location : Location)
    (bytes : ByteArray) : Prop where
  faultless : files.faults = []
  file : files.entry? location = some (.file bytes)
  place : handle = ⟨location, bytes.size⟩

variable {files : FileSystem} {handle : FileHandle} {location : Location} {old : ByteArray}

theorem AtEnd.location_ne_nil (atEnd : files.AtEnd handle location old) : location ≠ [] := by
  intro root
  have file := atEnd.file
  rw [root] at file
  cases file

theorem AtEnd.store (atEnd : files.AtEnd handle location old) (new : ByteArray) :
    (files.store handle new).2.AtEnd (files.store handle new).1 location (old ++ new) := by
  have stored : files.store handle new =
      (⟨location, old.size + new.size⟩, files.put location (.file (old ++ new))) := by
    simp only [FileSystem.store, atEnd.place, atEnd.file, overlay_size]
  rw [stored]
  refine
    { faultless := atEnd.faultless
      file := entry?_put_self files atEnd.location_ne_nil _
      place := ?_ }
  rw [ByteArray.size_append]

theorem AtEnd.write (atEnd : files.AtEnd handle location old) (new : ByteArray) :
    (files.write handle new).error = none ∧ (files.write handle new).count = new.size ∧
      (files.write handle new).files.AtEnd (files.write handle new).handle location
        (old ++ new) := by
  unfold FileSystem.write
  split
  case isTrue isEmpty =>
    have nothing : new = ByteArray.empty :=
      ByteArray.size_eq_zero_iff.mp (by simpa [ByteArray.isEmpty] using isEmpty)
    subst nothing
    rw [ByteArray.append_empty]
    exact ⟨rfl, rfl, atEnd⟩
  case isFalse =>
    rw [if_neg (by simp [atEnd.place, atEnd.file])]
    simp only [nextFault, atEnd.faultless]
    exact ⟨trivial, trivial, atEnd.store new⟩

end FileSystem

namespace LogWriter

/-- The bytes that a writer has taken: those of its file and then those that are pending. -/
def Holds (writer : LogWriter) (files : FileSystem) (location : Location) (taken : ByteArray) :
    Prop :=
  ∃ stored, files.AtEnd writer.handle location stored ∧ taken = stored ++ writer.pending

variable {writer : LogWriter} {files : FileSystem} {location : Location} {taken : ByteArray}

theorem Holds.flush (holds : writer.Holds files location taken) :
    (writer.flush files).error = none ∧ (writer.flush files).writer.pending = ByteArray.empty ∧
      (writer.flush files).files.AtEnd (writer.flush files).writer.handle location taken := by
  obtain ⟨stored, atEnd, rfl⟩ := holds
  obtain ⟨error, count, written⟩ := atEnd.write writer.pending
  refine ⟨error, ?_, written⟩
  change writer.pending.extract (files.write writer.handle writer.pending).count _ = _
  rw [count, ByteArray.extract_eq_empty_iff]
  omega

theorem Holds.take (holds : writer.Holds files location taken) {bytes : ByteArray}
    (fits : bytes.size < capacity ∨ writer.pending = ByteArray.empty) :
    (writer.take files bytes).error = none ∧
      (writer.take files bytes).writer.Holds (writer.take files bytes).files location
        (taken ++ bytes) := by
  obtain ⟨stored, atEnd, rfl⟩ := holds
  unfold LogWriter.take
  split
  case isTrue => exact ⟨rfl, stored, atEnd, ByteArray.append_assoc⟩
  case isFalse long =>
    obtain ⟨error, _, written⟩ := atEnd.write bytes
    have nothing := fits.resolve_left long
    rw [nothing, ByteArray.append_empty]
    exact ⟨error, stored ++ bytes, written, ByteArray.append_empty.symm⟩

/-- Whether or not the buffer has to be written out first, added bytes come behind those taken. -/
theorem Holds.add (holds : writer.Holds files location taken) (bytes : ByteArray) :
    (writer.add files bytes).error = none ∧
      (writer.add files bytes).writer.Holds (writer.add files bytes).files location
        (taken ++ bytes) := by
  unfold LogWriter.add
  split
  case isTrue fits =>
    refine holds.take ?_
    by_cases short : bytes.size < capacity
    · exact .inl short
    · refine .inr (ByteArray.size_eq_zero_iff.mp ?_)
      omega
  case isFalse =>
    obtain ⟨error, nothing, atEnd⟩ := holds.flush
    simp only [error]
    refine Holds.take ⟨taken, atEnd, ?_⟩ (.inr nothing)
    rw [nothing, ByteArray.append_empty]

theorem Holds.addLine (holds : writer.Holds files location taken) (line : String) :
    (writer.addLine files line).error = none ∧
      (writer.addLine files line).writer.Holds (writer.addLine files line).files location
        (taken ++ (line ++ "\n").toUTF8) := by
  obtain ⟨error, holdsLine⟩ := holds.add line.toUTF8
  have split : (line ++ "\n").toUTF8 = line.toUTF8 ++ "\n".toUTF8 := String.toByteArray_append
  unfold LogWriter.addLine
  simp only [error]
  rw [split, ← ByteArray.append_assoc]
  exact holdsLine.add "\n".toUTF8

end LogWriter

namespace RunLog

/-- The bytes that an open log has taken for the file at a location. -/
def Holds (log : RunLog) (files : FileSystem) (location : Location) (taken : ByteArray) : Prop :=
  ∃ writer, log.writer = some writer ∧ writer.Holds files location taken

variable {log : RunLog} {files : FileSystem} {location : Location} {taken : ByteArray}

theorem admits_error (log : RunLog) : log.admits .error = true := by
  simp [admits, LogLevel.rank]

/-- An open log appends one line for a record that its threshold lets in. -/
theorem Holds.record_of_admits (holds : log.Holds files location taken) (now : Duration)
    {level : LogLevel} (admitted : log.admits level = true) (tag text : String) :
    (log.record files now level tag text).1.Holds (log.record files now level tag text).2 location
      (taken ++ (line (now - log.opened) level tag text ++ "\n").toUTF8) := by
  obtain ⟨writer, opened, holdsWriter⟩ := holds
  obtain ⟨error, holdsLine⟩ := holdsWriter.addLine (line (now - log.opened) level tag text)
  unfold RunLog.record
  simp only [admitted, opened, error]
  exact ⟨_, rfl, holdsLine⟩

/-- Every threshold lets errors in. -/
theorem Holds.record_error (holds : log.Holds files location taken) (now : Duration)
    (tag text : String) :
    (log.record files now .error tag text).1.Holds (log.record files now .error tag text).2 location
      (taken ++ (line (now - log.opened) .error tag text ++ "\n").toUTF8) :=
  holds.record_of_admits now (admits_error log) tag text

/-- What is pending is written when a log is dropped. -/
theorem Holds.drop (holds : log.Holds files location taken) :
    FileSystem.entry? (log.drop files) location = some (.file taken) := by
  obtain ⟨writer, opened, holdsWriter⟩ := holds
  obtain ⟨_, _, atEnd⟩ := holdsWriter.flush
  rw [RunLog.drop, opened]
  exact atEnd.file

theorem drop_of_closed (closed : log.writer = none) (files : FileSystem) :
    log.drop files = files := by
  rw [RunLog.drop, closed]

/-- Closing a log leaves the files as dropping it would. -/
theorem Holds.exists_closed (holds : log.Holds files location taken) :
    ∃ next, log.close files = (.ok (), next, log.drop files) ∧ next.writer = none := by
  obtain ⟨writer, opened, holdsWriter⟩ := holds
  obtain ⟨error, _⟩ := holdsWriter.flush
  refine ⟨{ log with writer := none }, ?_, rfl⟩
  simp only [RunLog.close, RunLog.drop, opened, error]
  rfl

theorem Holds.close (holds : log.Holds files location taken) :
    FileSystem.entry? (log.close files).2.2 location = some (.file taken) := by
  obtain ⟨next, closes, _⟩ := holds.exists_closed
  rw [closes]
  exact holds.drop

theorem writer_close (log : RunLog) (files : FileSystem) : (log.close files).2.1.writer = none := by
  unfold RunLog.close
  split
  case h_1 closed => exact closed
  case h_2 =>
    simp only
    split <;> rfl

end RunLog

namespace Host

/-- How a host is left behind by events: it answers its own calls, and time goes on between them. -/
inductive Follows : Host → List Event → Host → Prop where
  | done {host} : Follows host [] host
  | robot {host call reply events last} :
      Follows host events last → Follows host (⟨.robot call, reply⟩ :: events) last
  | host {host elapsed call events last} :
      Follows ((host.wait elapsed).answer call).2 events last →
      Follows host (⟨.host call, ((host.wait elapsed).answer call).1⟩ :: events) last

theorem Follows.split {host last : Host} {first second : List Event}
    (follows : Follows host (first ++ second) last) :
    ∃ middle, Follows host first middle ∧ Follows middle second last := by
  induction first generalizing host with
  | nil => exact ⟨host, .done, follows⟩
  | cons event rest inductionHypothesis =>
      cases follows with
      | robot followsRest =>
          obtain ⟨middle, before, behind⟩ := inductionHypothesis followsRest
          exact ⟨middle, .robot before, behind⟩
      | host followsRest =>
          obtain ⟨middle, before, behind⟩ := inductionHypothesis followsRest
          exact ⟨middle, .host before, behind⟩

/-- A call of the robot, or a pause. -/
def LeavesHost : Call → Prop
  | .robot _ => True
  | .host (.pause _) => True
  | .host _ => False

theorem Follows.log_eq {host last : Host} {events : List Event}
    (follows : Follows host events last) (leave : ∀ event ∈ events, LeavesHost event.request) :
    last.log = host.log ∧ last.files = host.files := by
  induction follows with
  | done => exact ⟨rfl, rfl⟩
  | robot _ inductionHypothesis =>
      exact inductionHypothesis fun event member => leave event (List.mem_cons_of_mem _ member)
  | @host _ _ call _ _ _ inductionHypothesis =>
      rw [List.forall_mem_cons] at leave
      obtain ⟨log, files⟩ := inductionHypothesis leave.2
      cases call with
      | pause => exact ⟨log, files⟩
      | _ => exact leave.1.elim

theorem log_answer_record (host : Host) (level : LogLevel) (tag text : String) :
    (host.answer (.record level tag text)).2.log =
      (host.log.record host.files host.clock level tag text).1 := rfl

theorem files_answer_record (host : Host) (level : LogLevel) (tag text : String) :
    (host.answer (.record level tag text)).2.files =
      (host.log.record host.files host.clock level tag text).2 := rfl

/-- An error that is recorded is one more line, with the time since the log was opened. -/
theorem Follows.record_error {host last : Host} {tag text : String} {events : List Event}
    {location : Location} {taken : ByteArray}
    (follows : Follows host (⟨.host (.record .error tag text), ()⟩ :: events) last)
    (holds : host.log.Holds host.files location taken) :
    ∃ middle elapsed, middle.log.Holds middle.files location
        (taken ++ (RunLog.line elapsed .error tag text ++ "\n").toUTF8) ∧
      Follows middle events last := by
  cases follows with
  | @host _ waited _ _ _ followsRest =>
      refine ⟨_, (host.wait waited).clock - host.log.opened, ?_, followsRest⟩
      rw [log_answer_record, files_answer_record]
      exact holds.record_error (host.wait waited).clock tag text

end Host

end RobotRoutine
