import RobotRoutine.Proofs.Files.LogText
import RobotRoutine.Proofs.Toml.Scalar

/-!
The lines of a run log.

An entry goes into the log as it is, and so do the line feeds in its tag and its text: each of them
ends a line, and what follows begins a line of its own, without a time stamp, a level and a tag.
So the lines are those of the records only where no tag and no text has a line feed in it.
-/

namespace RobotRoutine

namespace Text

/-- What stands between the line feeds of a text. -/
def pieces (text : String) : List String := (text.toList.splitOn '\n').map String.ofList

/-- The lines of a text.  Behind its last line feed begins one only if something stands there. -/
def lines (text : String) : List String :=
  if (pieces text).getLast? = some "" then (pieces text).dropLast else pieces text

theorem pieces_lineFeed (first rest : String) :
    pieces (first ++ "\n" ++ rest) = pieces first ++ pieces rest := by
  have characters : (first ++ "\n" ++ rest).toList = first.toList ++ '\n' :: rest.toList := by simp
  rw [pieces, characters, List.splitOn_append_cons_self, List.map_append, pieces, pieces]

theorem pieces_of_not_mem {text : String} (unbroken : '\n' ∉ text.toList) :
    pieces text = [text] := by
  rw [pieces, List.splitOn_eq_singleton unbroken, List.map_singleton, String.ofList_toList]

theorem length_pieces (text : String) : (pieces text).length = text.toList.count '\n' + 1 := by
  rw [pieces, List.length_map]
  induction text.toList with
  | nil => rfl
  | cons c rest inductionHypothesis =>
      rw [List.splitOn_cons_eq_if_modifyHead, List.count_cons]
      split
      · rw [List.length_cons, inductionHypothesis]
      · rw [List.length_modifyHead, inductionHypothesis]

theorem splitOn_append {front : List Char} (unbroken : '\n' ∉ front) (rest : List Char) :
    (front ++ rest).splitOn '\n' = (rest.splitOn '\n').modifyHead (front ++ ·) := by
  induction front with
  | nil => exact (congrFun List.modifyHead_id _).symm
  | cons c front inductionHypothesis =>
      rw [List.mem_cons, not_or] at unbroken
      rw [List.cons_append, List.splitOn_cons_eq_if_modifyHead,
        if_neg (by simpa using Ne.symm unbroken.1), inductionHypothesis unbroken.2,
        List.modifyHead_modifyHead]
      rfl

/-- A text without a line feed stands in front of the first line of what follows. -/
theorem pieces_append {front : String} (unbroken : '\n' ∉ front.toList) (rest : String) :
    pieces (front ++ rest) = (pieces rest).modifyHead (front ++ ·) := by
  rw [pieces, pieces, String.toList_append, splitOn_append unbroken]
  cases rest.toList.splitOn '\n' with
  | nil => rfl
  | cons first others => simp

end Text

namespace LogEntry

/-- All of an entry that stands in front of its text. -/
def front (entry : LogEntry) : String :=
  entry.stamp ++ entry.level.label ++ " [" ++ entry.tag ++ "] "

theorem front_append_text (entry : LogEntry) :
    entry.front ++ entry.text = entry.stamp ++ entry.body := by
  simp only [front, body, String.append_assoc]

theorem not_mem_stamp (entry : LogEntry) : '\n' ∉ entry.stamp.toList := by
  have digits : '\n' ∉ Nat.toDigits 10 entry.elapsed.millis :=
    fun member => absurd (Toml.allDigits_toDigits _ _ member) (by decide)
  rw [stamp, RunLog.padLeft]
  simp [digits]

theorem not_mem_label (level : LogLevel) : '\n' ∉ level.label.toList := by
  cases level <;> decide

/-- The line feeds of an entry are those of its tag and its text. -/
theorem count_lineFeed (entry : LogEntry) :
    (entry.stamp ++ entry.body).toList.count '\n' =
      entry.tag.toList.count '\n' + entry.text.toList.count '\n' := by
  have noneInStamp := List.count_eq_zero.mpr entry.not_mem_stamp
  have noneInLabel := List.count_eq_zero.mpr (not_mem_label entry.level)
  simp only [body, String.toList_append, List.count_append, noneInStamp, noneInLabel]
  simp

/-- Neither the tag nor the text has a line feed in it. -/
def Unbroken (entry : LogEntry) : Prop := '\n' ∉ entry.tag.toList ∧ '\n' ∉ entry.text.toList

theorem unbroken_iff (entry : LogEntry) :
    entry.Unbroken ↔ (entry.stamp ++ entry.body).toList.count '\n' = 0 := by
  rw [count_lineFeed, Nat.add_eq_zero_iff, List.count_eq_zero, List.count_eq_zero, Unbroken]

theorem Unbroken.pieces_eq {entry : LogEntry} (unbroken : entry.Unbroken) :
    Text.pieces (entry.stamp ++ entry.body) = [entry.stamp ++ entry.body] :=
  Text.pieces_of_not_mem (List.count_eq_zero.mp (entry.unbroken_iff.mp unbroken))

variable (entries : List LogEntry)

theorem pieces_textOf :
    Text.pieces (textOf entries) =
      (entries.flatMap fun entry => Text.pieces (entry.stamp ++ entry.body)) ++ [""] := by
  induction entries with
  | nil => rfl
  | cons entry rest inductionHypothesis =>
      rw [textOf_cons, Text.pieces_lineFeed, inductionHypothesis, List.flatMap_cons,
        List.append_assoc]

theorem lines_textOf :
    Text.lines (textOf entries) =
      entries.flatMap fun entry => Text.pieces (entry.stamp ++ entry.body) := by
  rw [Text.lines, pieces_textOf, List.getLast?_concat, if_pos rfl, List.dropLast_concat]

/-- Each line feed makes one line more. -/
theorem length_lines_textOf :
    (Text.lines (textOf entries)).length = entries.length +
      (entries.map fun entry =>
        entry.tag.toList.count '\n' + entry.text.toList.count '\n').sum := by
  rw [lines_textOf]
  induction entries with
  | nil => rfl
  | cons entry rest inductionHypothesis =>
      rw [List.flatMap_cons, List.length_append, inductionHypothesis, Text.length_pieces,
        count_lineFeed, List.length_cons, List.map_cons, List.sum_cons]
      omega

/-- One line for each entry, and each line its entry, as far as there are no line feeds. -/
theorem lines_textOf_eq_map_iff :
    (Text.lines (textOf entries) = entries.map fun entry => entry.stamp ++ entry.body) ↔
      ∀ entry ∈ entries, entry.Unbroken := by
  constructor
  · intro same entry member
    have long := length_lines_textOf entries
    rw [same, List.length_map, left_eq_add, List.sum_eq_zero_iff] at long
    rw [unbroken_iff, count_lineFeed]
    exact long _ (List.mem_map_of_mem member)
  · intro unbroken
    rw [lines_textOf]
    have each : ∀ entry ∈ entries, Text.pieces (entry.stamp ++ entry.body) =
        [entry.stamp ++ entry.body] := fun entry member => (unbroken entry member).pieces_eq
    rw [List.flatMap_congr each, List.map_eq_flatMap]

theorem not_mem_front {entry : LogEntry} (unbroken : '\n' ∉ entry.tag.toList) :
    '\n' ∉ entry.front.toList := by
  simp only [front, String.toList_append, List.mem_append, not_or]
  exact ⟨⟨⟨⟨entry.not_mem_stamp, not_mem_label _⟩, by decide⟩, unbroken⟩, by decide⟩

/-- The first line of a text stands behind the tag; all others stand alone. -/
theorem pieces_of_unbroken_tag {entry : LogEntry} (unbroken : '\n' ∉ entry.tag.toList) :
    Text.pieces (entry.stamp ++ entry.body) =
      (Text.pieces entry.text).modifyHead (entry.front ++ ·) := by
  rw [← front_append_text]
  exact Text.pieces_append (not_mem_front unbroken) entry.text

end LogEntry

namespace RunLog

variable {files opened : FileSystem} {now : Duration} {directory selector : String} {log : RunLog}

theorem lines_of_session (rooted : files.Rooted)
    (opens : openFile files now directory selector = (.ok log, opened))
    (accepts : log.Accepts opened) (calls : List (Duration × LogCall)) :
    ∃ text, (log.session opened calls).final.readText (pathOf directory selector) = .ok text ∧
      (Text.lines text = (entriesOf now .info calls).flatMap fun entry =>
        Text.pieces (entry.stamp ++ entry.body)) ∧
      (Text.lines text).length = (entriesOf now .info calls).length +
        ((entriesOf now .info calls).map fun entry =>
          entry.tag.toList.count '\n' + entry.text.toList.count '\n').sum ∧
      ((Text.lines text = (entriesOf now .info calls).map fun entry => entry.stamp ++ entry.body) ↔
        ∀ entry ∈ entriesOf now .info calls, entry.Unbroken) ∧
      ∀ entry ∈ entriesOf now .info calls, '\n' ∉ entry.tag.toList →
        Text.pieces (entry.stamp ++ entry.body) =
          (Text.pieces entry.text).modifyHead (entry.front ++ ·) := by
  rcases opensAt_of_openFile rooted opens with ⟨⟨_, ⟨⟩⟩, _⟩ | ⟨_, before, location, ⟨⟩, opensAt⟩
  refine ⟨_, opensAt.readText accepts calls, LogEntry.lines_textOf _,
    LogEntry.length_lines_textOf _, LogEntry.lines_textOf_eq_map_iff _, ?_⟩
  intro entry _ unbroken
  exact LogEntry.pieces_of_unbroken_tag unbroken

/-- A value of a document that looks like a line of the log. -/
def forgedValue : String := "5\n       0 I [Autonomous] Running ..."

/-- One record, of an error that quotes the value of an attribute, makes two lines. -/
theorem lines_of_session_forged :
    let log : RunLog :=
      ⟨some ⟨⟨["logs", "T.log"], 0⟩, ByteArray.empty⟩, some "logs/T.log", .info, .zero⟩
    ∃ error text,
      Command.resolve ⟨"SLEEP", [("ms", forgedValue)]⟩ = .error error ∧
      (log.session (FileSystem.withLog "")
        [(.zero, .record .error "Dispatcher" error.text)]).final.readText (pathOf "logs" "T") =
          .ok text ∧
      Text.lines text =
        ["       0 E [Dispatcher] invalid value '5",
          "       0 I [Autonomous] Running ...' for attribute 'ms' of SLEEP"] := by
  intro log
  obtain ⟨text, read, lines, _⟩ := lines_of_session (rooted_withDocument "")
    (openFile_log "" .zero) (accepts_withLog "" .zero)
    [(.zero, .record .error "Dispatcher" (RunError.invalidValue "SLEEP" "ms" forgedValue).text)]
  refine ⟨.invalidValue "SLEEP" "ms" forgedValue, text, ?_, read, lines.trans ?_⟩
  · rfl
  · decide +kernel

end RunLog

end RobotRoutine
