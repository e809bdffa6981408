import RobotRoutine.Proofs.Run.DriveTime
import RobotRoutine.Proofs.Simulation.Drive
import RobotRoutine.Proofs.Toml.Lines
import RobotRoutine.Settings.Format

/-!
Settings files read back.

What is written of valid settings is read line by line into the same settings: their texts in
whatever quotes they need, their numbers to the last bit.
-/

namespace RobotRoutine.SettingsFile

open Toml (IsBareKey IsMagnitude ReaderState Spells Statement Value readStatements)

/-! Lines. -/

theorem toList_line (key value : String) (rest : List Char) :
    (line key value).toList ++ rest =
      key.toList ++ [' ', '=', ' '] ++ value.toList ++ '\n' :: rest := by
  simp [line]

/-- A line with a value on it is one statement. -/
theorem readStatements_line {key text : String} {value : Value} (bare : IsBareKey key)
    (spells : Spells text.toList value) (turns : Nat) (rest : List Char) :
    readStatements (turns + 1) ((line key text).toList ++ rest) =
      (readStatements turns rest).map (.assign ⟨[], key⟩ value :: ·) := by
  rw [toList_line]
  exact Toml.readStatements_line bare spells turns rest

theorem spells_count (count : UInt64) :
    Spells (toString count.toNat).toList (.integer count.toNat) := by
  rw [Nat.toString_eq_ofList_toDigits, String.toList_ofList]
  exact Toml.spells_of_denotes (Toml.denotes_toDigits _)

theorem spells_magnitude {x : Binary64} (magnitude : IsMagnitude x) :
    Spells x.pointText.toList (.float x) :=
  Toml.spells_of_denotes (Toml.denotes_pointText magnitude)

/-! Settings. -/

def driveStatements (drive : DriveSettings) : List Statement :=
  [.assign ⟨[], "channel"⟩ (.string drive.channel),
    .assign ⟨[], "power"⟩ (.float drive.power),
    .assign ⟨[], "default_duration_secs"⟩ (.float drive.defaultDurationSecs),
    .assign ⟨[], "poll_interval_ms"⟩ (.integer drive.pollIntervalMs.toNat)]

def timingStatements (timing : TimingSettings) : List Statement :=
  [.assign ⟨[], "hold_interval_ms"⟩ (.integer timing.holdIntervalMs.toNat),
    .assign ⟨[], "breakpoint_poll_ms"⟩ (.integer timing.breakpointPollMs.toNat)]

/-- The statements of a settings file. -/
def statements (settings : Settings) : List Statement :=
  [.assign ⟨[], "document_path"⟩ (.string settings.documentPath),
    .assign ⟨[], "log_dir"⟩ (.string settings.logDirectory),
    .openTable ⟨[], "drive"⟩] ++ driveStatements settings.drive ++
    .openTable ⟨[], "timing"⟩ :: timingStatements settings.timing

theorem readStatements_writeDrive {drive : DriveSettings} (power : IsMagnitude drive.power)
    (duration : IsMagnitude drive.defaultDurationSecs) (turns : Nat) (rest : List Char) :
    readStatements (turns + 4) ((writeDrive drive).toList ++ rest) =
      (readStatements turns rest).map (driveStatements drive ++ ·) := by
  rw [writeDrive, String.toList_append, String.toList_append, String.toList_append,
    List.append_assoc, List.append_assoc, List.append_assoc,
    readStatements_line ⟨by decide, by decide⟩ (Toml.spells_quote _),
    readStatements_line ⟨by decide, by decide⟩ (spells_magnitude power),
    readStatements_line ⟨by decide, by decide⟩ (spells_magnitude duration),
    readStatements_line ⟨by decide, by decide⟩ (spells_count _)]
  cases readStatements turns rest <;> rfl

theorem readStatements_writeTiming (timing : TimingSettings) (turns : Nat) (rest : List Char) :
    readStatements (turns + 2) ((writeTiming timing).toList ++ rest) =
      (readStatements turns rest).map (timingStatements timing ++ ·) := by
  rw [writeTiming, String.toList_append, List.append_assoc,
    readStatements_line ⟨by decide, by decide⟩ (spells_count _),
    readStatements_line ⟨by decide, by decide⟩ (spells_count _)]
  cases readStatements turns rest <;> rfl

theorem readStatements_write {settings : Settings} (power : IsMagnitude settings.drive.power)
    (duration : IsMagnitude settings.drive.defaultDurationSecs) (turns : Nat) :
    readStatements (turns + 14) (write settings).toList = some (statements settings) := by
  have text : (write settings).toList =
      (line "document_path" (Toml.quote settings.documentPath)).toList ++
        ((line "log_dir" (Toml.quote settings.logDirectory)).toList ++
          '\n' :: '[' :: ("drive".toList ++ ']' :: '\n' :: ((writeDrive settings.drive).toList ++
            '\n' :: '[' :: ("timing".toList ++ ']' :: '\n' ::
              ((writeTiming settings.timing).toList ++ ['\n']))))) := by
    simp [write]
  rw [text, readStatements_line ⟨by decide, by decide⟩ (Toml.spells_quote _),
    readStatements_line ⟨by decide, by decide⟩ (Toml.spells_quote _),
    Toml.readStatements_blank, Toml.readStatements_header ⟨by decide, by decide⟩,
    readStatements_writeDrive power duration, Toml.readStatements_blank,
    Toml.readStatements_header ⟨by decide, by decide⟩, readStatements_writeTiming,
    Toml.readStatements_blank]
  rfl

def driveMembers (drive : DriveSettings) : List (String × Value) :=
  [("channel", .string drive.channel), ("power", .float drive.power),
    ("default_duration_secs", .float drive.defaultDurationSecs),
    ("poll_interval_ms", .integer drive.pollIntervalMs.toNat)]

def timingMembers (timing : TimingSettings) : List (String × Value) :=
  [("hold_interval_ms", .integer timing.holdIntervalMs.toNat),
    ("breakpoint_poll_ms", .integer timing.breakpointPollMs.toNat)]

/-- The members of the table that a settings file holds. -/
def members (settings : Settings) : List (String × Value) :=
  [("document_path", .string settings.documentPath), ("log_dir", .string settings.logDirectory),
    ("drive", .table (driveMembers settings.drive)),
    ("timing", .table (timingMembers settings.timing))]

theorem carryOutAll?_statements (settings : Settings) :
    ∃ state, Toml.carryOutAll? ReaderState.initial (statements settings) = some state ∧
      Toml.memberValues state.root = members settings :=
  ⟨_, rfl, rfl⟩

theorem readCount_toNat (count : UInt64) : readCount (.integer count.toNat) = some count := by
  have bounded : (0 : Int) ≤ count.toNat ∧ (count.toNat : Int) < 2 ^ 64 := by
    have := count.toNat_lt
    omega
  rw [readCount, if_pos bounded, Int.toNat_natCast, UInt64.ofNat_toNat]

/-! Readers see a section through its fields alone. -/

theorem readDrive_of_fields {group channel power duration poll : Value} {drive : DriveSettings}
    (found : fields driveNames group = some [some channel, some power, some duration, some poll])
    (isChannel : readText channel = some drive.channel)
    (isPower : readNumber power = some drive.power)
    (isDuration : readNumber duration = some drive.defaultDurationSecs)
    (isPoll : readCount poll = some drive.pollIntervalMs) : readDrive group = some drive := by
  unfold readDrive
  generalize DriveSettings.initial = initial
  rw [found]
  simp [orInitial, isChannel, isPower, isDuration, isPoll]

theorem readTiming_of_fields {group hold poll : Value} {timing : TimingSettings}
    (found : fields timingNames group = some [some hold, some poll])
    (isHold : readCount hold = some timing.holdIntervalMs)
    (isPoll : readCount poll = some timing.breakpointPollMs) :
    readTiming group = some timing := by
  unfold readTiming
  generalize TimingSettings.initial = initial
  rw [found]
  simp [orInitial, isHold, isPoll]

theorem ofMembers_of_named {members : List (String × Value)} {document log drive timing : Value}
    {settings : Settings}
    (found : membersNamed settingsNames members =
      some [some document, some log, some drive, some timing])
    (isDocument : readText document = some settings.documentPath)
    (isLog : readText log = some settings.logDirectory)
    (isDrive : readDrive drive = some settings.drive)
    (isTiming : readTiming timing = some settings.timing) : ofMembers members = some settings := by
  unfold ofMembers
  generalize Settings.initial = initial
  rw [found]
  simp [orInitial, isDocument, isLog, isDrive, isTiming]

theorem readDrive_driveMembers (drive : DriveSettings) :
    readDrive (.table (driveMembers drive)) = some drive := by
  have found : fields driveNames (.table (driveMembers drive)) =
      some [some (.string drive.channel), some (.float drive.power),
        some (.float drive.defaultDurationSecs), some (.integer drive.pollIntervalMs.toNat)] := by
    simp [fields, membersNamed, driveNames, driveMembers, List.lookup_cons]
  exact readDrive_of_fields found rfl rfl rfl (readCount_toNat _)

theorem readTiming_timingMembers (timing : TimingSettings) :
    readTiming (.table (timingMembers timing)) = some timing := by
  have found : fields timingNames (.table (timingMembers timing)) =
      some [some (.integer timing.holdIntervalMs.toNat),
        some (.integer timing.breakpointPollMs.toNat)] := by
    simp [fields, membersNamed, timingNames, timingMembers, List.lookup_cons]
  exact readTiming_of_fields found (readCount_toNat _) (readCount_toNat _)

theorem ofMembers_members (settings : Settings) : ofMembers (members settings) = some settings := by
  have found : membersNamed settingsNames (members settings) =
      some [some (.string settings.documentPath), some (.string settings.logDirectory),
        some (.table (driveMembers settings.drive)),
        some (.table (timingMembers settings.timing))] := by
    simp [membersNamed, settingsNames, members, List.lookup_cons]
  exact ofMembers_of_named found rfl rfl (readDrive_driveMembers _) (readTiming_timingMembers _)

/-! The whole file. -/

/-- A default duration that is a span of time is a number above zero and below infinity. -/
theorem isMagnitude_of_defaultDuration {drive : DriveSettings} {timed : Duration}
    (default : drive.defaultDuration = .ok timed) : IsMagnitude drive.defaultDurationSecs := by
  have lasts := DriveSettings.defaultDuration_eq_ok_iff.mp default
  obtain ⟨sign, nonzero⟩ := Binary64.sign_of_zero_lt lasts.positive
  exact ⟨sign, beq_false_of_ne (Nat.ne_of_gt nonzero), lasts.finite⟩

/-- Valid settings have a power and a duration above zero and below infinity. -/
theorem isMagnitude_of_validate {settings : Settings} (valid : settings.validate = .ok ()) :
    IsMagnitude settings.drive.power ∧ IsMagnitude settings.drive.defaultDurationSecs := by
  have isPower := Settings.isPower_of_validate valid
  obtain ⟨positive, nonzero, _⟩ := isPower.sign_and_word
  obtain ⟨_, default⟩ := Settings.exists_defaultDuration_of_validate valid
  exact ⟨⟨positive, beq_false_of_ne (Nat.ne_of_gt nonzero), isPower.isFinite_eq⟩,
    isMagnitude_of_defaultDuration default⟩

theorem exists_toList_write (settings : Settings) :
    ∃ rest, (write settings).toList = "document_path".toList ++ rest := by
  simp only [write, line, String.toList_append, List.append_assoc]
  exact ⟨_, rfl⟩

/-- Valid settings are read back from what is written of them. -/
theorem read_write {settings : Settings} (valid : settings.validate = .ok ()) :
    read (write settings) = .ok settings := by
  obtain ⟨power, duration⟩ := isMagnitude_of_validate valid
  obtain ⟨state, carried, values⟩ := carryOutAll?_statements settings
  obtain ⟨rest, text⟩ := exists_toList_write settings
  have unmarked : Toml.dropMark (write settings).toList = (write settings).toList := by
    rw [text]
    rfl
  have statementsRead : readStatements ((write settings).toList.length + 1)
      (write settings).toList = some (statements settings) := by
    have long : (write settings).toList.length + 1 = rest.length + 14 := by
      rw [text, List.length_append]
      simp
      omega
    rw [long]
    exact readStatements_write power duration rest.length
  have reads : Toml.read? (write settings) = some (members settings) := by
    rw [Toml.read?, unmarked]
    simp only [statementsRead, carried, values, Option.bind_eq_bind, Option.bind_some]
  rw [read, reads, Option.bind_some, ofMembers_members]

end RobotRoutine.SettingsFile
