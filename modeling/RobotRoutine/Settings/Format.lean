import RobotRoutine.Settings.Basic
import RobotRoutine.Toml.Reader

/-!
Settings files.

A settings file has the two paths at its top and a section each for the drive and the timing.  What
a file leaves out keeps its initial value, and names that mean nothing here are passed
over.  Instead of a section its values may also stand in an array, in the order in which they are
written here.
-/

namespace RobotRoutine

open Toml (Value)

/-- Why a settings file gives no settings; only the fact is of interest. -/
inductive FormatError where
  | unreadable
  deriving DecidableEq, Repr

def FormatError.text : FormatError → String
  | unreadable => "<toml>"

namespace SettingsFile

/-! Reading. -/

def readText : Value → Option String
  | .string text => some text
  | _ => none

def readCount : Value → Option UInt64
  | .integer value =>
      if 0 ≤ value ∧ value < 2 ^ 64 then some (UInt64.ofNat value.toNat) else none
  | _ => none

def readNumber : Value → Option Binary64
  | .float value => some value
  | .integer value =>
      if -(2 ^ 63 : Int) ≤ value ∧ value < 2 ^ 64 then
        some (Binary64.ofRatio (decide (value < 0)) value.natAbs 1)
      else none
  | _ => none

/-- The value of a field, its initial value if the file leaves it out. -/
def orInitial {α : Type} (read : Value → Option α) (initial : α) : Option Value → Option α
  | none => some initial
  | some value => read value

/-- The members that names stand for.  Other members must be readable, though nothing reads them. -/
def membersNamed (names : List String) (members : List (String × Value)) :
    Option (List (Option Value)) :=
  if members.all fun (name, value) => names.contains name || value.isReadable then
    some (names.map fun name => members.lookup name)
  else none

/-- The values of the fields with these names, in whatever shape a section has.  A date stands for a
section in which nothing is given. -/
def fields (names : List String) : Value → Option (List (Option Value))
  | .table members => membersNamed names members
  | .array items => some ((List.range names.length).map fun place => items[place]?)
  | .moment => some (names.map fun _ => none)
  | _ => none

def driveNames : List String := ["channel", "power", "default_duration_secs", "poll_interval_ms"]

def readDrive (value : Value) : Option DriveSettings := do
  let found ← fields driveNames value
  let initial := DriveSettings.initial
  let channel ← orInitial readText initial.channel (found.getD 0 none)
  let power ← orInitial readNumber initial.power (found.getD 1 none)
  let defaultDurationSecs ← orInitial readNumber initial.defaultDurationSecs (found.getD 2 none)
  let pollIntervalMs ← orInitial readCount initial.pollIntervalMs (found.getD 3 none)
  pure { channel, power, defaultDurationSecs, pollIntervalMs }

def timingNames : List String := ["hold_interval_ms", "breakpoint_poll_ms"]

def readTiming (value : Value) : Option TimingSettings := do
  let found ← fields timingNames value
  let initial := TimingSettings.initial
  let holdIntervalMs ← orInitial readCount initial.holdIntervalMs (found.getD 0 none)
  let breakpointPollMs ← orInitial readCount initial.breakpointPollMs (found.getD 1 none)
  pure { holdIntervalMs, breakpointPollMs }

def settingsNames : List String := ["document_path", "log_dir", "drive", "timing"]

def ofMembers (members : List (String × Value)) : Option Settings := do
  let found ← membersNamed settingsNames members
  let initial := Settings.initial
  let documentPath ← orInitial readText initial.documentPath (found.getD 0 none)
  let logDirectory ← orInitial readText initial.logDirectory (found.getD 1 none)
  let drive ← orInitial readDrive initial.drive (found.getD 2 none)
  let timing ← orInitial readTiming initial.timing (found.getD 3 none)
  pure { documentPath, logDirectory, drive, timing }

def read (text : String) : Except FormatError Settings :=
  match (Toml.read? text).bind ofMembers with
  | some settings => .ok settings
  | none => .error .unreadable

/-! Writing. -/

def line (key value : String) : String := key ++ " = " ++ value ++ "\n"

def writeDrive (drive : DriveSettings) : String :=
  line "channel" (Toml.quote drive.channel) ++
    line "power" drive.power.pointText ++
    line "default_duration_secs" drive.defaultDurationSecs.pointText ++
    line "poll_interval_ms" (toString drive.pollIntervalMs.toNat)

def writeTiming (timing : TimingSettings) : String :=
  line "hold_interval_ms" (toString timing.holdIntervalMs.toNat) ++
    line "breakpoint_poll_ms" (toString timing.breakpointPollMs.toNat)

def write (settings : Settings) : String :=
  line "document_path" (Toml.quote settings.documentPath) ++
    line "log_dir" (Toml.quote settings.logDirectory) ++
    "\n[drive]\n" ++ writeDrive settings.drive ++
    "\n[timing]\n" ++ writeTiming settings.timing ++ "\n"

end SettingsFile

end RobotRoutine
