import RobotRoutine.Failure.Basic
import RobotRoutine.Number.Duration
import RobotRoutine.Number.Layout
import RobotRoutine.Text.Blank

/-!
The settings of the runner.

Settings name the action document and the log directory and say how the robot drives and how long it
waits.  Only settings that pass `validate` are ever loaded or written.
-/

namespace RobotRoutine

structure DriveSettings where
  channel : String
  power : Binary64
  defaultDurationSecs : Binary64
  /-- The pause between two looks at liveness in a timed drive. -/
  pollIntervalMs : UInt64
  deriving DecidableEq

structure TimingSettings where
  /-- The time between two refreshes of a held fault. -/
  holdIntervalMs : UInt64
  /-- The pause between two looks at the operator at a breakpoint. -/
  breakpointPollMs : UInt64
  deriving DecidableEq

structure Settings where
  documentPath : String
  logDirectory : String
  drive : DriveSettings
  timing : TimingSettings
  deriving DecidableEq

inductive SettingsError where
  | channelEmpty
  | powerOutOfRange
  | durationNotPositive
  | durationUnrepresentable (seconds : Binary64) (cause : Duration.SecondsError)
  | holdIntervalZero
  | breakpointPollZero
  deriving DecidableEq

namespace SettingsError

def text : SettingsError → String
  | channelEmpty => "drive.channel must be non-empty"
  | powerOutOfRange => "drive.power must be in (0, 1]"
  | durationNotPositive => "drive.default_duration_secs must be > 0"
  | durationUnrepresentable seconds cause =>
      s!"drive.default_duration_secs {seconds.plainText} is not a valid duration: {cause.text}"
  | holdIntervalZero => "timing.hold_interval_ms must be > 0"
  | breakpointPollZero => "timing.breakpoint_poll_ms must be > 0"

end SettingsError

namespace DriveSettings

def initial : DriveSettings where
  channel := "lf"
  power := Binary64.ofRatio false 1 2
  defaultDurationSecs := Binary64.ofNat 3
  pollIntervalMs := 10

def defaultDuration (settings : DriveSettings) : Except SettingsError Duration :=
  if settings.defaultDurationSecs.le Binary64.zero then .error .durationNotPositive
  else
    match Duration.ofSeconds settings.defaultDurationSecs with
    | .ok duration => .ok duration
    | .error cause => .error (.durationUnrepresentable settings.defaultDurationSecs cause)

def pollInterval (settings : DriveSettings) : Duration := .ofMillis settings.pollIntervalMs.toNat

end DriveSettings

namespace TimingSettings

def initial : TimingSettings where
  holdIntervalMs := 1000
  breakpointPollMs := 1

def holdInterval (settings : TimingSettings) : Duration := .ofMillis settings.holdIntervalMs.toNat

def breakpointPoll (settings : TimingSettings) : Duration :=
  .ofMillis settings.breakpointPollMs.toNat

end TimingSettings

namespace Settings

def initial : Settings where
  documentPath := "xml/RobotAction.xml"
  logDirectory := "logs"
  drive := .initial
  timing := .initial

/-- Refuses settings under which a run could not drive or would not wait. -/
def validate (settings : Settings) : Except SettingsError Unit :=
  if Text.isAllBlank settings.drive.channel then .error .channelEmpty
  else if !(Binary64.zero.lt settings.drive.power && settings.drive.power.le Binary64.one) then
    .error .powerOutOfRange
  else
    match settings.drive.defaultDuration with
    | .error error => .error error
    | .ok _ =>
        if settings.timing.holdIntervalMs = 0 then .error .holdIntervalZero
        else if settings.timing.breakpointPollMs = 0 then .error .breakpointPollZero
        else .ok ()

end Settings

end RobotRoutine
