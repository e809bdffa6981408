import RobotRoutine.Configuration
import RobotRoutine.Failure.Basic
import RobotRoutine.Number.Duration

/-!
The calls that a run makes and the replies to them.

The robot side answers for liveness and operator, drive hardware, display and zone classifier; the
host side for time, run log, files and standard streams.  A call that may go wrong is answered with
a value, with a failure, or not at all: the one who should answer crashed.
-/

namespace RobotRoutine

/-- A hardware channel, resolved once by its name. -/
structure ChannelId where
  index : Nat
  deriving DecidableEq, Repr

inductive MotorMode where
  | stopAndResetEncoder
  | runUsingEncoder
  | runWithoutEncoder
  deriving DecidableEq, Repr

/-- What is left of a crash: a text, or something that shows none. -/
inductive Crash where
  | text (message : String)
  | mute
  deriving DecidableEq, Repr

def Crash.message : Crash → String
  | .text message => message
  | .mute => "unknown panic"

inductive Answer (α : Type) where
  | ok (value : α)
  | failed (failure : Failure)
  | crashed (crash : Crash)

/-- The answer to a call that gives nothing and cannot fail: it returned, or crashed. -/
inductive Receipt where
  | returned
  | crashed (crash : Crash)
  deriving DecidableEq, Repr

instance : Coe Unit Receipt := ⟨fun _ => .returned⟩

inductive LogLevel where
  | error
  | info
  | debug
  | verbose
  | veryVerbose
  deriving DecidableEq, Repr

namespace LogLevel

/-- The place of a level from the least verbose on. -/
def rank : LogLevel → Nat
  | error => 0
  | info => 1
  | debug => 2
  | verbose => 3
  | veryVerbose => 4

def label : LogLevel → String
  | error => "E"
  | info => "I"
  | debug => "D"
  | verbose => "V"
  | veryVerbose => "VV"

/-- The most verbose level that a document's threshold lets in. -/
def ofThreshold : Option LogThreshold → LogLevel
  | none => info
  | some .debug => debug
  | some .verbose => verbose
  | some .veryVerbose => veryVerbose

end LogLevel

inductive RobotCall where
  /-- May the run go on? -/
  | isActive
  /-- Has the host asked for the stop? -/
  | isStopRequested
  /-- Has the operator pressed since the last such call? -/
  | operatorSignal
  /-- Marks the run as started, once the host allows it. -/
  | waitForStart
  | findChannel (name : String)
  | setPower (channel : ChannelId) (power : Binary64)
  | setMode (channel : ChannelId) (mode : MotorMode)
  | readSensor (channel : ChannelId)
  | addItem (caption value : String)
  | refresh
  | clearItems
  | flushDisplay
  | currentZone
  deriving DecidableEq

@[reducible] def RobotCall.Reply : RobotCall → Type
  | .isActive => Bool
  | .isStopRequested => Bool
  | .operatorSignal => Bool
  | .waitForStart => Answer Unit
  | .findChannel _ => Answer ChannelId
  | .setPower _ _ => Answer Unit
  | .setMode _ _ => Answer Unit
  | .readSensor _ => Answer Binary64
  | .addItem _ _ => Receipt
  | .refresh => Answer Unit
  | .clearItems => Receipt
  | .flushDisplay => Answer Unit
  | .currentZone => Answer Zone

inductive HostCall where
  | now
  | pause (duration : Duration)
  | openLog (directory selector : String)
  | record (level : LogLevel) (tag text : String)
  | setThreshold (threshold : Option LogThreshold)
  | closeLog
  | pathExists (path : String)
  | readText (path : String)
  | makeDirectories (path : String)
  | writeText (path text : String)
  | rename (source target : String)
  | print (text : String)
  | printError (text : String)
  deriving DecidableEq

@[reducible] def HostCall.Reply : HostCall → Type
  | .now => Duration
  | .pause _ => Unit
  | .openLog _ _ => Unit
  | .record _ _ _ => Unit
  | .setThreshold _ => Unit
  | .closeLog => Unit
  | .pathExists _ => Bool
  | .readText _ => Except SystemError String
  | .makeDirectories _ => Except SystemError Unit
  | .writeText _ _ => Except SystemError Unit
  | .rename _ _ => Except SystemError Unit
  | .print _ => Unit
  | .printError _ => Unit

inductive Call where
  | robot (call : RobotCall)
  | host (call : HostCall)
  deriving DecidableEq

@[reducible] def Call.Reply : Call → Type
  | .robot call => call.Reply
  | .host call => call.Reply

end RobotRoutine
