import RobotRoutine.Run.Dispatch

/-!
A world in which nothing goes wrong, and a dispatcher to be run in it.

The robot stays live, every device does what it is asked, the operator presses whenever looked at,
and the clock moves on by a second with every call.
-/

namespace RobotRoutine

def obligingRobot (zone : Zone) : (call : RobotCall) → call.Reply
  | .isActive => true
  | .isStopRequested => true
  | .operatorSignal => true
  | .waitForStart => .ok ()
  | .findChannel _ => .ok ⟨0⟩
  | .setPower _ _ => .ok ()
  | .setMode _ _ => .ok ()
  | .readSensor _ => .ok Binary64.zero
  | .addItem _ _ => .returned
  | .refresh => .ok ()
  | .clearItems => .returned
  | .flushDisplay => .ok ()
  | .currentZone => .ok zone

def obligingHost (clock : Duration) : (call : HostCall) → call.Reply
  | .now => clock
  | .pause _ => ()
  | .openLog _ _ => ()
  | .record _ _ _ => ()
  | .setThreshold _ => ()
  | .closeLog => ()
  | .pathExists _ => true
  | .readText _ => .ok ""
  | .makeDirectories _ => .ok ()
  | .writeText _ _ => .ok ()
  | .rename _ _ => .ok ()
  | .print _ => ()
  | .printError _ => ()

/-- Answers a call at a moment; the next call is answered a second later. -/
def obliging (zone : Zone) : (request : Call) → Duration → request.Reply × Duration
  | .robot call, clock => (obligingRobot zone call, clock + .ofSecs 1)
  | .host call, clock => (obligingHost clock call, clock + .ofSecs 1)

/-- A dispatcher with the settings of a robot without a settings file. -/
def sampleContext : DispatchContext where
  tag := "Autonomous"
  alliance := .red
  driveChannel := ⟨0⟩
  drive := .initial
  timing := .initial
  patience := 9

end RobotRoutine
