import RobotRoutine.Number.Duration
import RobotRoutine.Text.Blank

/-!
Liveness and operator at a console.

The host starts a run and may ask for its stop; the end of the run period is a stop request as well.
An empty console line is a press of the operator, and a press counts once.

The flags of a control are shared by all its clones: the host keeps a clone and so does the engine,
and what one of them sets the other sees.
-/

namespace RobotRoutine

structure ConsoleFlags where
  started : Bool
  stop : Bool
  signal : Bool
  deriving DecidableEq

structure RunTerm where
  launched : Duration
  /-- How long after the launch the run may go on. -/
  period : Duration
  deriving DecidableEq

structure ConsoleControl extends ConsoleFlags, RunTerm where
  deriving DecidableEq

/-- A call to a control. -/
inductive ControlCall where
  | waitForStart
  | requestStop
  | pressSignal
  | applyLine (line : String)
  | isActive
  | isStopRequested
  | operatorSignal
  deriving DecidableEq, Repr

/-- Only questions are answered. -/
def ControlCall.Reply : ControlCall → Type
  | .isActive | .isStopRequested | .operatorSignal => Bool
  | _ => Unit

namespace ConsoleControl

def launch (now period : Duration) : ConsoleControl := ⟨⟨false, false, false⟩, ⟨now, period⟩⟩

def start (control : ConsoleControl) : ConsoleControl := { control with started := true }

def requestStop (control : ConsoleControl) : ConsoleControl := { control with stop := true }

def pressSignal (control : ConsoleControl) : ConsoleControl := { control with signal := true }

/-- Has the stop been asked for, or has the period ended? -/
def isStopRequested (control : ConsoleControl) (now : Duration) : Bool :=
  control.stop || control.period ≤ now - control.launched

/-- May the run go on? -/
def isActive (control : ConsoleControl) (now : Duration) : Bool :=
  control.started && !control.isStopRequested now

/-- Has the operator pressed?  The press is used up by the answer. -/
def takeSignal (control : ConsoleControl) : Bool × ConsoleControl :=
  (control.signal, { control with signal := false })

/-- Applies a console line, whose blanks at both ends do not count. -/
def applyLine (control : ConsoleControl) (line : String) : ConsoleControl :=
  let word := Text.trim line
  if word = "" then control.pressSignal
  else if word = "stop" ∨ word = "q" then control.requestStop
  else control

def applyLines (control : ConsoleControl) (lines : List String) : ConsoleControl :=
  lines.foldl applyLine control

def reply (control : ConsoleControl) (now : Duration) : (call : ControlCall) → call.Reply
  | .isActive => control.isActive now
  | .isStopRequested => control.isStopRequested now
  | .operatorSignal => control.takeSignal.1
  | .waitForStart | .requestStop | .pressSignal | .applyLine _ => ()

/-- The control after a call. -/
def afterCall (control : ConsoleControl) : ControlCall → ConsoleControl
  | .waitForStart => control.start
  | .requestStop => control.requestStop
  | .pressSignal => control.pressSignal
  | .applyLine line => control.applyLine line
  | .isActive | .isStopRequested => control
  | .operatorSignal => control.takeSignal.2

end ConsoleControl

/-- The flags of a control, the clones through which they are reached, and the moment of the last
call. -/
structure SharedControl where
  flags : ConsoleFlags
  clones : List RunTerm
  now : Duration
  deriving DecidableEq

/-- A call to a clone, its moment and its reply. -/
structure ControlEvent where
  moment : Duration
  call : ControlCall
  reply : call.Reply

namespace SharedControl

def launch (now period : Duration) : SharedControl :=
  ⟨(ConsoleControl.launch now period).toConsoleFlags, [⟨now, period⟩], now⟩

/-- The control as one of its clones sees it. -/
def through (shared : SharedControl) (clone : RunTerm) : ConsoleControl := ⟨shared.flags, clone⟩

/-- A call through a clone at a moment. -/
def serve (shared : SharedControl) (clone : RunTerm) (moment : Duration) (call : ControlCall) :
    ControlEvent × SharedControl :=
  (⟨moment, call, (shared.through clone).reply moment call⟩,
    { shared with
      flags := ((shared.through clone).afterCall call).toConsoleFlags
      now := moment })

/-- The holders of the clones clone them and call through them, in any order and one call at a time;
the clock does not go back. -/
inductive Follows : SharedControl → List ControlEvent → SharedControl → Prop
  | rest (shared : SharedControl) : Follows shared [] shared
  | clone {shared last : SharedControl} {clone : RunTerm} {events : List ControlEvent} :
      clone ∈ shared.clones →
      Follows { shared with clones := clone :: shared.clones } events last →
      Follows shared events last
  | call {shared last : SharedControl} {events : List ControlEvent} (clone : RunTerm)
      (moment : Duration) (call : ControlCall) :
      clone ∈ shared.clones → shared.now ≤ moment →
      Follows (shared.serve clone moment call).2 events last →
      Follows shared ((shared.serve clone moment call).1 :: events) last

end SharedControl

end RobotRoutine
