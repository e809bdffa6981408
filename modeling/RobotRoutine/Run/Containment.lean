import RobotRoutine.Failure.Fault
import RobotRoutine.Program.HostTask

/-!
The containment of faults around a whole run.

Whatever ends the body of a run is classified.  A cancellation is over at once; any other fault is
written to the run log and held on the display until the host asks for the stop, so a run never ends
on a fault by itself.  At the end the run log is closed and the display flushed.
-/

namespace RobotRoutine

/-- How a contained run ended. -/
inductive Containment where
  | completed
  /-- The host interrupted the run; nothing was held. -/
  | cancelled
  /-- A fault was shown for a number of refreshes until the host stopped it. -/
  | held (fault : Fault) (cycles : Nat)
  deriving DecidableEq, Repr

structure ContainmentContext where
  /-- The name of the run. -/
  tag : String
  holdInterval : Duration
  /-- The number of refreshes that a hold is granted. -/
  patience : Nat

def Crash.failure (crash : Crash) : Failure := .plain s!"panic: {crash.message}"

namespace ContainmentContext

def report (context : ContainmentContext) : Fault → Task Empty Unit
  | .cancellation => pure ()
  | .domain tag message => Task.record .error tag message
  | .unclassified message =>
      Task.record .error context.tag s!"Unexpected failure: {message}"

def caption (context : ContainmentContext) : Fault → String
  | .unclassified _ => s!"{context.tag} fatal Exception"
  | _ => s!"{context.tag} fatal error"

/-- The turns of a hold: the fault is shown, and after a pause the stop request is looked at.  Gives
the number of turns, those before included. -/
def holdTurns (context : ContainmentContext) (fault : Fault) (before : Nat) :
    Nat → Task Empty Nat
  | 0 => Task.waiting
  | turns + 1 => do
      Task.addItem (context.caption fault) (fault.message?.getD "")
      Task.ignoringFailure (Program.robot .refresh)
      Task.clearItems
      Task.pause context.holdInterval
      if ← Task.isStopRequested then pure (before + 1)
      else holdTurns context fault (before + 1) turns

def hold (context : ContainmentContext) (fault : Fault) : Task Empty Nat :=
  context.holdTurns fault 0 context.patience

def finish (containment : Containment) : Task Empty Containment := do
  Task.closeLog
  Task.ignoringFailure (Program.robot .flushDisplay)
  pure containment

def settle (context : ContainmentContext) (failure : Failure) : Task Empty Containment :=
  match failure.fault with
  | .cancellation => do
      Task.record .info context.tag "Run interrupted"
      finish .cancelled
  | fault => do
      context.report fault
      let cycles ← context.hold fault
      finish (.held fault cycles)

def contain (context : ContainmentContext) : Outcome Failure Unit → Task Empty Containment
  | .value _ => finish .completed
  | .error failure => context.settle failure
  | .crash crash => context.settle crash.failure
  | .halted => Task.halted
  | .waiting => Task.waiting

def guard (context : ContainmentContext) (body : Task Failure Unit) : Task Empty Containment :=
  Program.bind body context.contain

end ContainmentContext

end RobotRoutine
