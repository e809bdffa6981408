import RobotRoutine.Action.Step
import RobotRoutine.Failure.Basic
import RobotRoutine.Number.Decimal
import RobotRoutine.Number.Duration
import RobotRoutine.Text.Blank

/-!
The commands that steps stand for.

A step is looked up by its name in capitals and its attributes are read; what it asks for is one of
four commands, or an error that says which part of the step is at fault.
-/

namespace RobotRoutine

inductive Direction where
  | forward
  | reverse
  deriving DecidableEq, Repr

namespace Direction

def sign : Direction → Binary64
  | forward => Binary64.one
  | reverse => -Binary64.one

/-- The power of a drive: its size with the sign of the direction. -/
def power (direction : Direction) (size : Binary64) : Binary64 := direction.sign * size

end Direction

inductive Command where
  | drive (direction : Direction) (duration : Option Duration)
  | sleep (duration : Duration)
  | breakpoint
  | zoneChoice
  deriving DecidableEq

namespace Command

/-- The duration in seconds that a drive asks for, if it asks for one. -/
def optionalSeconds (step : ActionStep) : Except RunError (Option Duration) :=
  match step.attribute? "seconds" with
  | none => .ok none
  | some value =>
      let refused := RunError.invalidValue step.commandName "seconds" value
      match Number.decimal? (Text.trim value) with
      | none => .error refused
      | some seconds =>
          if seconds.le Binary64.zero then .error refused
          else
            match Duration.ofSeconds seconds with
            | .ok duration => .ok (some duration)
            | .error _ => .error refused

def requiredMillis (step : ActionStep) : Except RunError Duration :=
  let value := (step.attribute? "ms").getD ""
  match Number.unsigned? (2 ^ 64) (Text.trim value) with
  | some millis => .ok (.ofMillis millis)
  | none => .error (.invalidValue step.commandName "ms" value)

def resolve (step : ActionStep) : Except RunError Command :=
  let name := step.commandName
  if name = "FORWARD_BY_TIME" then (optionalSeconds step).map (.drive .forward)
  else if name = "REVERSE_BY_TIME" then (optionalSeconds step).map (.drive .reverse)
  else if name = "SLEEP" then (requiredMillis step).map .sleep
  else if name = "BREAKPOINT" then .ok .breakpoint
  else if name = branchMarker then .ok .zoneChoice
  else .error (.unsupportedCommand name)

end Command

end RobotRoutine
