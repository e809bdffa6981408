import RobotRoutine.Program.Task

/-!
Power that is held for the length of a task.

The channel is set to the power, the body runs, and the channel is set to zero again on every way
out: after the body has given its value, after an error and after a crash, also when setting the
power was what went wrong.  Zeroing is tried once.  Its failure is the error of a body that gave a
value and is passed over otherwise; a crash of it unwinds, and halts everything if a crash is
unwinding already.
-/

namespace RobotRoutine.PowerHold

variable {ε α : Type}

def zeroCall (channel : ChannelId) : Program (Answer Unit) :=
  Program.robot (.setPower channel Binary64.zero)

/-- Zeroes the channel and keeps the error that is on its way out. -/
def zeroAfterError (channel : ChannelId) (error : ε) : Task ε α :=
  (Task.ignoringFailure (zeroCall channel)).bind fun _ => Task.throw error

def zeroAfterCrash (channel : ChannelId) (crash : Crash) : Task ε α :=
  Program.bind (zeroCall channel) fun
    | .ok _ => Task.crash crash
    | .failed _ => Task.crash crash
    | .crashed _ => Task.halted

/-- Zeroes the channel on the way out with a value; here its failure counts. -/
def release (toError : Failure → ε) (channel : ChannelId) (value : α) : Task ε α :=
  (Task.setPower toError channel Binary64.zero).bind fun _ => Task.result value

/-- Takes the power away once the body has ended, in the way its ending asks for. -/
def leave (toError : Failure → ε) (channel : ChannelId) : Outcome ε α → Task ε α
  | .value value => release toError channel value
  | .error error => zeroAfterError channel error
  | .crash crash => zeroAfterCrash channel crash
  | .halted => Task.halted
  | .waiting => Task.waiting

def during (toError : Failure → ε) (channel : ChannelId) (power : Binary64) (body : Task ε α) :
    Task ε α :=
  Program.bind (Program.robot (.setPower channel power)) fun
    | .ok _ => Program.bind body (leave toError channel)
    | .failed failure => zeroAfterError channel (toError failure)
    | .crashed crash => zeroAfterCrash channel crash

end RobotRoutine.PowerHold
