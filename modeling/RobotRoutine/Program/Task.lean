import RobotRoutine.Program.Basic

/-!
Tasks: programs that may end early.

A task ends with a value, with an error, or by a crash that unwinds it.  A crash while another one
unwinds halts everything.  A loop that waits for the outside is granted a number of turns; when they
are used up, the task is still waiting, which is none of the other endings.
-/

namespace RobotRoutine

inductive Outcome (ε α : Type) where
  | value (result : α)
  | error (error : ε)
  | crash (crash : Crash)
  | halted
  | waiting

def Task (ε α : Type) := Program (Outcome ε α)

namespace Task

variable {ε δ α β : Type}

def result (a : α) : Task ε α := Program.done (.value a)

def throw (error : ε) : Task ε α := Program.done (.error error)

def crash (crash : Crash) : Task ε α := Program.done (.crash crash)

def halted : Task ε α := Program.done .halted

def waiting : Task ε α := Program.done .waiting

/-- What follows an outcome: `next` after a value, nothing after any other. -/
def after (next : α → Task ε β) : Outcome ε α → Task ε β
  | .value a => next a
  | .error error => throw error
  | .crash c => crash c
  | .halted => halted
  | .waiting => waiting

/-- Goes on with `next` after a value; every other outcome ends the task. -/
def bind (task : Task ε α) (next : α → Task ε β) : Task ε β :=
  Program.bind task (after next)

instance : Monad (Task ε) where
  pure := result
  bind := bind

theorem bind_assoc {γ : Type} (task : Task ε α) (f : α → Task ε β) (g : β → Task ε γ) :
    (task.bind f).bind g = task.bind fun a => (f a).bind g :=
  (Program.bind_assoc task (after f) (after g)).trans
    (congrArg (Program.bind task) (funext fun outcome => by cases outcome <;> rfl))

theorem bind_result (task : Task ε α) : task.bind result = task :=
  have same : after (result : α → Task ε α) = Program.done :=
    funext fun outcome => by cases outcome <;> rfl
  (congrArg (Program.bind task) same).trans (Program.bind_done task)

instance : LawfulMonad (Task ε) :=
  LawfulMonad.mk' (Task ε) (fun task => bind_result task) (fun _ _ => rfl) bind_assoc

def ofProgram (program : Program α) : Task ε α := program.bind result

def ofExcept : Except ε α → Task ε α
  | .ok a => result a
  | .error error => throw error

/-- The value of an answer; a failure becomes an error, a crash unwinds. -/
def ofAnswer (toError : Failure → ε) : Answer α → Task ε α
  | .ok a => result a
  | .failed failure => throw (toError failure)
  | .crashed c => crash c

def ofReceipt : Receipt → Task ε Unit
  | .returned => result ()
  | .crashed c => crash c

def mapError (f : ε → δ) (task : Task ε α) : Task δ α :=
  Program.bind task fun
    | .value a => result a
    | .error error => throw (f error)
    | .crash c => crash c
    | .halted => halted
    | .waiting => waiting

/-! The calls of a run. -/

def isActive : Task ε Bool := ofProgram (Program.robot .isActive)

def isStopRequested : Task ε Bool := ofProgram (Program.robot .isStopRequested)

def operatorSignal : Task ε Bool := ofProgram (Program.robot .operatorSignal)

def addItem (caption value : String) : Task ε Unit :=
  (ofProgram (Program.robot (.addItem caption value))).bind ofReceipt

def clearItems : Task ε Unit := (ofProgram (Program.robot .clearItems)).bind ofReceipt

def now : Task ε Duration := ofProgram (Program.host .now)

def pause (duration : Duration) : Task ε Unit := ofProgram (Program.host (.pause duration))

def record (level : LogLevel) (tag text : String) : Task ε Unit :=
  ofProgram (Program.host (.record level tag text))

def waitForStart (toError : Failure → ε) : Task ε Unit :=
  (ofProgram (Program.robot .waitForStart)).bind (ofAnswer toError)

def findChannel (toError : Failure → ε) (name : String) : Task ε ChannelId :=
  (ofProgram (Program.robot (.findChannel name))).bind (ofAnswer toError)

def setPower (toError : Failure → ε) (channel : ChannelId) (power : Binary64) : Task ε Unit :=
  (ofProgram (Program.robot (.setPower channel power))).bind (ofAnswer toError)

def setMode (toError : Failure → ε) (channel : ChannelId) (mode : MotorMode) : Task ε Unit :=
  (ofProgram (Program.robot (.setMode channel mode))).bind (ofAnswer toError)

def readSensor (toError : Failure → ε) (channel : ChannelId) : Task ε Binary64 :=
  (ofProgram (Program.robot (.readSensor channel))).bind (ofAnswer toError)

def refresh (toError : Failure → ε) : Task ε Unit :=
  (ofProgram (Program.robot .refresh)).bind (ofAnswer toError)

def currentZone (toError : Failure → ε) : Task ε Zone :=
  (ofProgram (Program.robot .currentZone)).bind (ofAnswer toError)

def ignoringFailure (answer : Program (Answer Unit)) : Task ε Unit :=
  (ofProgram answer).bind fun
    | .ok _ => result ()
    | .failed _ => result ()
    | .crashed c => crash c

end Task

end RobotRoutine
