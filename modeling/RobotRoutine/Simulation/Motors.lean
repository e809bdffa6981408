import RobotRoutine.Program.Call

/-!
Simulated motors.

A motor keeps its power and counts encoder clicks in proportion to power and time.  Power beyond
full power has the effect of full power.
-/

namespace RobotRoutine

structure Motor where
  name : String
  power : Binary64
  mode : MotorMode
  position : Binary64
  since : Duration
  deriving DecidableEq

namespace Motor

/-- Encoder clicks in a second at full power: 1120 clicks a turn at 150 turns a minute. -/
def clicksPerSecond : Binary64 := Binary64.ofNat 2800

def atRest (now : Duration) (name : String) : Motor :=
  ⟨name, Binary64.zero, .runWithoutEncoder, Binary64.zero, now⟩

def positionAt (motor : Motor) (now : Duration) : Binary64 :=
  motor.position + motor.power * clicksPerSecond * (now - motor.since).toSeconds

def setPower (motor : Motor) (now : Duration) (power : Binary64) : Motor :=
  { motor with
    position := motor.positionAt now
    since := now
    power := Binary64.clamp (-Binary64.one) Binary64.one power }

/-- Sets the mode of a motor; resetting the encoder makes the place where it stands the position
zero. -/
def setMode (motor : Motor) (now : Duration) (mode : MotorMode) : Motor :=
  match mode with
  | .stopAndResetEncoder => { motor with mode, position := Binary64.zero, since := now }
  | _ => { motor with mode }

end Motor

/-- Motors, the place in the list being the channel, with a record of the power asked for. -/
structure Motors where
  motors : List Motor
  powerLog : List (ChannelId × Binary64)

namespace Motors

def ofNames (now : Duration) (names : List String) : Motors :=
  ⟨names.map (Motor.atRest now), []⟩

def findChannel (motors : Motors) (name : String) : Except Failure ChannelId :=
  match motors.motors.findIdx? fun motor => motor.name == name with
  | some index => .ok ⟨index⟩
  | none => .error (.plain s!"no hardware named '{name}'")

def motor (motors : Motors) (channel : ChannelId) : Except Failure Motor :=
  match motors.motors[channel.index]? with
  | some motor => .ok motor
  | none => .error (.plain s!"unknown channel {channel.index}")

def put (motors : Motors) (channel : ChannelId) (motor : Motor) : Motors :=
  { motors with motors := motors.motors.set channel.index motor }

def setPower (motors : Motors) (now : Duration) (channel : ChannelId) (power : Binary64) :
    Except Failure Motors := do
  let motor ← motors.motor channel
  let changed := motors.put channel (motor.setPower now power)
  pure { changed with powerLog := motors.powerLog ++ [(channel, power)] }

def setMode (motors : Motors) (now : Duration) (channel : ChannelId) (mode : MotorMode) :
    Except Failure Motors := do
  let motor ← motors.motor channel
  pure (motors.put channel (motor.setMode now mode))

def position (motors : Motors) (now : Duration) (channel : ChannelId) :
    Except Failure Binary64 := do
  let motor ← motors.motor channel
  pure (motor.positionAt now)

/-- The power of the motor on a channel, zero where there is none. -/
def power (motors : Motors) (channel : ChannelId) : Binary64 :=
  match motors.motors[channel.index]? with
  | some motor => motor.power
  | none => Binary64.zero

def mode? (motors : Motors) (channel : ChannelId) : Option MotorMode :=
  motors.motors[channel.index]?.map fun motor => motor.mode

end Motors

end RobotRoutine
