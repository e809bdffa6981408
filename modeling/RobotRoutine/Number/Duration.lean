import RobotRoutine.Number.Binary64

/-!
Spans of time in whole nanoseconds.

A span given in seconds is rounded to the nearest nanosecond, ties to even, so a positive number of
seconds may give the empty span.
-/

namespace RobotRoutine

structure Duration where
  nanos : Nat
  deriving DecidableEq, Repr

namespace Duration

def zero : Duration := ⟨0⟩

instance : Inhabited Duration := ⟨zero⟩

def ofMillis (n : Nat) : Duration := ⟨n * 1000000⟩

def ofMicros (n : Nat) : Duration := ⟨n * 1000⟩

def ofSecs (n : Nat) : Duration := ⟨n * 1000000000⟩

def secs (d : Duration) : Nat := d.nanos / 1000000000

def subsecNanos (d : Duration) : Nat := d.nanos % 1000000000

def millis (d : Duration) : Nat := d.nanos / 1000000

def add (d e : Duration) : Duration := ⟨d.nanos + e.nanos⟩

def sub (d e : Duration) : Duration := ⟨d.nanos - e.nanos⟩

instance : Add Duration := ⟨add⟩
instance : Sub Duration := ⟨sub⟩
instance : LT Duration := ⟨fun d e => d.nanos < e.nanos⟩
instance : LE Duration := ⟨fun d e => d.nanos ≤ e.nanos⟩
instance (d e : Duration) : Decidable (d < e) := inferInstanceAs (Decidable (d.nanos < e.nanos))
instance (d e : Duration) : Decidable (d ≤ e) := inferInstanceAs (Decidable (d.nanos ≤ e.nanos))

/-- A span in seconds.  The whole seconds and what is left of them are rounded before their sum
is. -/
def toSeconds (d : Duration) : Binary64 :=
  Binary64.ofNat d.secs + Binary64.ofRatio false d.subsecNanos 1000000000

inductive SecondsError where
  | negative
  | tooBigOrNotANumber
  deriving DecidableEq

/-- The longest span has fewer than `2 ^ 64` whole seconds. -/
def secsLimit : Nat := 2 ^ 64

def ofSeconds (x : Binary64) : Except SecondsError Duration :=
  if x.lt Binary64.zero then .error .negative
  else if !x.isFinite then .error .tooBigOrNotANumber
  else
    let (num, den) := x.toRatio
    let nanos := Number.roundDiv (num.natAbs * 1000000000) den
    if nanos / 1000000000 < secsLimit then .ok ⟨nanos⟩ else .error .tooBigOrNotANumber

def SecondsError.text : SecondsError → String
  | .negative => "cannot convert float seconds to Duration: value is negative"
  | .tooBigOrNotANumber =>
      "cannot convert float seconds to Duration: value is either too big or NaN"

end Duration

end RobotRoutine
