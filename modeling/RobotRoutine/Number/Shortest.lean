import RobotRoutine.Number.Binary64

/-!
The shortest decimal that reads back as a given number.

Around every finite number lies the interval of reals that round to it, its ends included exactly
when the significand is even.  Grids of ever more digits are tried; the first grid with a point in
the interval gives the decimal, and of two points the nearer one.  Where the value lies in the
middle of two points, a rule says which is taken.
-/

namespace RobotRoutine

structure Decimal where
  digits : Nat
  exponent : Int
  deriving DecidableEq

namespace Decimal

/-- Compares `digits * 10 ^ exponent` with `num / den`, as the two sides of a cross product. -/
def crossWith (d : Decimal) (num den : Nat) : Nat × Nat :=
  if 0 ≤ d.exponent then (d.digits * 10 ^ d.exponent.toNat * den, num)
  else (d.digits * den, num * 10 ^ (-d.exponent).toNat)

/-- Strips zeros from the end of the digits, at most `bound` of them. -/
def stripZeros : Nat → Decimal → Decimal
  | 0, d => d
  | bound + 1, d =>
      if d.digits % 10 = 0 then stripZeros bound ⟨d.digits / 10, d.exponent + 1⟩ else d

/-- The number of decimal places left of the point of a positive quotient, less one: the power of
ten just below it. -/
def floorLog10 (num den : Nat) : Int :=
  if den ≤ num then (Nat.toDigits 10 (num / den)).length - 1
  else -((Nat.toDigits 10 ((num + den - 1) / num - 1)).length : Int)

end Decimal

namespace Binary64

/-- The interval of reals that round to a finite positive magnitude, over a common denominator. -/
structure Interval where
  low : Nat
  value : Nat
  high : Nat
  den : Nat
  closed : Bool

def interval (x : Binary64) : Interval :=
  let quarter := x.exponent - 2
  let lowGap := if x.word.val % 2 ^ 52 = 0 ∧ 1 < x.word.val / 2 ^ 52 then 1 else 2
  let scale := if 0 ≤ quarter then 2 ^ quarter.toNat else 1
  { low := (4 * x.significand - lowGap) * scale
    value := 4 * x.significand * scale
    high := (4 * x.significand + 2) * scale
    den := if 0 ≤ quarter then 1 else 2 ^ (-quarter).toNat
    closed := x.significand % 2 = 0 }

/-- Which of two neighbouring decimals stands for a value in their middle. -/
inductive MiddleRule where
  /-- The greater one. -/
  | up
  /-- The one whose last digit is even. -/
  | toEven
  deriving DecidableEq, Repr

namespace Interval

def contains (i : Interval) (d : Decimal) : Bool :=
  let (atLow, low) := d.crossWith i.low i.den
  let (atHigh, high) := d.crossWith i.high i.den
  if i.closed then low ≤ atLow && atHigh ≤ high else low < atLow && atHigh < high

/-- The points of the grid `10 ^ exponent` just below and just above the value. -/
def neighbours (i : Interval) (exponent : Int) : Decimal × Decimal :=
  let below :=
    if 0 ≤ exponent then i.value / (i.den * 10 ^ exponent.toNat)
    else i.value * 10 ^ (-exponent).toNat / i.den
  (⟨below, exponent⟩, ⟨below + 1, exponent⟩)

/-- True if the lower of two neighbours stands for the value: it is the nearer one, or the value
lies in their middle and the rule takes it. -/
def takesBelow (rule : MiddleRule) (i : Interval) (below above : Decimal) : Bool :=
  let (b, v) := below.crossWith i.value i.den
  let (a, w) := above.crossWith i.value i.den
  if v - b = a - w then rule = .toEven && below.digits % 2 = 0 else v - b < a - w

/-- The point of a grid that lies in the interval, the nearer one if both neighbours do. -/
def onGrid? (rule : MiddleRule) (i : Interval) (exponent : Int) : Option Decimal :=
  let (below, above) := i.neighbours exponent
  match i.contains below, i.contains above with
  | true, true => some (if takesBelow rule i below above then below else above)
  | true, false => some below
  | false, true => some above
  | false, false => none

/-- The first hit on grids of one, two, … digits, at most seventeen. -/
def firstHit (rule : MiddleRule) (i : Interval) : Decimal :=
  let top := Decimal.floorLog10 i.value i.den
  match (List.range 17).findSome? fun (n : Nat) => i.onGrid? rule (top - n) with
  | some d => d
  | none => (i.neighbours (top - 16)).1

end Interval

/-- The shortest decimal that reads back as the magnitude of a finite number other than zero. -/
def shortest (rule : MiddleRule) (x : Binary64) : Decimal :=
  Decimal.stripZeros 20 (x.interval.firstHit rule)

end Binary64

end RobotRoutine
