import RobotRoutine.Number.Shortest
import RobotRoutine.Number.Rounding

/-!
The written forms of double precision numbers.

All forms show the shortest digits that read back; they differ in where the point stands, in when
an exponent is used, in which of two decimals stands for a value in their middle and in the words
for the values that are not finite.
-/

namespace RobotRoutine

namespace Decimal

def zeros (count : Nat) : String :=
  String.ofList (List.replicate count '0')

/-- The digits with the point in place and no exponent; whole numbers have no point. -/
def positional (d : Decimal) : String :=
  let digits := Nat.toDigits 10 d.digits
  if 0 ≤ d.exponent then String.ofList digits ++ zeros d.exponent.toNat
  else
    let places := (-d.exponent).toNat
    if places < digits.length then
      let whole := digits.length - places
      String.ofList (digits.take whole) ++ "." ++ String.ofList (digits.drop whole)
    else "0." ++ zeros (places - digits.length) ++ String.ofList digits

/-- The digits with the point in place and no exponent; a zero follows the point of a whole
number. -/
def pointed (d : Decimal) : String :=
  if 0 ≤ d.exponent then d.positional ++ ".0" else d.positional

/-- One digit before the point, the others after it, and the exponent with its sign. -/
def scientific (d : Decimal) : String :=
  let digits := Nat.toDigits 10 d.digits
  let power := d.exponent + digits.length - 1
  let point := match digits with
    | first :: second :: rest => String.ofList (first :: '.' :: second :: rest)
    | few => String.ofList few
  point ++ "e" ++ (if power < 0 then "-" else "+") ++ toString power.natAbs

end Decimal

namespace Binary64

def signText (x : Binary64) : String := if x.negative then "-" else ""

/-- The plain form, for messages: never an exponent, no point in whole numbers. -/
def plainText (x : Binary64) : String :=
  if x.isNaN then "NaN"
  else if x.isInfinite then x.signText ++ "inf"
  else if x.isZero then x.signText ++ "0"
  else x.signText ++ (x.shortest .up).positional

/-- The form in settings files: never an exponent, always a point in finite numbers. -/
def pointText (x : Binary64) : String :=
  if x.isNaN then x.signText ++ "nan"
  else if x.isInfinite then x.signText ++ "inf"
  else if x.isZero then x.signText ++ "0.0"
  else x.signText ++ (x.shortest .up).pointed

/-- The form in JSON: positional from 0.00001 to below 10^16, with an exponent outside, and null
for what is not finite. -/
def jsonText (x : Binary64) : String :=
  if !x.isFinite then "null"
  else if x.isZero then x.signText ++ "0.0"
  else
    let d := x.shortest .toEven
    let power := d.exponent + (Nat.toDigits 10 d.digits).length
    x.signText ++ if -5 < power && power ≤ 16 then d.pointed else d.scientific

/-- The nearest whole number of a finite magnitude, ties to even. -/
def wholeMagnitude (x : Binary64) : Nat :=
  if 0 ≤ x.exponent then x.significand * 2 ^ x.exponent.toNat
  else Number.roundDiv x.significand (2 ^ (-x.exponent).toNat)

/-- The form without places, for positions: the nearest whole number, ties to even, with the sign
of the number even if nothing is left of it. -/
def wholeText (x : Binary64) : String :=
  if x.isFinite then x.signText ++ toString x.wholeMagnitude else x.plainText

end Binary64

end RobotRoutine
