import RobotRoutine.Number.Binary64
import RobotRoutine.Number.Integer

/-!
Reading double precision numbers from decimal text.

A decimal is an integer times a power of ten; it is read as the nearest number, ties to even.  The
written form has an optional sign, digits with an optional point (a digit on at least one side of
it) and an optional exponent; the words for the infinities and for what is no number may be in any
case.
-/

namespace RobotRoutine

namespace Binary64

/-- The number nearest to `mantissa * 10 ^ exponent`.  Powers of ten far outside the range are
settled by their size alone. -/
def ofDecimal (negative : Bool) (mantissa : Nat) (exponent : Int) : Binary64 :=
  let width : Int := (Nat.toDigits 10 mantissa).length
  if mantissa = 0 then ⟨negative, zero.word⟩
  else if 400 < exponent + width then infinity negative
  else if exponent + width < -400 then ⟨negative, zero.word⟩
  else if 0 ≤ exponent then ofRatio negative (mantissa * 10 ^ exponent.toNat) 1
  else ofRatio negative mantissa (10 ^ (-exponent).toNat)

end Binary64

namespace Number

def spanDigits (cs : List Char) : List Char × List Char :=
  (cs.takeWhile Char.isDigit, cs.dropWhile Char.isDigit)

def spanSign : List Char → Bool × List Char
  | '-' :: rest => (true, rest)
  | '+' :: rest => (false, rest)
  | cs => (false, cs)

def spanFraction : List Char → List Char × List Char
  | '.' :: rest => spanDigits rest
  | cs => ([], cs)

/-- The exponent that ends a numeral: nothing, or the letter e, an optional sign and digits. -/
def exponentPart? : List Char → Option Int
  | [] => some 0
  | c :: rest =>
      if c == 'e' || c == 'E' then
        let (negative, digits) := spanSign rest
        (digits? digits).map fun n => if negative then -(n : Int) else n
      else none

def magnitude? (negative : Bool) (cs : List Char) : Option Binary64 :=
  let (whole, afterWhole) := spanDigits cs
  let (fraction, afterFraction) := spanFraction afterWhole
  match digits? (whole ++ fraction), exponentPart? afterFraction with
  | some mantissa, some exponent =>
      some (Binary64.ofDecimal negative mantissa (exponent - fraction.length))
  | _, _ => none

/-- The value of a written number: a numeral, or one of the words for the other values. -/
def decimal? (text : String) : Option Binary64 :=
  let (negative, rest) := spanSign text.toList
  let lower := rest.map Char.toLower
  if lower == "inf".toList || lower == "infinity".toList then some (Binary64.infinity negative)
  else if lower == "nan".toList then some { Binary64.notANumber with negative := negative }
  else magnitude? negative rest

end Number

end RobotRoutine
