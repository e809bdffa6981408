import RobotRoutine.Number.Rounding

/-!
IEEE 754 double precision numbers by their bits.

A number is its sign and a 63-bit word that holds the exponent field and the fraction.  The order
of the words is the order of the magnitudes, so comparison needs no arithmetic; negation turns the
sign; sums and products are the exact result, rounded once.
-/

namespace RobotRoutine

/-- A double precision number: the sign bit and the other 63 bits. -/
structure Binary64 where
  negative : Bool
  word : Fin (2 ^ 63)
  deriving DecidableEq

namespace Binary64

/-- The number with the given bits, the sign being the highest. -/
def ofBits (bits : UInt64) : Binary64 :=
  ⟨decide (2 ^ 63 ≤ bits.toNat), ⟨bits.toNat % 2 ^ 63, Nat.mod_lt _ (by decide)⟩⟩

def toBits (x : Binary64) : UInt64 :=
  UInt64.ofNat ((if x.negative then 2 ^ 63 else 0) + x.word.val)

theorem toNat_toBits (x : Binary64) :
    x.toBits.toNat = (if x.negative then 2 ^ 63 else 0) + x.word.val := by
  rw [toBits, UInt64.toNat_ofNat_of_lt']
  have bounded := x.word.isLt
  split <;> simp only [UInt64.size] <;> omega

/-- No two numbers have the same bits, zeros of both signs included. -/
theorem ofBits_toBits (x : Binary64) : ofBits x.toBits = x := by
  obtain ⟨negative, word, bounded⟩ := x
  simp only [ofBits, toNat_toBits, mk.injEq, Fin.mk.injEq]
  cases negative <;> simp <;> omega

/-- All bits are those of a number. -/
theorem toBits_ofBits (bits : UInt64) : (ofBits bits).toBits = bits := by
  apply UInt64.toNat.inj
  have bounded := bits.toNat_lt
  simp only [toNat_toBits, ofBits, decide_eq_true_eq]
  split <;> omega

/-- The word of the infinities; greater words are no numbers. -/
def infinityWord : Nat := 0x7ff0000000000000

def oneWord : Fin (2 ^ 63) := ⟨0x3ff0000000000000, by decide⟩

def zero : Binary64 := ⟨false, ⟨0, by decide⟩⟩

def one : Binary64 := ⟨false, oneWord⟩

def infinity (negative : Bool) : Binary64 := ⟨negative, ⟨infinityWord, by decide⟩⟩

def notANumber : Binary64 := ofBits 0x7ff8000000000000

instance : Inhabited Binary64 := ⟨zero⟩

def isNaN (x : Binary64) : Bool := infinityWord < x.word.val

def isInfinite (x : Binary64) : Bool := x.word.val == infinityWord

def isFinite (x : Binary64) : Bool := x.word.val < infinityWord

def isZero (x : Binary64) : Bool := x.word.val == 0

/-- The integer that counts the units of a finite number. -/
def significand (x : Binary64) : Nat :=
  if x.word.val / 2 ^ 52 = 0 then x.word.val else 2 ^ 52 + x.word.val % 2 ^ 52

/-- The power of two that is the unit of a finite number. -/
def exponent (x : Binary64) : Int :=
  max 1 (x.word.val / 2 ^ 52 : Nat) - 1075

/-- The place of a number among all numbers, the same for both zeros; none for what is no number. -/
def rank? (x : Binary64) : Option Int :=
  if x.isNaN then none
  else some (if x.negative then -(x.word.val : Int) else x.word.val)

/-- The order of the reals; nothing is below or above what is no number. -/
def lt (x y : Binary64) : Bool :=
  match x.rank?, y.rank? with
  | some a, some b => a < b
  | _, _ => false

/-- Below or equal, in the order of the reals. -/
def le (x y : Binary64) : Bool :=
  match x.rank?, y.rank? with
  | some a, some b => a ≤ b
  | _, _ => false

/-- Equal in the order of the reals.  Both zeros are equal; what is no number equals nothing, itself
included. -/
def equals (x y : Binary64) : Bool :=
  match x.rank?, y.rank? with
  | some a, some b => a == b
  | _, _ => false

def neg (x : Binary64) : Binary64 := { x with negative := !x.negative }

instance : Neg Binary64 := ⟨neg⟩

/-- The nearest number to `high` from below and `low` from above; what is no number stays. -/
def clamp (low high x : Binary64) : Binary64 :=
  if x.lt low then low else if high.lt x then high else x

def floorLog2 (num den : Nat) : Int :=
  let estimate : Int := (num.log2 : Int) - den.log2
  let reached :=
    if 0 ≤ estimate then den * 2 ^ estimate.toNat ≤ num else den ≤ num * 2 ^ (-estimate).toNat
  if reached then estimate else estimate - 1

def ofRatio (negative : Bool) (num den : Nat) : Binary64 :=
  if num = 0 then ⟨negative, zero.word⟩
  else
    let unit : Int := max (-1074) (floorLog2 num den - 52)
    let count :=
      if 0 ≤ unit then Number.roundDiv num (den * 2 ^ unit.toNat)
      else Number.roundDiv (num * 2 ^ (-unit).toNat) den
    let word := min infinityWord ((unit + 1074).toNat * 2 ^ 52 + count)
    ⟨negative, ⟨word, Nat.lt_of_le_of_lt (Nat.min_le_left ..) (by decide)⟩⟩

def ofNat (n : Nat) : Binary64 := ofRatio false n 1

/-- The exact value of a finite number as a quotient, the sign on the numerator. -/
def toRatio (x : Binary64) : Int × Nat :=
  let size := if 0 ≤ x.exponent then x.significand * 2 ^ x.exponent.toNat else x.significand
  (if x.negative then -(size : Int) else size,
    if 0 ≤ x.exponent then 1 else 2 ^ (-x.exponent).toNat)

def mul (x y : Binary64) : Binary64 :=
  let negative := x.negative != y.negative
  if x.isNaN || y.isNaN then notANumber
  else if x.isInfinite || y.isInfinite then
    if x.isZero || y.isZero then notANumber else infinity negative
  else
    let (n₁, d₁) := x.toRatio
    let (n₂, d₂) := y.toRatio
    ofRatio negative (n₁.natAbs * n₂.natAbs) (d₁ * d₂)

/-- The sum, rounded once; a sum of zero is negative only if both terms are. -/
def add (x y : Binary64) : Binary64 :=
  if x.isNaN || y.isNaN then notANumber
  else if x.isInfinite then
    if y.isInfinite && x.negative != y.negative then notANumber else x
  else if y.isInfinite then y
  else
    let (n₁, d₁) := x.toRatio
    let (n₂, d₂) := y.toRatio
    let total := n₁ * d₂ + n₂ * d₁
    if total = 0 then ⟨x.negative && y.negative, zero.word⟩
    else ofRatio (total < 0) total.natAbs (d₁ * d₂)

instance : Add Binary64 := ⟨add⟩
instance : Mul Binary64 := ⟨mul⟩

end Binary64

end RobotRoutine
