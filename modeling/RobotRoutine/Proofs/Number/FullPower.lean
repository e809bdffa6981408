import RobotRoutine.Action.Command
import RobotRoutine.Simulation.Motors

/-!
Products with one and minus one.

Rounding gives back a quotient that is exactly a number.  So the power of a drive is the size that
the settings give, or its negative, and full power is not exceeded by it.
-/

namespace RobotRoutine

theorem Number.roundDiv_mul_right {den : Nat} (positive : 0 < den) (quotient : Nat) :
    Number.roundDiv (quotient * den) den = quotient := by
  rw [Number.roundDiv, Nat.mul_div_cancel _ positive, Nat.mul_mod_left]
  exact if_pos positive

namespace Binary64

variable {x : Binary64} {count up down : Nat}

theorem log2_scaled (positive : 0 < count) (up : Nat) :
    (count * 2 ^ up).log2 = count.log2 + up := by
  have power : 0 < 2 ^ up := Nat.two_pow_pos up
  have nonzero : count * 2 ^ up ≠ 0 := Nat.ne_of_gt (Nat.mul_pos positive power)
  have below : 2 ^ count.log2 ≤ count := Nat.log2_self_le (Nat.ne_of_gt positive)
  have above : count < 2 ^ (count.log2 + 1) := Nat.lt_log2_self
  refine (Nat.log2_eq_iff nonzero).mpr ⟨?_, ?_⟩
  · rw [Nat.pow_add]
    exact Nat.mul_le_mul_right _ below
  · rw [Nat.add_right_comm, Nat.pow_add _ (count.log2 + 1)]
    exact Nat.mul_lt_mul_of_pos_right above power

/-- With a power of two below, the estimate from the lengths is met. -/
theorem floorLog2_scaled (positive : 0 < count) (up down : Nat) :
    floorLog2 (count * 2 ^ up) (2 ^ down) = count.log2 + up - down := by
  have estimate : ((count * 2 ^ up).log2 : Int) - (2 ^ down).log2 = count.log2 + up - down := by
    rw [log2_scaled positive, Nat.log2_two_pow]
    omega
  have below : 2 ^ (count.log2 + up) ≤ count * 2 ^ up := by
    rw [Nat.pow_add]
    exact Nat.mul_le_mul_right _ (Nat.log2_self_le (Nat.ne_of_gt positive))
  rw [floorLog2, estimate]
  apply if_pos
  split
  case isTrue nonnegative =>
    have exponent : down + (count.log2 + up - down : Int).toNat = count.log2 + up := by omega
    rw [← Nat.pow_add, exponent]
    exact below
  case isFalse negative =>
    have exponent : down = count.log2 + up + (-(count.log2 + up - down : Int)).toNat := by omega
    rw [congrArg (2 ^ ·) exponent, Nat.pow_add]
    exact Nat.mul_le_mul_right _ below

theorem significand_pos (nonzero : x.isZero = false) : 0 < x.significand := by
  rw [isZero, beq_eq_false_iff_ne] at nonzero
  rw [significand]
  split <;> omega

/-- The unit of a number is the one that rounding takes for it. -/
theorem unit_eq_exponent (nonzero : x.isZero = false) :
    max (-1074) (x.significand.log2 + x.exponent - 52) = x.exponent := by
  have positive := significand_pos nonzero
  by_cases small : x.word.val / 2 ^ 52 = 0
  · have below : x.significand < 2 ^ 52 := by
      rw [significand, if_pos small]
      omega
    have short := (Nat.log2_lt (Nat.ne_of_gt positive)).mpr below
    have lowest : x.exponent = -1074 := by
      rw [exponent, small]
      rfl
    omega
  · have length : x.significand.log2 = 52 := by
      rw [Nat.log2_eq_iff (Nat.ne_of_gt positive), significand, if_neg small]
      omega
    rw [length, exponent]
    omega

theorem word_eq (x : Binary64) :
    (x.exponent + 1074).toNat * 2 ^ 52 + x.significand = x.word.val := by
  rw [exponent, significand]
  split <;> omega

/-- A quotient that is exactly a number is rounded to that number. -/
theorem ofRatio_exact (finite : x.isFinite = true) (nonzero : x.isZero = false) (negative : Bool)
    (scale : (up : Int) - down = x.exponent) :
    ofRatio negative (x.significand * 2 ^ up) (2 ^ down) = ⟨negative, x.word⟩ := by
  have positive := significand_pos nonzero
  have notZero : x.significand * 2 ^ up ≠ 0 :=
    Nat.ne_of_gt (Nat.mul_pos positive (Nat.two_pow_pos up))
  have unit : max (-1074) (floorLog2 (x.significand * 2 ^ up) (2 ^ down) - 52) = x.exponent := by
    rw [floorLog2_scaled positive, ← unit_eq_exponent nonzero, ← scale]
    omega
  have counted :
      (if 0 ≤ x.exponent then
        Number.roundDiv (x.significand * 2 ^ up) (2 ^ down * 2 ^ x.exponent.toNat)
      else Number.roundDiv (x.significand * 2 ^ up * 2 ^ (-x.exponent).toNat) (2 ^ down)) =
        x.significand := by
    split
    · have same : up = down + x.exponent.toNat := by omega
      rw [← Nat.pow_add, ← same, Number.roundDiv_mul_right (Nat.two_pow_pos up)]
    · have same : down = up + (-x.exponent).toNat := by omega
      rw [Nat.mul_assoc, ← Nat.pow_add, ← same, Number.roundDiv_mul_right (Nat.two_pow_pos down)]
  have inRange : x.word.val ≤ infinityWord := by
    rw [isFinite, decide_eq_true_eq] at finite
    exact Nat.le_of_lt finite
  rw [ofRatio, if_neg notZero]
  simp only [unit, counted, word_eq, Nat.min_eq_right inRange]

theorem natAbs_toRatio (x : Binary64) :
    x.toRatio.1.natAbs = x.significand * 2 ^ x.exponent.toNat := by
  simp only [toRatio]
  split <;> split <;> rename_i sign nonnegative
  · rw [Int.natAbs_neg, Int.natAbs_natCast]
  · rw [Int.natAbs_neg, Int.natAbs_natCast, Int.toNat_of_nonpos (by omega), Nat.pow_zero,
      Nat.mul_one]
  · rw [Int.natAbs_natCast]
  · rw [Int.natAbs_natCast, Int.toNat_of_nonpos (by omega), Nat.pow_zero, Nat.mul_one]

theorem snd_toRatio (x : Binary64) : x.toRatio.2 = 2 ^ (-x.exponent).toNat := by
  simp only [toRatio]
  split
  · rw [Int.toNat_of_nonpos (by omega), Nat.pow_zero]
  · rfl

theorem word_eq_zero (isZero : x.isZero = true) : x.word = zero.word :=
  Fin.ext (eq_of_beq isZero)

/-- A product with one or minus one is exact. -/
theorem unit_mul {unit : Binary64} (isUnit : unit.word = oneWord) (finite : x.isFinite = true) :
    unit * x = ⟨unit.negative != x.negative, x.word⟩ := by
  have below : x.word.val < infinityWord := of_decide_eq_true finite
  have number : (unit.isNaN || x.isNaN) = false := by
    have : ¬ infinityWord < x.word.val := by omega
    simp [isNaN, isUnit, this]
    decide
  have bounded : (unit.isInfinite || x.isInfinite) = false := by
    have : x.word.val ≠ infinityWord := by omega
    simp [isInfinite, isUnit, this]
    decide
  have unitCount : unit.significand = 2 ^ 52 := by
    rw [significand, isUnit]
    decide
  have unitExponent : unit.exponent = -52 := by
    rw [exponent, isUnit]
    decide
  change mul unit x = _
  simp only [mul, number, bounded, Bool.false_eq_true, if_false]
  rw [natAbs_toRatio, natAbs_toRatio, snd_toRatio, snd_toRatio, unitCount, unitExponent]
  cases zero : x.isZero with
  | true =>
      have none : x.significand = 0 := by
        rw [significand, word_eq_zero zero]
        rfl
      rw [none, Nat.zero_mul, Nat.mul_zero, ofRatio, if_pos rfl, word_eq_zero zero]
  | false =>
      have scale : ((52 + x.exponent.toNat : Nat) : Int) - (52 + (-x.exponent).toNat : Nat) =
          x.exponent := by omega
      have product : 2 ^ 52 * 2 ^ (-52 : Int).toNat * (x.significand * 2 ^ x.exponent.toNat) =
          x.significand * 2 ^ (52 + x.exponent.toNat) := by
        rw [Int.toNat_of_nonpos (by decide), Nat.pow_zero, Nat.mul_one, Nat.mul_left_comm,
          ← Nat.pow_add]
      rw [product, ← Nat.pow_add]
      exact ofRatio_exact finite zero _ scale

/-! The power of a drive. -/

theorem sign_of_zero_lt (positive : zero.lt x = true) : x.negative = false ∧ 0 < x.word.val := by
  have rankOfZero : zero.rank? = some 0 := by decide
  rw [lt, rankOfZero] at positive
  cases number : x.isNaN with
  | true =>
      rw [rank?, if_pos number] at positive
      cases positive
  | false =>
      rw [rank?, number, if_neg Bool.false_ne_true, decide_eq_true_eq] at positive
      cases sign : x.negative with
      | true =>
          rw [sign, if_pos rfl] at positive
          omega
      | false =>
          rw [sign, if_neg Bool.false_ne_true] at positive
          exact ⟨rfl, by omega⟩

/-- A size for the power of a drive: above zero, and at most full power. -/
structure IsPower (size : Binary64) : Prop where
  positive : zero.lt size = true
  bounded : size.le one = true

namespace IsPower

variable {size : Binary64}

theorem isNaN_eq (isPower : size.IsPower) : size.isNaN = false := by
  have bounded := isPower.bounded
  cases number : size.isNaN with
  | false => rfl
  | true =>
      rw [le, rank?, if_pos number] at bounded
      cases bounded

theorem sign_and_word (isPower : size.IsPower) :
    size.negative = false ∧ 0 < size.word.val ∧ size.word.val ≤ oneWord.val := by
  obtain ⟨sign, some⟩ := sign_of_zero_lt isPower.positive
  have bounded := isPower.bounded
  have rankOfOne : one.rank? = .some (oneWord.val : Int) := by decide
  rw [le, rank?, isPower.isNaN_eq, rankOfOne, sign, if_neg Bool.false_ne_true,
    if_neg Bool.false_ne_true, decide_eq_true_eq] at bounded
  exact ⟨sign, some, by omega⟩

theorem isFinite_eq (isPower : size.IsPower) : size.isFinite = true := by
  obtain ⟨_, _, bounded⟩ := isPower.sign_and_word
  have : oneWord.val < infinityWord := by decide
  rw [isFinite, decide_eq_true_eq]
  omega

end IsPower

/-- The powers that a drive of some size commands. -/
def IsCommand (size power : Binary64) : Prop := power = zero ∨ power = size ∨ power = -size

variable {size power : Binary64}

theorem isCommand_direction (isPower : size.IsPower) (direction : Direction) :
    IsCommand size (direction.power size) := by
  have positive := isPower.sign_and_word.1
  cases direction with
  | forward =>
      refine .inr (.inl ?_)
      change one * size = size
      rw [unit_mul rfl isPower.isFinite_eq]
      change _ = (⟨size.negative, size.word⟩ : Binary64)
      rw [positive]
      rfl
  | reverse =>
      refine .inr (.inr ?_)
      change -one * size = -size
      rw [unit_mul rfl isPower.isFinite_eq]
      change _ = (⟨!size.negative, size.word⟩ : Binary64)
      rw [positive]
      rfl

theorem rank?_of_word_le (bounded : power.word.val ≤ oneWord.val) :
    power.rank? = some (if power.negative then -(power.word.val : Int) else power.word.val) := by
  have number : power.isNaN = false := by
    have : oneWord.val < infinityWord := by decide
    rw [isNaN, decide_eq_false_iff_not]
    omega
  rw [rank?, number]
  rfl

/-- Nothing is cut off from a power that does not exceed full power. -/
theorem clamp_of_word_le (bounded : power.word.val ≤ oneWord.val) :
    clamp (-one) one power = power := by
  have rankOfOne : one.rank? = some (oneWord.val : Int) := by decide
  have rankOfMinusOne : (-one).rank? = some (-(oneWord.val : Int)) := by decide
  have notBelow : power.lt (-one) = false := by
    rw [lt, rank?_of_word_le bounded, rankOfMinusOne, decide_eq_false_iff_not]
    split <;> omega
  have notAbove : one.lt power = false := by
    rw [lt, rank?_of_word_le bounded, rankOfOne, decide_eq_false_iff_not]
    split <;> omega
  rw [clamp, notBelow, notAbove]
  rfl

theorem clamp_command (isPower : size.IsPower) (isCommand : IsCommand size power) :
    clamp (-one) one power = power := by
  have bounded := isPower.sign_and_word.2.2
  apply clamp_of_word_le
  rcases isCommand with rfl | rfl | rfl
  · exact Nat.zero_le _
  · exact bounded
  · exact bounded

end Binary64

end RobotRoutine
