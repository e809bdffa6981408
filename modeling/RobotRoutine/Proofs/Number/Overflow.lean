import RobotRoutine.Proofs.Number.Shortest

/-!
The end of the range.

A value is rounded to an infinity from the middle on between the greatest finite number and the one
that would follow it.
-/

namespace RobotRoutine.Binary64

/-- The least value that is rounded to an infinity. -/
def overflow : ℚ := 2 ^ (1024 : Int) - 2 ^ (970 : Int)

theorem overflow_eq : overflow = (2 ^ 53 - 1 / 2) * 2 ^ (971 : Int) := by
  have greater : (2 : ℚ) ^ (1024 : Int) = 2 ^ 53 * 2 ^ (971 : Int) := by
    rw [← zpow_natCast, ← zpow_add₀ two_ne_zero]
    rfl
  have less : (2 : ℚ) ^ (971 : Int) = 2 ^ (970 : Int) * 2 := by
    rw [← zpow_add_one₀ two_ne_zero]
    rfl
  rw [overflow, greater, sub_mul, less]
  ring

variable {num den : Nat} {d : Decimal}

theorem pow_lt_overflow {exponent : Int} (less : exponent ≤ 1023) :
    (2 : ℚ) ^ exponent < overflow := by
  have power : (0 : ℚ) < 2 ^ (971 : Int) := by positivity
  calc (2 : ℚ) ^ exponent ≤ 2 ^ (1023 : Int) := zpow_le_zpow_right₀ (by norm_num) less
    _ = 2 ^ 52 * 2 ^ (971 : Int) := by
        rw [← zpow_natCast, ← zpow_add₀ two_ne_zero]
        rfl
    _ < (2 ^ 53 - 1 / 2) * 2 ^ (971 : Int) := mul_lt_mul_of_pos_right (by norm_num) power
    _ = overflow := overflow_eq.symm

theorem overflow_lt_pow {exponent : Int} (more : 1024 ≤ exponent) :
    overflow < (2 : ℚ) ^ exponent := by
  have power : (0 : ℚ) < 2 ^ (970 : Int) := by positivity
  calc overflow < 2 ^ (1024 : Int) := sub_lt_self _ power
    _ ≤ 2 ^ exponent := zpow_le_zpow_right₀ (by norm_num) more

/-- A quotient is rounded to a finite number just below the overflow. -/
theorem isFinite_ofRatio_iff (some : 0 < num) (positive : 0 < den) (negative : Bool) :
    (ofRatio negative num den).isFinite = true ↔ (num : ℚ) / den < overflow := by
  have quotient : (0 : ℚ) < num / den :=
    div_pos (by exact_mod_cast some) (by exact_mod_cast positive)
  obtain ⟨log, isLog⟩ : ∃ log, Int.log 2 ((num : ℚ) / den) = log := ⟨_, rfl⟩
  obtain ⟨unit, isUnit⟩ : ∃ unit, max (-1074) (log - 52) = unit := ⟨_, rfl⟩
  have near := near_count num positive unit
  have reaches := le_log_iff quotient unit
  have word : (ofRatio negative num den).isFinite = true ↔
      (unit + 1074).toNat * 2 ^ 52 + (if 0 ≤ unit then Number.roundDiv num (den * 2 ^ unit.toNat)
        else Number.roundDiv (num * 2 ^ (-unit).toNat) den) < infinityWord := by
    rw [ofRatio, if_neg (Nat.ne_of_gt some)]
    simp only [floorLog2_eq some positive, isLog, isUnit, isFinite, decide_eq_true_eq, min_lt_iff,
      lt_irrefl, false_or]
  have infinite : infinityWord = 2047 * 2 ^ 52 := rfl
  rw [word, infinite]
  generalize (if 0 ≤ unit then Number.roundDiv num (den * 2 ^ unit.toNat)
    else Number.roundDiv (num * 2 ^ (-unit).toNat) den) = count at near
  have low := Int.zpow_log_le_self (b := 2) (by decide) quotient
  have high := Int.lt_zpow_succ_log_self (b := 2) (by decide) ((num : ℚ) / den)
  rw [isLog] at reaches low high
  rcases lt_trichotomy log 1023 with small | last | great
  · -- The count has not much more than its 53 bits, and the unit is not the greatest.
    have below := not_le.mp (mt (reaches 53).mpr (by push_cast; omega))
    have fits : count < 2 ^ 53 + 2 := by
      rw [near.lt_iff (by decide)]
      push_cast
      linarith
    exact iff_of_true (by omega) (high.trans (pow_lt_overflow (by omega)))
  · -- The unit is the greatest, so the count decides.
    obtain rfl : unit = 971 := by omega
    have counted : (971 + 1074 : Int).toNat * 2 ^ 52 + count < 2047 * 2 ^ 52 ↔ count < 2 ^ 53 := by
      omega
    rw [counted, near.lt_iff (by decide), overflow_eq, div_lt_iff₀ (by positivity), Nat.cast_pow,
      Nat.cast_ofNat]
  · -- The unit is too great for any count.
    have above := (reaches 52).mp (by push_cast; omega)
    have filled : ¬count < 2 ^ 52 := by
      rw [near.lt_iff (by decide)]
      push_cast
      linarith
    exact iff_of_false (by omega) (not_lt.mpr ((overflow_lt_pow (by omega)).le.trans low))

theorem ten_pow_lt_overflow {exponent : Int} (less : exponent ≤ 0) :
    (10 : ℚ) ^ exponent < overflow :=
  calc (10 : ℚ) ^ exponent ≤ 10 ^ (0 : Int) := zpow_le_zpow_right₀ (by norm_num) less
    _ = 2 ^ (0 : Int) := rfl
    _ < overflow := pow_lt_overflow (by decide)

theorem overflow_lt_ten_pow {exponent : Int} (more : 400 ≤ exponent) :
    overflow < (10 : ℚ) ^ exponent :=
  calc overflow < 2 ^ ((1024 : Nat) : Int) := overflow_lt_pow (by decide)
    _ = 2 ^ 1024 := zpow_natCast _ _
    _ < 10 ^ 400 := two_pow_lt_ten_pow (by decide) (by decide)
    _ = 10 ^ ((400 : Nat) : Int) := (zpow_natCast _ _).symm
    _ ≤ 10 ^ exponent := zpow_le_zpow_right₀ (by norm_num) more

/-- A decimal is read as a finite number just below the overflow. -/
theorem isFinite_ofDecimal_iff (negative : Bool) (d : Decimal) :
    (ofDecimal negative d.digits d.exponent).isFinite = true ↔ d.value < overflow := by
  rcases Nat.eq_zero_or_pos d.digits with none | some
  · have isZero : d.value = 0 := by
      rw [Decimal.value, none, Nat.cast_zero, zero_mul]
    rw [ofDecimal, if_pos none, isZero]
    exact iff_of_true rfl (lt_trans one_pos (ten_pow_lt_overflow (Int.le_refl 0)))
  · by_cases great : 400 < d.width
    · have isInfinite : ofDecimal negative d.digits d.exponent = infinity negative := by
        rw [ofDecimal, if_neg (Nat.ne_of_gt some)]
        exact if_pos great
      rw [isInfinite]
      refine iff_of_false Bool.false_ne_true (not_lt.mpr ?_)
      exact (overflow_lt_ten_pow (by omega)).le.trans (d.pow_width_le some)
    · by_cases small : d.width < -400
      · have isZero : ofDecimal negative d.digits d.exponent = ⟨negative, zero.word⟩ := by
          rw [ofDecimal, if_neg (Nat.ne_of_gt some)]
          exact (if_neg great).trans (if_pos small)
        rw [isZero]
        exact iff_of_true rfl (d.lt_pow_width.trans (ten_pow_lt_overflow (by omega)))
      · obtain ⟨num, den, someNum, positive, same, read⟩ :=
          exists_ofRatio some (not_lt.mp small) (not_lt.mp great)
        rw [read, isFinite_ofRatio_iff someNum positive, same]

theorem isNaN_ofRatio (negative : Bool) (num den : Nat) :
    (ofRatio negative num den).isNaN = false := by
  rw [ofRatio, isNaN, decide_eq_false_iff_not]
  split
  · exact Nat.not_lt_zero _
  · exact not_lt.mpr (Nat.min_le_left _ _)

/-- What is read from digits is a number. -/
theorem isNaN_ofDecimal (negative : Bool) (digits : Nat) (exponent : Int) :
    (ofDecimal negative digits exponent).isNaN = false := by
  rw [ofDecimal]
  split_ifs
  · rfl
  · rfl
  · rfl
  · exact isNaN_ofRatio _ _ _
  · exact isNaN_ofRatio _ _ _

end RobotRoutine.Binary64
