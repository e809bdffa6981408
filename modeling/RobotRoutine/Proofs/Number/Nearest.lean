import Mathlib.Algebra.Order.Field.Power
import Mathlib.Data.Int.Log
import Mathlib.Data.Rat.Floor
import Mathlib.Tactic.Linarith
import Mathlib.Tactic.NormNum
import Mathlib.Tactic.Positivity
import Mathlib.Tactic.Ring
import RobotRoutine.Proofs.Number.FullPower

/-!
Rounding to the nearest number.

A quotient that lies no farther from a number than half the way to its neighbours is rounded to that
number, on the very middle if the count of the number is even.  Below a power of two the units are
half as great, so the way down from there is shorter.
-/

namespace RobotRoutine

/-- A count that a value lies near, ties only to even counts. -/
structure Near (count : Nat) (value : ℚ) : Prop where
  low : (count : ℚ) - 1 / 2 ≤ value
  high : value ≤ count + 1 / 2
  strict : count % 2 = 1 → (count : ℚ) - 1 / 2 < value ∧ value < count + 1 / 2

variable {num den count : Nat} {exponent : Int} {value : ℚ}

theorem Near.le {other : Nat} (near : Near count value) (nearToo : Near other value) :
    count ≤ other := by
  by_contra more
  have next : (other : ℚ) + 1 ≤ count := by exact_mod_cast Nat.lt_of_not_le more
  have apart : count = other + 1 := by
    have below : (count : ℚ) ≤ other + 1 := by linarith [near.low, nearToo.high]
    exact_mod_cast le_antisymm below next
  rcases Nat.mod_two_eq_zero_or_one other with even | odd
  · linarith [(near.strict (by omega)).1, nearToo.high]
  · linarith [(nearToo.strict odd).2, near.low]

/-- A value lies near one count alone. -/
theorem Near.eq {other : Nat} (near : Near count value) (nearToo : Near other value) :
    count = other :=
  Nat.le_antisymm (near.le nearToo) (nearToo.le near)

/-- Counts are limited as the values near them, where the limit is even. -/
theorem Near.lt_iff (near : Near count value) {bound : Nat} (even : bound % 2 = 0) :
    count < bound ↔ value < bound - 1 / 2 := by
  constructor
  · intro less
    rcases Nat.lt_or_eq_of_le (Nat.succ_le_of_lt less) with fewer | next
    · have : (count : ℚ) + 2 ≤ bound := by exact_mod_cast fewer
      linarith [near.high]
    · have : (count : ℚ) + 1 = bound := by exact_mod_cast next
      linarith [(near.strict (by omega)).2]
  · intro less
    have : (count : ℚ) < bound := by linarith [near.low]
    exact_mod_cast this

/-- A quotient lies near the count that it is rounded to. -/
theorem near_roundDiv (num : Nat) (positive : 0 < den) :
    Near (Number.roundDiv num den) (num / den) := by
  have positive' : (0 : ℚ) < den := by exact_mod_cast positive
  have whole : (num : ℚ) / den = (num / den : Nat) + (num % den : Nat) / (den : ℚ) := by
    rw [div_eq_iff positive'.ne', add_mul, div_mul_cancel₀ _ positive'.ne']
    exact_mod_cast (Nat.div_add_mod' num den).symm
  have small : num % den < den := Nat.mod_lt num positive
  rw [whole, Number.roundDiv]
  generalize num / den = quotient
  generalize num % den = rest at *
  have next : ((quotient + 1 : Nat) : ℚ) = quotient + 1 := Nat.cast_succ quotient
  have rest_nonneg : (0 : ℚ) ≤ rest / den := by positivity
  have rest_lt : (rest : ℚ) / den < 1 := by
    rw [div_lt_one positive']
    exact_mod_cast small
  rcases Nat.lt_trichotomy (2 * rest) den with less | middle | more
  · have half : (rest : ℚ) / den < 1 / 2 := by
      rw [div_lt_div_iff₀ positive' two_pos]
      exact_mod_cast (by omega : rest * 2 < 1 * den)
    simp only [if_pos less]
    exact ⟨by linarith, by linarith, fun _ => ⟨by linarith, by linarith⟩⟩
  · have half : (rest : ℚ) / den = 1 / 2 := by
      rw [div_eq_div_iff positive'.ne' two_ne_zero]
      exact_mod_cast (by omega : rest * 2 = 1 * den)
    rw [half]
    split_ifs with _ _ even
    · omega
    · omega
    · exact ⟨by linarith, by linarith, by omega⟩
    · exact ⟨by linarith, by linarith, by omega⟩
  · have half : 1 / 2 < (rest : ℚ) / den := by
      rw [div_lt_div_iff₀ two_pos positive']
      exact_mod_cast (by omega : 1 * den < rest * 2)
    simp only [if_neg (Nat.lt_asymm more), if_pos more]
    exact ⟨by linarith, by linarith, fun _ => ⟨by linarith, by linarith⟩⟩

/-! Powers as the model spells them out, by the sign of the exponent. -/

theorem cast_pow_toNat (base : Nat) (nonnegative : 0 ≤ exponent) :
    ((base ^ exponent.toNat : Nat) : ℚ) = (base : ℚ) ^ exponent := by
  lift exponent to Nat using nonnegative
  simp

theorem cast_pow_neg_toNat (base : Nat) (negative : exponent ≤ 0) :
    ((base ^ (-exponent).toNat : Nat) : ℚ) = ((base : ℚ) ^ exponent)⁻¹ := by
  rw [cast_pow_toNat base (by omega), zpow_neg]

namespace Binary64

/-- What a quotient counts of a unit lies near its quotient with the unit. -/
theorem near_count (num : Nat) (positive : 0 < den) (exponent : Int) :
    Near (if 0 ≤ exponent then Number.roundDiv num (den * 2 ^ exponent.toNat)
      else Number.roundDiv (num * 2 ^ (-exponent).toNat) den) (num / den / (2 : ℚ) ^ exponent) := by
  split
  case isTrue nonnegative =>
    have same : (num : ℚ) / (den * 2 ^ exponent.toNat : Nat) = num / den / (2 : ℚ) ^ exponent := by
      rw [Nat.cast_mul, cast_pow_toNat 2 nonnegative, div_div]
      rfl
    rw [← same]
    exact near_roundDiv num (Nat.mul_pos positive (Nat.two_pow_pos _))
  case isFalse negative =>
    have same : ((num * 2 ^ (-exponent).toNat : Nat) : ℚ) / den =
        num / den / (2 : ℚ) ^ exponent := by
      rw [Nat.cast_mul, cast_pow_neg_toNat 2 (by omega), ← div_eq_mul_inv, div_right_comm]
      rfl
    rw [← same]
    exact near_roundDiv _ positive

theorem log2_spec {n : Nat} (some : 0 < n) :
    (2 : ℚ) ^ (n.log2 : Int) ≤ n ∧ (n : ℚ) < 2 * 2 ^ (n.log2 : Int) := by
  rw [zpow_natCast, ← pow_succ']
  exact ⟨by exact_mod_cast Nat.log2_self_le (Nat.ne_of_gt some), by exact_mod_cast Nat.lt_log2_self⟩

/-- The estimate from the lengths is met or missed by one. -/
theorem floorLog2_eq (some : 0 < num) (positive : 0 < den) :
    floorLog2 num den = Int.log 2 ((num : ℚ) / den) := by
  have some' : (0 : ℚ) < num := by exact_mod_cast some
  have positive' : (0 : ℚ) < den := by exact_mod_cast positive
  obtain ⟨numLow, numHigh⟩ := log2_spec some
  obtain ⟨denLow, denHigh⟩ := log2_spec positive
  have high : (num : ℚ) / den < 2 ^ ((num.log2 : Int) - den.log2 + 1) := by
    rw [div_lt_iff₀ positive', zpow_add_one₀ two_ne_zero, zpow_sub₀ two_ne_zero,
      div_mul_eq_mul_div, div_mul_eq_mul_div, lt_div_iff₀ (by positivity)]
    exact mul_lt_mul (by linarith) denLow (by positivity) (by positivity)
  have low : (2 : ℚ) ^ ((num.log2 : Int) - den.log2 - 1) ≤ num / den := by
    rw [le_div_iff₀ positive', zpow_sub_one₀ two_ne_zero, zpow_sub₀ two_ne_zero, ← div_eq_mul_inv,
      div_div, div_mul_eq_mul_div, div_le_iff₀ (by positivity)]
    exact mul_le_mul numLow (by linarith) (by positivity) (by positivity)
  have reached (estimate : Int) :
      (if 0 ≤ estimate then den * 2 ^ estimate.toNat ≤ num
        else den ≤ num * 2 ^ (-estimate).toNat) ↔ (2 : ℚ) ^ estimate ≤ num / den := by
    rw [le_div_iff₀ positive']
    split
    case isTrue nonnegative =>
      rw [← Nat.cast_le (α := ℚ), Nat.cast_mul, cast_pow_toNat 2 nonnegative, mul_comm]
      rfl
    case isFalse negative =>
      rw [← Nat.cast_le (α := ℚ), Nat.cast_mul, cast_pow_neg_toNat 2 (by omega),
        ← div_eq_mul_inv, le_div_iff₀ (by positivity), mul_comm]
      rfl
  have quotient : (0 : ℚ) < num / den := div_pos some' positive'
  have notBelow := (Int.lt_zpow_iff_log_lt (b := 2) (by decide) quotient).mp high
  have notAbove := (Int.zpow_le_iff_le_log (b := 2) (by decide) quotient).mp low
  have reachedLog (estimate : Int) := (reached estimate).trans
    (Int.zpow_le_iff_le_log (b := 2) (by decide) quotient)
  rw [floorLog2]
  simp only [reachedLog]
  split <;> omega

/-! The values that are rounded to a number. -/

/-- The way down to the middle below a number, in quarters of its unit. -/
def lowGap (x : Binary64) : Nat :=
  if x.word.val % 2 ^ 52 = 0 ∧ 1 < x.word.val / 2 ^ 52 then 1 else 2

/-- A value no farther from a number than the middles between it and its neighbours. -/
structure Covers (x : Binary64) (value : ℚ) : Prop where
  low : (x.significand : ℚ) - x.lowGap / 4 ≤ value / 2 ^ x.exponent
  high : value / 2 ^ x.exponent ≤ x.significand + 1 / 2
  strict : x.significand % 2 = 1 → (x.significand : ℚ) - x.lowGap / 4 < value / 2 ^ x.exponent ∧
    value / 2 ^ x.exponent < x.significand + 1 / 2

theorem significand_lt (x : Binary64) : x.significand < 2 ^ 53 := by
  rw [significand]
  split <;> omega

/-- The unit is the smallest one, or the count begins with a one. -/
theorem exponent_cases (x : Binary64) :
    x.exponent = -1074 ∧ x.lowGap = 2 ∨
      -1074 < x.exponent ∧ 2 ^ 52 ≤ x.significand ∧
        x.lowGap = if x.significand = 2 ^ 52 then 1 else 2 := by
  rw [exponent, significand, lowGap]
  by_cases least : x.word.val / 2 ^ 52 ≤ 1
  · left
    rw [if_neg (by omega)]
    omega
  · right
    rw [if_neg (by omega)]
    refine ⟨by omega, by omega, ?_⟩
    by_cases power : x.word.val % 2 ^ 52 = 0
    · rw [if_pos ⟨power, by omega⟩, if_pos (by omega)]
    · rw [if_neg (fun both => power both.1), if_neg (by omega)]

variable {x : Binary64}

theorem ofRatio_of_count (some : 0 < num) (positive : 0 < den) {unit : Int}
    (isUnit : max (-1074) (floorLog2 num den - 52) = unit)
    (near : Near count (num / den / (2 : ℚ) ^ unit)) (negative : Bool)
    (word : (unit + 1074).toNat * 2 ^ 52 + count = x.word.val) (finite : x.isFinite = true) :
    ofRatio negative num den = ⟨negative, x.word⟩ := by
  have inRange : x.word.val ≤ infinityWord := Nat.le_of_lt (of_decide_eq_true finite)
  rw [ofRatio, if_neg (Nat.ne_of_gt some)]
  simp only [isUnit, (near_count num positive unit).eq near, word, Nat.min_eq_right inRange]

/-- Powers of two below a quotient, in units of a number. -/
theorem le_log_iff {value : ℚ} (positive : 0 < value) (unit : Int) (power : Nat) :
    unit + power ≤ Int.log 2 value ↔ (2 : ℚ) ^ power ≤ value / 2 ^ unit := by
  rw [← Int.zpow_le_iff_le_log (by decide) positive, le_div_iff₀ (by positivity), Nat.cast_ofNat,
    add_comm, zpow_add₀ two_ne_zero, zpow_natCast]

/-- A quotient is rounded to the number that covers it. -/
theorem Covers.ofRatio_eq (covers : x.Covers (num / den)) (finite : x.isFinite = true)
    (some : 0 < num) (positive : 0 < den) (negative : Bool) :
    ofRatio negative num den = ⟨negative, x.word⟩ := by
  obtain ⟨low, high, strict⟩ := covers
  have word := x.word_eq
  have bounded : (x.significand : ℚ) + 1 ≤ 2 ^ 53 := by exact_mod_cast x.significand_lt
  have quotient : (0 : ℚ) < num / den :=
    div_pos (by exact_mod_cast some) (by exact_mod_cast positive)
  have reaches := le_log_iff quotient x.exponent
  have notAbove : ¬(2 : ℚ) ^ 53 ≤ num / den / 2 ^ x.exponent := by linarith
  rw [← reaches] at notAbove
  by_cases below : (2 : ℚ) ^ 52 ≤ num / den / 2 ^ x.exponent ∨ x.exponent = -1074
  · -- The unit of the quotient is that of the number.
    have gap : (x.lowGap : ℚ) ≤ 2 := by
      have : x.lowGap ≤ 2 := by
        rw [lowGap]
        split <;> decide
      exact_mod_cast this
    refine ofRatio_of_count some positive ?_ ⟨?_, high, fun odd => ⟨?_, (strict odd).2⟩⟩ negative
      word finite
    · rw [floorLog2_eq some positive]
      rw [← reaches] at below
      have least : -1074 ≤ x.exponent := by
        rw [exponent]
        omega
      omega
    · linarith
    · linarith [(strict odd).1]
  · -- The quotient lies just below a power of two, where the unit is half as great.
    rw [not_or, not_le] at below
    obtain ⟨less, notLeast⟩ := below
    obtain ⟨_, large, gap⟩ := x.exponent_cases.resolve_left fun least => notLeast least.1
    have power : x.significand = 2 ^ 52 := by
      by_contra other
      rw [if_neg other] at gap
      have more : 2 ^ 52 + 1 ≤ x.significand := by omega
      have : (2 : ℚ) ^ 52 + 1 ≤ x.significand := by exact_mod_cast more
      rw [gap] at low
      norm_num at low
      linarith
    rw [if_pos power] at gap
    rw [gap, power] at low
    push_cast at low
    have doubled : (num : ℚ) / den / 2 ^ (x.exponent - 1) = 2 * (num / den / 2 ^ x.exponent) := by
      rw [zpow_sub_one₀ two_ne_zero]
      field_simp
    have half := (reaches 51).mpr (by linarith)
    have notWhole := mt (reaches 52).mp (not_le.mpr less)
    have isUnit : max (-1074) (floorLog2 num den - 52) = x.exponent - 1 := by
      rw [floorLog2_eq some positive]
      push_cast at half notWhole
      omega
    have near : Near (2 ^ 53) (num / den / 2 ^ (x.exponent - 1)) := by
      rw [doubled]
      refine ⟨?_, ?_, fun odd => absurd odd (by decide)⟩
      · push_cast
        linarith
      · push_cast
        linarith
    refine ofRatio_of_count some positive isUnit near negative ?_ finite
    have step : (x.exponent + 1074).toNat = (x.exponent - 1 + 1074).toNat + 1 := by omega
    have twice : 2 ^ 52 + 2 ^ 52 = 2 ^ 53 := by decide
    rw [← word, power, step, Nat.add_mul, Nat.one_mul, Nat.add_assoc, twice]

end Binary64

end RobotRoutine
