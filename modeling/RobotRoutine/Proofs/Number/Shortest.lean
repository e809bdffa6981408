import Mathlib.Data.Nat.Cast.Order.Field
import RobotRoutine.Number.Decimal
import RobotRoutine.Number.Shortest
import RobotRoutine.Proofs.Number.Nearest

/-!
The shortest decimal reads back.

The reals that round to a number leave more room than a grid of seventeen digits has between its
points, so one of the two points around the number is among them.  What is found on a grid covers
its number, zeros at its end count for nothing, and reading rounds it to the number again.
-/

namespace RobotRoutine

/-! Quotients of naturals. -/

variable {num den : Nat}

theorem lt_cast_div_succ (num : Nat) (positive : 0 < den) :
    (num : ℚ) / den < (num / den : Nat) + 1 := by
  rw [div_lt_iff₀ (by exact_mod_cast positive), mul_comm]
  exact_mod_cast Nat.lt_mul_div_succ num positive

/-- A natural has at least the digits of the power of ten below it. -/
theorem pow_length_le {n : Nat} (some : 0 < n) : 10 ^ ((Nat.toDigits 10 n).length - 1) ≤ n := by
  by_cases one : (Nat.toDigits 10 n).length - 1 = 0
  · rw [one]
    exact some
  · by_contra less
    have short := (Nat.length_toDigits_le_iff (b := 10) (by decide) (Nat.pos_of_ne_zero one)).mpr
      (Nat.lt_of_not_le less)
    omega

theorem lt_pow_length (n : Nat) : n < 10 ^ (Nat.toDigits 10 n).length :=
  (Nat.length_toDigits_le_iff (by decide) Nat.length_toDigits_pos).mp (Nat.le_refl _)

namespace Decimal

variable {d : Decimal}

/-- The exact value of a decimal. -/
def value (d : Decimal) : ℚ := d.digits * 10 ^ d.exponent

/-- The decimal places of the digits, left of the point that the exponent sets. -/
def width (d : Decimal) : Int := d.exponent + (Nat.toDigits 10 d.digits).length

theorem pow_width_le (some : 0 < d.digits) : (10 : ℚ) ^ (d.width - 1) ≤ d.value := by
  have nonempty : 1 ≤ (Nat.toDigits 10 d.digits).length := Nat.length_toDigits_pos
  have least : (10 : ℚ) ^ ((Nat.toDigits 10 d.digits).length - 1) ≤ d.digits := by
    exact_mod_cast pow_length_le some
  calc (10 : ℚ) ^ (d.width - 1)
      = 10 ^ (((Nat.toDigits 10 d.digits).length - 1 : Nat) + d.exponent : Int) := by
        congr 1
        rw [width]
        omega
    _ = 10 ^ ((Nat.toDigits 10 d.digits).length - 1) * 10 ^ d.exponent := by
        rw [zpow_add₀ (by norm_num), zpow_natCast]
    _ ≤ d.value := mul_le_mul_of_nonneg_right least (by positivity)

theorem lt_pow_width (d : Decimal) : d.value < 10 ^ d.width := by
  have most : (d.digits : ℚ) < 10 ^ (Nat.toDigits 10 d.digits).length := by
    exact_mod_cast lt_pow_length d.digits
  calc d.value < 10 ^ (Nat.toDigits 10 d.digits).length * 10 ^ d.exponent :=
        mul_lt_mul_of_pos_right most (by positivity)
    _ = 10 ^ d.width := by
        rw [width, add_comm, zpow_add₀ (by norm_num), zpow_natCast]

/-- Both sides of the cross product are the two values on one scale. -/
theorem crossWith_spec (d : Decimal) (num : Nat) (positive : 0 < den) :
    ∃ scale : ℚ, 0 < scale ∧ ((d.crossWith num den).1 : ℚ) = d.value * scale ∧
      ((d.crossWith num den).2 : ℚ) = num / den * scale := by
  have positive' : (0 : ℚ) < den := by exact_mod_cast positive
  rw [crossWith, value]
  split
  case isTrue nonnegative =>
    refine ⟨den, positive', ?_, (div_mul_cancel₀ _ positive'.ne').symm⟩
    rw [Nat.cast_mul, Nat.cast_mul, cast_pow_toNat 10 nonnegative]
    rfl
  case isFalse negative =>
    have power : (0 : ℚ) < 10 ^ d.exponent := by positivity
    refine ⟨den * (10 ^ d.exponent)⁻¹, by positivity, ?_, ?_⟩
    · rw [Nat.cast_mul]
      field_simp
    · rw [Nat.cast_mul, cast_pow_neg_toNat 10 (by omega), ← mul_assoc,
        div_mul_cancel₀ _ positive'.ne']
      rfl

theorem crossWith_le (d : Decimal) (num : Nat) (positive : 0 < den) :
    (d.crossWith num den).1 ≤ (d.crossWith num den).2 ↔ d.value ≤ num / den := by
  obtain ⟨scale, some, first, second⟩ := d.crossWith_spec num positive
  rw [← Nat.cast_le (α := ℚ), first, second, mul_le_mul_iff_left₀ some]

theorem crossWith_ge (d : Decimal) (num : Nat) (positive : 0 < den) :
    (d.crossWith num den).2 ≤ (d.crossWith num den).1 ↔ (num : ℚ) / den ≤ d.value := by
  obtain ⟨scale, some, first, second⟩ := d.crossWith_spec num positive
  rw [← Nat.cast_le (α := ℚ), first, second, mul_le_mul_iff_left₀ some]

/-- Zeros at the end of the digits count for nothing. -/
theorem value_stripZeros (bound : Nat) (d : Decimal) : (stripZeros bound d).value = d.value := by
  induction bound generalizing d with
  | zero => rfl
  | succ bound inductionHypothesis =>
      rw [stripZeros]
      split
      case isTrue zero =>
        have tenfold : ((d.digits / 10 : Nat) : ℚ) * 10 = d.digits := by
          exact_mod_cast Nat.div_mul_cancel (Nat.dvd_of_mod_eq_zero zero)
        rw [inductionHypothesis, value, value, ← tenfold, zpow_add_one₀ (by norm_num)]
        ring
      case isFalse => rfl

/-- The power of ten below a quotient. -/
theorem pow_floorLog10_le (some : 0 < num) (positive : 0 < den) :
    (10 : ℚ) ^ floorLog10 num den ≤ num / den := by
  rw [floorLog10]
  split
  case isTrue whole =>
    have below := pow_length_le (Nat.div_pos whole positive)
    have nonempty : 1 ≤ (Nat.toDigits 10 (num / den)).length := Nat.length_toDigits_pos
    rw [← Nat.cast_one, ← Nat.cast_sub nonempty, zpow_natCast]
    refine le_trans ?_ Nat.cast_div_le
    exact_mod_cast below
  case isFalse part =>
    have above := lt_pow_length ((num + den - 1) / num - 1)
    have ceiling := Nat.lt_mul_div_succ (num + den - 1) some
    generalize (Nat.toDigits 10 ((num + den - 1) / num - 1)).length = length at *
    have enough : den ≤ num * 10 ^ length := by
      refine Nat.le_trans ?_ (Nat.mul_le_mul_left num (show (num + den - 1) / num ≤ _ by omega))
      rw [Nat.mul_add] at ceiling
      omega
    rw [zpow_neg, zpow_natCast, inv_le_iff_one_le_mul₀ (by positivity), div_mul_eq_mul_div,
      one_le_div (by exact_mod_cast positive)]
    exact_mod_cast enough

end Decimal

namespace Binary64

variable {x : Binary64} {d : Decimal} {rule : MiddleRule}

/-! The interval of a number. -/

theorem lowGap_le (x : Binary64) : x.lowGap = 1 ∨ x.lowGap = 2 := by
  rw [lowGap]
  split
  · exact .inl rfl
  · exact .inr rfl

theorem den_interval_pos (x : Binary64) : 0 < x.interval.den := by
  rw [interval]
  dsimp only
  split
  · exact Nat.one_pos
  · exact Nat.two_pow_pos _

/-- A count of quarters of the unit, over the denominator of the interval. -/
theorem quarters_interval (x : Binary64) (count : Nat) :
    ((count * (if 0 ≤ x.exponent - 2 then 2 ^ (x.exponent - 2).toNat else 1) : Nat) : ℚ) /
      x.interval.den = count / 4 * 2 ^ x.exponent := by
  have quarter : (2 : ℚ) ^ x.exponent = 2 ^ (x.exponent - 2) * 4 := by
    rw [zpow_sub₀ two_ne_zero]
    norm_num
  rw [interval, quarter]
  dsimp only
  split
  case isTrue nonnegative =>
    rw [Nat.cast_mul, cast_pow_toNat 2 nonnegative, Nat.cast_one, Nat.cast_ofNat]
    ring
  case isFalse negative =>
    rw [Nat.mul_one, cast_pow_neg_toNat 2 (by omega), Nat.cast_ofNat, div_inv_eq_mul]
    ring

theorem value_interval (x : Binary64) :
    (x.interval.value : ℚ) / x.interval.den = x.significand * 2 ^ x.exponent := by
  have quarters := x.quarters_interval (4 * x.significand)
  rw [Nat.cast_mul 4, Nat.cast_ofNat, mul_div_cancel_left₀ _ (by norm_num)] at quarters
  exact quarters

theorem high_interval (x : Binary64) :
    (x.interval.high : ℚ) / x.interval.den = (x.significand + 1 / 2) * 2 ^ x.exponent := by
  refine (x.quarters_interval (4 * x.significand + 2)).trans ?_
  push_cast
  ring

theorem low_interval (nonzero : x.isZero = false) :
    (x.interval.low : ℚ) / x.interval.den = (x.significand - x.lowGap / 4) * 2 ^ x.exponent := by
  have some := significand_pos nonzero
  have fits : x.lowGap ≤ 4 * x.significand := by
    have := x.lowGap_le
    omega
  refine (x.quarters_interval (4 * x.significand - x.lowGap)).trans ?_
  rw [Nat.cast_sub fits]
  push_cast
  ring

theorem closed_interval (x : Binary64) :
    x.interval.closed = true ↔ x.significand % 2 = 0 := decide_eq_true_iff

theorem contains_iff (nonzero : x.isZero = false) (d : Decimal) :
    x.interval.contains d = true ↔
      if x.significand % 2 = 0 then
        (x.significand : ℚ) - x.lowGap / 4 ≤ d.value / 2 ^ x.exponent ∧
          d.value / 2 ^ x.exponent ≤ x.significand + 1 / 2
      else
        (x.significand : ℚ) - x.lowGap / 4 < d.value / 2 ^ x.exponent ∧
          d.value / 2 ^ x.exponent < x.significand + 1 / 2 := by
  have positive := x.den_interval_pos
  have unit : (0 : ℚ) < 2 ^ x.exponent := by positivity
  have spelled : x.interval.contains d =
      if x.interval.closed then
        decide ((d.crossWith x.interval.low x.interval.den).2 ≤
            (d.crossWith x.interval.low x.interval.den).1) &&
          decide ((d.crossWith x.interval.high x.interval.den).1 ≤
            (d.crossWith x.interval.high x.interval.den).2)
      else
        decide ((d.crossWith x.interval.low x.interval.den).2 <
            (d.crossWith x.interval.low x.interval.den).1) &&
          decide ((d.crossWith x.interval.high x.interval.den).1 <
            (d.crossWith x.interval.high x.interval.den).2) := rfl
  rw [spelled]
  by_cases even : x.significand % 2 = 0
  · rw [if_pos (x.closed_interval.mpr even), if_pos even, Bool.and_eq_true, decide_eq_true_iff,
      decide_eq_true_iff, d.crossWith_ge _ positive, d.crossWith_le _ positive,
      low_interval nonzero, high_interval, le_div_iff₀ unit, div_le_iff₀ unit]
  · rw [if_neg (mt x.closed_interval.mp even), if_neg even, Bool.and_eq_true, decide_eq_true_iff,
      decide_eq_true_iff, ← Nat.not_le, ← Nat.not_le, d.crossWith_le _ positive,
      d.crossWith_ge _ positive, low_interval nonzero, high_interval, not_le, not_le,
      lt_div_iff₀ unit, div_lt_iff₀ unit]

/-- A decimal in the interval of a number covers it. -/
theorem covers_of_contains (nonzero : x.isZero = false) (inside : x.interval.contains d = true) :
    x.Covers d.value := by
  rw [contains_iff nonzero] at inside
  split at inside
  case isTrue even => exact ⟨inside.1, inside.2, fun odd => by omega⟩
  case isFalse => exact ⟨inside.1.le, inside.2.le, fun _ => inside⟩

theorem contains_of_between (nonzero : x.isZero = false)
    (low : (x.significand : ℚ) - x.lowGap / 4 < d.value / 2 ^ x.exponent)
    (high : d.value / 2 ^ x.exponent < x.significand + 1 / 2) : x.interval.contains d = true := by
  rw [contains_iff nonzero]
  split
  · exact ⟨low.le, high.le⟩
  · exact ⟨low, high⟩

theorem Covers.pos (covers : x.Covers d.value) (nonzero : x.isZero = false) : 0 < d.value := by
  have some : (1 : ℚ) ≤ x.significand := by exact_mod_cast significand_pos nonzero
  have gap : (x.lowGap : ℚ) ≤ 2 := by
    rcases x.lowGap_le with one | two
    · rw [one]
      norm_num
    · rw [two]
      norm_num
  have low := covers.low
  have unit : (0 : ℚ) < 2 ^ x.exponent := by positivity
  have scaled : 0 < d.value / 2 ^ x.exponent := by linarith
  exact (div_pos_iff_of_pos_right unit).mp scaled

/-! The grids. -/

/-- The points of a grid around a value. -/
theorem neighbours_spec (x : Binary64) (exponent : Int) :
    (x.interval.neighbours exponent).1.value ≤ x.significand * 2 ^ x.exponent ∧
      x.significand * 2 ^ x.exponent < (x.interval.neighbours exponent).2.value ∧
      (x.interval.neighbours exponent).2.value =
        (x.interval.neighbours exponent).1.value + 10 ^ exponent := by
  have positive := x.den_interval_pos
  have unit : (0 : ℚ) < 10 ^ exponent := by positivity
  have scaled : ∃ num den : Nat, 0 < den ∧
      (x.interval.neighbours exponent).1 = ⟨num / den, exponent⟩ ∧
      (x.interval.neighbours exponent).2 = ⟨num / den + 1, exponent⟩ ∧
      (num : ℚ) / den = x.interval.value / x.interval.den / 10 ^ exponent := by
    rw [Interval.neighbours]
    by_cases nonnegative : 0 ≤ exponent
    · have power : 0 < 10 ^ exponent.toNat := Nat.pow_pos (by decide)
      refine ⟨x.interval.value, _, Nat.mul_pos positive power, ?_, ?_, ?_⟩
      · rw [if_pos nonnegative]
      · rw [if_pos nonnegative]
      · rw [Nat.cast_mul, cast_pow_toNat 10 nonnegative, div_div]
        rfl
    · refine ⟨x.interval.value * 10 ^ (-exponent).toNat, x.interval.den, positive, ?_, ?_, ?_⟩
      · rw [if_neg nonnegative]
      · rw [if_neg nonnegative]
      · rw [Nat.cast_mul, cast_pow_neg_toNat 10 (by omega), ← div_eq_mul_inv, div_right_comm]
        rfl
  obtain ⟨num, den, positive, first, second, same⟩ := scaled
  rw [x.value_interval, eq_div_iff unit.ne'] at same
  rw [first, second, Decimal.value, Decimal.value, ← same]
  dsimp only
  refine ⟨?_, ?_, ?_⟩
  · exact mul_le_mul_of_nonneg_right Nat.cast_div_le unit.le
  · rw [Nat.cast_succ]
    exact mul_lt_mul_of_pos_right (lt_cast_div_succ num positive) unit
  · rw [Nat.cast_succ]
    ring

/-- A grid of seventeen digits has a point in the interval. -/
theorem contains_neighbour (nonzero : x.isZero = false) {exponent : Int}
    (fine : (10 : ℚ) ^ exponent * 10 ^ 16 ≤ x.significand * 2 ^ x.exponent) :
    x.interval.contains (x.interval.neighbours exponent).1 = true ∨
      x.interval.contains (x.interval.neighbours exponent).2 = true := by
  obtain ⟨below, above, apart⟩ := x.neighbours_spec exponent
  have unit : (0 : ℚ) < 2 ^ x.exponent := by positivity
  rw [← div_le_iff₀ unit, mul_div_right_comm] at fine
  rw [← div_le_iff₀ unit] at below
  rw [← lt_div_iff₀ unit] at above
  have gap : (10 : ℚ) ^ exponent / 2 ^ x.exponent < x.lowGap / 4 + 1 / 2 := by
    rcases x.lowGap_le with one | two
    · have power : x.significand = 2 ^ 52 := by
        obtain ⟨_, _, gap⟩ := x.exponent_cases.resolve_left (by omega)
        by_contra other
        rw [if_neg other] at gap
        omega
      rw [power] at fine
      rw [one]
      push_cast at fine ⊢
      linarith
    · have bounded : (x.significand : ℚ) + 1 ≤ 2 ^ 53 := by exact_mod_cast x.significand_lt
      rw [two]
      push_cast
      linarith
  have some : (0 : ℚ) < x.lowGap := by
    rcases x.lowGap_le with one | two
    · rw [one]
      norm_num
    · rw [two]
      norm_num
  by_cases low : (x.significand : ℚ) - x.lowGap / 4 <
      (x.interval.neighbours exponent).1.value / 2 ^ x.exponent
  · exact .inl (contains_of_between nonzero low (by linarith))
  · rw [apart, add_div] at above
    refine .inr (contains_of_between nonzero ?_ ?_)
    · rw [apart, add_div]
      linarith
    · rw [apart, add_div]
      linarith

/-- What is found on a grid lies in the interval. -/
theorem contains_of_onGrid? {exponent : Int} (found : x.interval.onGrid? rule exponent = some d) :
    x.interval.contains d = true := by
  rw [Interval.onGrid?] at found
  dsimp only at found
  split at found
  case h_1 below above =>
    split at found <;> cases found
    · exact below
    · exact above
  case h_2 below _ =>
    cases found
    exact below
  case h_3 _ above =>
    cases found
    exact above
  case h_4 => cases found

theorem contains_firstHit (nonzero : x.isZero = false) :
    x.interval.contains (x.interval.firstHit rule) = true := by
  rw [Interval.firstHit]
  split
  case h_1 d found =>
    obtain ⟨n, _, hit⟩ := List.exists_of_findSome?_eq_some found
    exact contains_of_onGrid? hit
  case h_2 missed =>
    have last := List.findSome?_eq_none_iff.mp missed 16 (by decide)
    have some : 0 < x.interval.value := by
      rw [← Nat.cast_pos (α := ℚ), ← div_pos_iff_of_pos_right (Nat.cast_pos.mpr x.den_interval_pos),
        value_interval]
      have : (0 : ℚ) < x.significand := by exact_mod_cast significand_pos nonzero
      positivity
    have fine : (10 : ℚ) ^ (Decimal.floorLog10 x.interval.value x.interval.den - (16 : Nat)) *
        10 ^ 16 ≤ x.significand * 2 ^ x.exponent := by
      rw [zpow_sub₀ (by norm_num), zpow_natCast, div_mul_cancel₀ _ (by norm_num), ← value_interval]
      exact Decimal.pow_floorLog10_le some x.den_interval_pos
    have hit := contains_neighbour nonzero fine
    rw [Interval.onGrid?] at last
    dsimp only at last
    split at last
    case h_4 below above =>
      rw [below, above] at hit
      simp at hit
    all_goals cases last

/-- The shortest decimal covers its number. -/
theorem shortest_covers (nonzero : x.isZero = false) (rule : MiddleRule) :
    x.Covers (x.shortest rule).value := by
  rw [shortest, Decimal.value_stripZeros]
  exact covers_of_contains nonzero (contains_firstHit nonzero)

/-! Reading. -/

theorem exponent_lt (finite : x.isFinite = true) : x.exponent < 972 := by
  have below : x.word.val < infinityWord := of_decide_eq_true finite
  rw [exponent]
  unfold infinityWord at below
  omega

/-- The values that cover a number lie in a range that no decimal of it leaves. -/
theorem Covers.range (covers : x.Covers d.value) (finite : x.isFinite = true)
    (nonzero : x.isZero = false) :
    (2 : ℚ) ^ (-1075 : Int) ≤ d.value ∧ d.value < 2 ^ 1024 := by
  have unit : (0 : ℚ) < 2 ^ x.exponent := by positivity
  have some : (1 : ℚ) ≤ x.significand := by exact_mod_cast significand_pos nonzero
  have bounded : (x.significand : ℚ) + 1 ≤ 2 ^ 53 := by exact_mod_cast x.significand_lt
  have gap : (x.lowGap : ℚ) ≤ 2 := by
    rcases x.lowGap_le with one | two
    · rw [one]
      norm_num
    · rw [two]
      norm_num
  have least : -1074 ≤ x.exponent := by
    rw [exponent]
    omega
  have greatest := exponent_lt finite
  have low : 1 / 2 ≤ d.value / 2 ^ x.exponent := by linarith [covers.low]
  have high : d.value / 2 ^ x.exponent < 2 ^ 53 := by linarith [covers.high]
  rw [le_div_iff₀ unit] at low
  rw [div_lt_iff₀ unit] at high
  constructor
  · calc (2 : ℚ) ^ (-1075 : Int) ≤ 2 ^ (x.exponent - 1) :=
          zpow_le_zpow_right₀ (by norm_num) (by omega)
      _ = 1 / 2 * 2 ^ x.exponent := by
          rw [zpow_sub_one₀ two_ne_zero]
          ring
      _ ≤ d.value := low
  · calc d.value < 2 ^ 53 * 2 ^ x.exponent := high
      _ = 2 ^ (53 + x.exponent) := by
          rw [zpow_add₀ two_ne_zero]
          rfl
      _ ≤ 2 ^ ((1024 : Nat) : Int) := zpow_le_zpow_right₀ (by norm_num) (by omega)
      _ = 2 ^ 1024 := zpow_natCast _ _

theorem two_pow_lt_ten_pow {power length : Nat} (fewer : power ≤ 3 * length) (some : 0 < length) :
    (2 : ℚ) ^ power < 10 ^ length :=
  calc (2 : ℚ) ^ power ≤ 2 ^ (3 * length) := pow_le_pow_right₀ (by norm_num) fewer
    _ = (2 ^ 3) ^ length := pow_mul _ _ _
    _ < 10 ^ length := pow_lt_pow_left₀ (by norm_num) (by norm_num) some.ne'

theorem Covers.pos_digits (covers : x.Covers d.value) (nonzero : x.isZero = false) :
    0 < d.digits := by
  have positive := covers.pos nonzero
  rw [Decimal.value, mul_pos_iff_of_pos_right (by positivity)] at positive
  exact_mod_cast positive

theorem Covers.width (covers : x.Covers d.value) (finite : x.isFinite = true)
    (nonzero : x.isZero = false) : -400 ≤ d.width ∧ d.width ≤ 400 := by
  obtain ⟨low, high⟩ := covers.range finite nonzero
  rw [← not_lt, ← not_lt]
  constructor
  · intro small
    have below : d.value < 2 ^ (-1075 : Int) :=
      calc d.value < 10 ^ d.width := d.lt_pow_width
        _ ≤ 10 ^ (-401 : Int) := zpow_le_zpow_right₀ (by norm_num) (by omega)
        _ < 2 ^ (-1075 : Int) := inv_strictAnti₀ (by positivity)
            (two_pow_lt_ten_pow (show 1075 ≤ 3 * 401 by decide) (by decide))
    exact absurd below low.not_gt
  · intro great
    have above : 2 ^ 1024 < d.value :=
      calc (2 : ℚ) ^ 1024 < 10 ^ 400 := two_pow_lt_ten_pow (by decide) (by decide)
        _ = 10 ^ ((400 : Nat) : Int) := (zpow_natCast _ _).symm
        _ ≤ 10 ^ (d.width - 1) := zpow_le_zpow_right₀ (by norm_num) (by omega)
        _ ≤ d.value := Decimal.pow_width_le (covers.pos_digits nonzero)
    exact absurd high above.not_gt

/-- A decimal within the range is read as the quotient that it is. -/
theorem exists_ofRatio (some : 0 < d.digits) (low : -400 ≤ d.width) (high : d.width ≤ 400) :
    ∃ num den : Nat, 0 < num ∧ 0 < den ∧ (num : ℚ) / den = d.value ∧
      ∀ negative, ofDecimal negative d.digits d.exponent = ofRatio negative num den := by
  have notGreat : ¬400 < d.exponent + (Nat.toDigits 10 d.digits).length := not_lt.mpr high
  have notSmall : ¬d.exponent + (Nat.toDigits 10 d.digits).length < -400 := not_lt.mpr low
  by_cases nonnegative : 0 ≤ d.exponent
  · refine ⟨d.digits * 10 ^ d.exponent.toNat, 1, Nat.mul_pos some (Nat.pow_pos (by decide)),
      Nat.one_pos, ?_, fun negative => ?_⟩
    · rw [Nat.cast_one, div_one, Nat.cast_mul, cast_pow_toNat 10 nonnegative]
      rfl
    · rw [ofDecimal, if_neg (Nat.ne_of_gt some), if_neg notGreat, if_neg notSmall,
        if_pos nonnegative]
  · refine ⟨d.digits, 10 ^ (-d.exponent).toNat, some, Nat.pow_pos (by decide), ?_,
      fun negative => ?_⟩
    · rw [cast_pow_neg_toNat 10 (by omega), div_inv_eq_mul]
      rfl
    · rw [ofDecimal, if_neg (Nat.ne_of_gt some), if_neg notGreat, if_neg notSmall,
        if_neg nonnegative]

/-- A decimal that covers a number is read as that number. -/
theorem Covers.ofDecimal_eq (covers : x.Covers d.value) (finite : x.isFinite = true)
    (nonzero : x.isZero = false) (negative : Bool) :
    ofDecimal negative d.digits d.exponent = ⟨negative, x.word⟩ := by
  obtain ⟨low, high⟩ := covers.width finite nonzero
  obtain ⟨num, den, some, positive, same, read⟩ :=
    exists_ofRatio (covers.pos_digits nonzero) low high
  rw [read]
  exact Covers.ofRatio_eq (same ▸ covers) finite some positive negative

end Binary64

end RobotRoutine
