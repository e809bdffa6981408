import RobotRoutine.Number.Duration
import RobotRoutine.Proofs.Number.Nearest

/-!
Spans of time given in seconds.

A number of seconds gives the span of the whole nanoseconds that lie nearest to it.  So a positive
number gives the empty span if it is half a nanosecond or less.
-/

namespace RobotRoutine

namespace Binary64

/-- The exact value of a finite number without its sign. -/
def magnitude (x : Binary64) : ℚ := x.significand * 2 ^ x.exponent

variable {x : Binary64}

theorem snd_toRatio_pos (x : Binary64) : 0 < x.toRatio.2 := by
  rw [snd_toRatio]
  exact Nat.two_pow_pos _

theorem div_toRatio (x : Binary64) : (x.toRatio.1.natAbs : ℚ) / x.toRatio.2 = x.magnitude := by
  rw [natAbs_toRatio, snd_toRatio, magnitude, Nat.cast_mul, Nat.cast_pow, Nat.cast_pow]
  rcases le_total 0 x.exponent with nonnegative | nonpositive
  · rw [Int.toNat_of_nonpos (by omega : -x.exponent ≤ 0), pow_zero, div_one, ← Nat.cast_pow,
      cast_pow_toNat 2 nonnegative]
    rfl
  · rw [Int.toNat_of_nonpos nonpositive, pow_zero, mul_one, ← Nat.cast_pow,
      cast_pow_neg_toNat 2 nonpositive, div_inv_eq_mul]
    rfl

theorem isNaN_of_isFinite (finite : x.isFinite = true) : x.isNaN = false := by
  have below : x.word.val < infinityWord := of_decide_eq_true finite
  rw [isNaN, decide_eq_false_iff_not]
  omega

/-- Of numbers, those that are not at most zero are above zero. -/
theorem zero_lt_iff (number : x.isNaN = false) : zero.lt x = true ↔ x.le zero = false := by
  have rank : x.rank? = some (if x.negative then -(x.word.val : Int) else x.word.val) := by
    rw [rank?, number]
    rfl
  have rankOfZero : zero.rank? = some 0 := by decide
  rw [lt, le, rank, rankOfZero]
  simp

theorem lt_zero_of_le (above : x.le zero = false) : x.lt zero = false := by
  have rankOfZero : zero.rank? = some 0 := by decide
  rw [le, rankOfZero] at above
  rw [lt, rankOfZero]
  cases rank : x.rank? with
  | none => rfl
  | some place =>
      rw [rank] at above
      simp only [decide_eq_false_iff_not] at *
      omega

end Binary64

namespace Duration

variable {seconds : Binary64} {duration : Duration}

/-- A span that is as long as a positive number of seconds, to the nearest nanosecond. -/
structure Lasts (seconds : Binary64) (duration : Duration) : Prop where
  positive : Binary64.zero.lt seconds = true
  finite : seconds.isFinite = true
  nearest : Near duration.nanos (seconds.magnitude * 10 ^ 9)
  representable : duration.secs < secsLimit

theorem nanos_iff {nanos : Nat} :
    Number.roundDiv (seconds.toRatio.1.natAbs * 1000000000) seconds.toRatio.2 = nanos ↔
      Near nanos (seconds.magnitude * 10 ^ 9) := by
  have scaled : ((seconds.toRatio.1.natAbs * 1000000000 : Nat) : ℚ) / seconds.toRatio.2 =
      seconds.magnitude * 10 ^ 9 := by
    rw [Nat.cast_mul, mul_div_right_comm, seconds.div_toRatio]
    norm_num
  have near := near_roundDiv (seconds.toRatio.1.natAbs * 1000000000) seconds.snd_toRatio_pos
  rw [← scaled]
  exact ⟨fun same => same ▸ near, near.eq⟩

theorem Lasts.above (lasts : Lasts seconds duration) : seconds.le Binary64.zero = false :=
  (Binary64.zero_lt_iff (Binary64.isNaN_of_isFinite lasts.finite)).mp lasts.positive

/-- The spans that are made from numbers above zero. -/
theorem lasts_iff :
    Lasts seconds duration ↔
      seconds.le Binary64.zero = false ∧ ofSeconds seconds = .ok duration := by
  constructor
  · intro lasts
    refine ⟨lasts.above, ?_⟩
    rw [ofSeconds, Binary64.lt_zero_of_le lasts.above, lasts.finite]
    simp only [Bool.false_eq_true, if_false, Bool.not_true, nanos_iff.mpr lasts.nearest]
    exact if_pos lasts.representable
  · rintro ⟨above, made⟩
    rw [ofSeconds, Binary64.lt_zero_of_le above] at made
    simp only [Bool.false_eq_true, if_false] at made
    split at made
    case isTrue => cases made
    case isFalse bounded =>
      have finite : seconds.isFinite = true := by simpa using bounded
      split at made
      case isTrue representable =>
        cases made
        exact ⟨(Binary64.zero_lt_iff (Binary64.isNaN_of_isFinite finite)).mpr above, finite,
          nanos_iff.mp rfl, representable⟩
      case isFalse => cases made

/-- Half a nanosecond, or less, lasts no time. -/
theorem Lasts.pos_iff (lasts : Lasts seconds duration) :
    zero < duration ↔ 1 / 2 < seconds.magnitude * 10 ^ 9 := by
  obtain ⟨low, high, strict⟩ := lasts.nearest
  change 0 < duration.nanos ↔ _
  rcases Nat.lt_trichotomy duration.nanos 1 with none | one | more
  · rw [Nat.lt_one_iff.mp none] at high ⊢
    exact iff_of_false (by decide) (by push_cast at high; linarith)
  · rw [one] at strict ⊢
    have := (strict rfl).1
    exact iff_of_true (by decide) (by push_cast at this; linarith)
  · have : (2 : ℚ) ≤ duration.nanos := by exact_mod_cast more
    exact iff_of_true (by omega) (by linarith)

end Duration

end RobotRoutine
