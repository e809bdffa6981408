import RobotRoutine.Proofs.Number.Written

/-!
Numbers in JSON.

A finite number is written as a number of JSON, which reads as the number that it was.  What is not
finite is written as null.
-/

namespace RobotRoutine

open Toml (IsWhole)

namespace Number

/-- The numbers of JSON without a sign: numerals that begin with a whole number and have a place
behind their point. -/
inductive Shows : List Char → Decimal → Prop where
  | parts {whole places fraction power : List Char} {exponent : Int} (isWhole : IsWhole whole)
      (isPlaces : Places places fraction) (filled : places ≠ ['.'])
      (isPower : Power power exponent) :
      Shows (whole ++ (places ++ power))
        ⟨Nat.ofDigitChars 10 (whole ++ fraction) 0, exponent - fraction.length⟩

/-- The numbers of JSON, of which those below zero have a minus. -/
def IsJson (text : String) : Prop :=
  ∃ sign cs d, text.toList = sign ++ cs ∧ (sign = [] ∨ sign = ['-']) ∧ Shows cs d

variable {cs : List Char} {d : Decimal}

theorem Shows.writes (shows : Shows cs d) : Writes cs d := by
  cases shows with
  | parts isWhole isPlaces _ isPower =>
      exact .parts isWhole.1 isPlaces (List.append_ne_nil_of_left_ne_nil isWhole.ne_nil _) isPower

theorem exists_shows_pointed (some : 0 < d.digits) :
    ∃ shown, Shows d.pointed.toList shown ∧ shown.value = d.value := by
  obtain ⟨whole, fraction, text, isWhole, all, nonempty, same⟩ := Toml.exists_point some
  have shows := Shows.parts isWhole (.point all) (by simpa using nonempty) .none
  rw [Int.zero_sub, List.append_nil] at shows
  exact ⟨_, text ▸ shows, same⟩

theorem power_scientific (exponent : Int) :
    Power ('e' :: (if exponent < 0 then "-" else "+").toList ++ (toString exponent.natAbs).toList)
      exponent := by
  have text : (toString exponent.natAbs).toList = Nat.toDigits 10 exponent.natAbs := by simp
  have value := Nat.ofDigitChars_ten_toDigits (n := exponent.natAbs)
  have power {negative : Bool} {rest : List Char}
      (signed : Signed rest negative (Nat.toDigits 10 exponent.natAbs)) :=
    Power.some (.inl rfl) signed (Toml.allDigits_toDigits exponent.natAbs) Nat.toDigits_ne_nil
  rw [text]
  rw [value] at power
  split
  case isTrue below =>
    have same : -(exponent.natAbs : Int) = exponent := by omega
    have negative := power (.minus _)
    rwa [if_pos rfl, same] at negative
  case isFalse above =>
    have same : (exponent.natAbs : Int) = exponent := by omega
    have positive := power (.plus _)
    rwa [if_neg Bool.false_ne_true, same] at positive

theorem shows_scientific (some : 0 < d.digits) : Shows d.scientific.toList d := by
  obtain ⟨first, rest, digits, notZero⟩ := Toml.exists_first_toDigits some
  have all : Toml.AllDigits (first :: rest) := digits ▸ Toml.allDigits_toDigits d.digits
  rw [Toml.AllDigits, List.forall_mem_cons] at all
  have isWhole : IsWhole [first] :=
    ⟨List.forall_mem_singleton.mpr all.1, .inr ⟨first, [], rfl, notZero⟩⟩
  have value : Nat.ofDigitChars 10 ([first] ++ rest) 0 = d.digits := by
    rw [List.singleton_append, ← digits, Nat.ofDigitChars_ten_toDigits]
  have power := power_scientific (d.exponent + (Nat.toDigits 10 d.digits).length - 1)
  have exponent :
      d.exponent + (Nat.toDigits 10 d.digits).length - 1 - rest.length = d.exponent := by
    rw [digits, List.length_cons]
    omega
  have shows {places : List Char} (isPlaces : Places places rest) (filled : places ≠ ['.']) :=
    Shows.parts isWhole isPlaces filled power
  rw [value, exponent] at shows
  rw [Decimal.scientific]
  generalize d.exponent + (Nat.toDigits 10 d.digits).length - 1 = power at *
  rw [digits]
  cases rest with
  | nil =>
      convert shows .none (by decide) using 1
      simp
  | cons second rest =>
      convert shows (.point all.2) (by simp) using 1
      simp

end Number

namespace Binary64

open Number

variable {x : Binary64}

theorem jsonText_of_not_finite (infinite : x.isFinite = false) : x.jsonText = "null" := by
  rw [jsonText, infinite]
  rfl

theorem exists_jsonText (finite : x.isFinite = true) :
    ∃ cs d, x.jsonText.toList = x.signText.toList ++ cs ∧ Shows cs d ∧
      ofDecimal x.negative d.digits d.exponent = x := by
  rw [jsonText, finite, Bool.not_true, if_neg Bool.false_ne_true]
  cases zero : x.isZero with
  | true =>
      refine ⟨['0', '.', '0'], ⟨0, -1⟩, ?_, ?_, ?_⟩
      · simp
      · have digit : Toml.AllDigits ['0'] := Toml.allDigits_zeros 1
        exact .parts ⟨digit, .inl rfl⟩ (.point digit) (by decide) .none
      · rw [ofDecimal, if_pos rfl, ← word_eq_zero zero]
  | false =>
      have covers := shortest_covers zero .toEven
      have some := covers.pos_digits zero
      have read {shown : Decimal} (same : shown.value = (x.shortest .toEven).value) :
          ofDecimal x.negative shown.digits shown.exponent = x :=
        (same ▸ covers : x.Covers shown.value).ofDecimal_eq finite zero x.negative
      rw [if_neg Bool.false_ne_true]
      dsimp only
      rw [String.toList_append]
      split
      · obtain ⟨shown, shows, same⟩ := exists_shows_pointed some
        exact ⟨_, shown, rfl, shows, read same⟩
      · exact ⟨_, _, rfl, shows_scientific some, read rfl⟩

theorem isJson_jsonText (finite : x.isFinite = true) : IsJson x.jsonText := by
  obtain ⟨cs, d, text, shows, _⟩ := exists_jsonText finite
  refine ⟨_, cs, d, text, ?_, shows⟩
  rw [signText]
  split
  · exact .inr rfl
  · exact .inl rfl

/-- What is written of a finite number reads back. -/
theorem decimal?_jsonText (finite : x.isFinite = true) : decimal? x.jsonText = some x := by
  obtain ⟨cs, d, text, shows, same⟩ := exists_jsonText finite
  refine decimal?_eq_some_iff.mpr ⟨x.negative, cs, ?_, ?_⟩
  · rw [text, signText]
    cases x.negative with
    | true => exact .minus cs
    | false => exact .bare cs
  · have reads : Reads x.negative cs (ofDecimal x.negative d.digits d.exponent) :=
      .decimal shows.writes
    rwa [same] at reads

end Binary64

end RobotRoutine
