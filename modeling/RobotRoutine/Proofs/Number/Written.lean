import RobotRoutine.Proofs.Number.Overflow
import RobotRoutine.Proofs.Toml.Scalar

/-!
The texts of numbers.

A text that is read as a number is a sign, which may be left out, and a word or a numeral.  The
words stand for the infinities and for what is no number.  A numeral says a decimal: digits, of
which those behind a point are its places, and perhaps a power of ten.
-/

namespace RobotRoutine.Number

open Toml (AllDigits)

/-! Numerals. -/

/-- What is left of a text when its sign is taken off, if it has one. -/
inductive Signed : List Char → Bool → List Char → Prop where
  | bare (cs : List Char) : Signed cs false cs
  | plus (cs : List Char) : Signed ('+' :: cs) false cs
  | minus (cs : List Char) : Signed ('-' :: cs) true cs

/-- The point of a numeral with the places behind it, if there is one. -/
inductive Places : List Char → List Char → Prop where
  | none : Places [] []
  | point {digits : List Char} (all : AllDigits digits) : Places ('.' :: digits) digits

/-- The power of ten at the end of a numeral, if there is one. -/
inductive Power : List Char → Int → Prop where
  | none : Power [] 0
  | some {letter : Char} {rest digits : List Char} {negative : Bool}
      (isLetter : letter = 'e' ∨ letter = 'E') (signed : Signed rest negative digits)
      (all : AllDigits digits) (nonempty : digits ≠ []) :
      Power (letter :: rest)
        (if negative then -(Nat.ofDigitChars 10 digits 0 : Int) else Nat.ofDigitChars 10 digits 0)

/-- The numerals of decimals. -/
inductive Writes : List Char → Decimal → Prop where
  | parts {whole places fraction power : List Char} {exponent : Int} (all : AllDigits whole)
      (isPlaces : Places places fraction) (nonempty : whole ++ fraction ≠ [])
      (isPower : Power power exponent) :
      Writes (whole ++ (places ++ power))
        ⟨Nat.ofDigitChars 10 (whole ++ fraction) 0, exponent - fraction.length⟩

/-- A word in whatever case. -/
def Spells (word : String) (cs : List Char) : Prop := cs.map Char.toLower = word.toList

/-- The number that a text without its sign is read as. -/
inductive Reads (negative : Bool) : List Char → Binary64 → Prop where
  | infinity {cs : List Char} (word : Spells "inf" cs ∨ Spells "infinity" cs) :
      Reads negative cs (.infinity negative)
  | notANumber {cs : List Char} (word : Spells "nan" cs) :
      Reads negative cs { Binary64.notANumber with negative }
  | decimal {cs : List Char} {d : Decimal} (writes : Writes cs d) :
      Reads negative cs (.ofDecimal negative d.digits d.exponent)

variable {cs rest digits : List Char} {negative : Bool} {n : Nat} {exponent : Int} {d : Decimal}
  {x : Binary64}

theorem digitsOnto?_eq_some_iff {value : Nat} :
    digitsOnto? value cs = some n ↔ AllDigits cs ∧ Nat.ofDigitChars 10 cs value = n := by
  induction cs generalizing value with
  | nil => simp [digitsOnto?, AllDigits]
  | cons c rest inductionHypothesis =>
      rw [digitsOnto?, digitValue?, AllDigits, List.forall_mem_cons, Nat.ofDigitChars_cons]
      by_cases digit : c.isDigit = true
      · rw [if_pos digit]
        dsimp only
        rw [inductionHypothesis, Nat.mul_comm]
        simp [digit, AllDigits]
      · simp [digit]

theorem digits?_eq_some_iff :
    digits? cs = some n ↔ cs ≠ [] ∧ AllDigits cs ∧ Nat.ofDigitChars 10 cs 0 = n := by
  cases cs with
  | nil => simp [digits?]
  | cons c rest =>
      rw [digits?, digitsOnto?_eq_some_iff]
      · simp
      · simp

theorem signed_spanSign (cs : List Char) : Signed cs (spanSign cs).1 (spanSign cs).2 := by
  unfold spanSign
  split
  · exact .minus _
  · exact .plus _
  · exact .bare _

/-- A sign is taken off once. -/
theorem Signed.spanSign_eq (signed : Signed cs negative rest)
    (unsigned : ∀ c ∈ rest.head?, c ≠ '+' ∧ c ≠ '-') : spanSign cs = (negative, rest) := by
  cases signed with
  | plus => rfl
  | minus => rfl
  | bare =>
      unfold spanSign
      split
      · exact absurd rfl (unsigned '-' rfl).2
      · exact absurd rfl (unsigned '+' rfl).1
      · rfl

theorem head_ne_of_allDigits (all : AllDigits digits) : ∀ c ∈ digits.head?, c ≠ '+' ∧ c ≠ '-' := by
  intro c first
  have digit := all c (List.mem_of_mem_head? first)
  constructor <;> rintro rfl <;> exact absurd digit (by decide)

theorem exponentPart?_eq_some_iff : exponentPart? cs = some exponent ↔ Power cs exponent := by
  constructor
  · intro read
    cases cs with
    | nil =>
        cases read
        exact .none
    | cons c rest =>
        rw [exponentPart?] at read
        split at read
        case isTrue isLetter =>
          simp only [Option.map_eq_some_iff, Option.bind_eq_bind, Option.bind_eq_some_iff] at read
          obtain ⟨_, ⟨value, isValue, same⟩, rfl⟩ := read
          cases same
          obtain ⟨nonempty, all, rfl⟩ := digits?_eq_some_iff.mp isValue
          refine .some ?_ (signed_spanSign rest) all nonempty
          simpa using isLetter
        case isFalse => cases read
  · intro isPower
    cases isPower with
    | none => rfl
    | some isLetter signed all nonempty =>
        rw [exponentPart?, if_pos (by simpa using isLetter),
          signed.spanSign_eq (head_ne_of_allDigits all)]
        dsimp only
        rw [digits?_eq_some_iff.mpr ⟨nonempty, all, rfl⟩]
        rfl

/-! Taking a numeral apart. -/

/-- Digits end where no digit follows. -/
theorem spanDigits_append (all : AllDigits digits) (ends : ∀ c ∈ rest.head?, c.isDigit = false) :
    spanDigits (digits ++ rest) = (digits, rest) := by
  have nothing : rest.takeWhile Char.isDigit = [] ∧ rest.dropWhile Char.isDigit = rest := by
    cases rest with
    | nil => exact ⟨rfl, rfl⟩
    | cons c rest => simp [ends c rfl]
  rw [spanDigits, List.takeWhile_append_of_pos all, List.dropWhile_append_of_pos all, nothing.1,
    nothing.2, List.append_nil]

theorem exists_spanDigits (cs : List Char) :
    ∃ digits rest, spanDigits cs = (digits, rest) ∧ cs = digits ++ rest ∧ AllDigits digits :=
  ⟨_, _, rfl, List.takeWhile_append_dropWhile.symm, List.all_eq_true.mp List.all_takeWhile⟩

theorem exists_spanFraction (cs : List Char) :
    ∃ fraction rest places, spanFraction cs = (fraction, rest) ∧ cs = places ++ rest ∧
      Places places fraction := by
  unfold spanFraction
  split
  case h_1 behind =>
    obtain ⟨digits, rest, spanned, rfl, all⟩ := exists_spanDigits behind
    exact ⟨digits, rest, '.' :: digits, spanned, rfl, .point all⟩
  case h_2 => exact ⟨[], cs, [], rfl, rfl, .none⟩

theorem Power.head_cases (isPower : Power cs exponent) : ∀ c ∈ cs.head?, c = 'e' ∨ c = 'E' := by
  cases isPower with
  | none => nofun
  | some isLetter =>
      rintro _ ⟨⟩
      exact isLetter

theorem Power.head_not_digit (isPower : Power cs exponent) : ∀ c ∈ cs.head?, c.isDigit = false := by
  intro c first
  rcases isPower.head_cases c first with rfl | rfl <;> decide

theorem Places.spanFraction_append {places fraction power : List Char}
    (isPlaces : Places places fraction) (isPower : Power power exponent) :
    spanFraction (places ++ power) = (fraction, power) := by
  cases isPlaces with
  | none =>
      unfold spanFraction
      split
      case h_1 behind same =>
        obtain rfl : power = '.' :: behind := same
        rcases isPower.head_cases '.' rfl with isLetter | isLetter <;> cases isLetter
      case h_2 => rfl
  | point all => exact spanDigits_append all isPower.head_not_digit

theorem Places.head_not_digit {places fraction power : List Char}
    (isPlaces : Places places fraction) (isPower : Power power exponent) :
    ∀ c ∈ (places ++ power).head?, c.isDigit = false := by
  cases isPlaces with
  | none => exact isPower.head_not_digit
  | point all =>
      rintro _ ⟨⟩
      decide

theorem Places.allDigits {places fraction : List Char} (isPlaces : Places places fraction) :
    AllDigits fraction := by
  cases isPlaces with
  | none => exact List.forall_mem_nil _
  | point all => exact all

/-- A numeral is read as the decimal that it says. -/
theorem magnitude?_eq_some_iff :
    magnitude? negative cs = some x ↔
      ∃ d, Writes cs d ∧ Binary64.ofDecimal negative d.digits d.exponent = x := by
  constructor
  · intro read
    obtain ⟨whole, afterWhole, spanned, rfl, all⟩ := exists_spanDigits cs
    obtain ⟨fraction, power, places, spannedToo, rfl, isPlaces⟩ := exists_spanFraction afterWhole
    rw [magnitude?, spanned] at read
    dsimp only at read
    rw [spannedToo] at read
    dsimp only at read
    split at read
    case h_1 mantissa exponent isMantissa isExponent =>
      obtain ⟨nonempty, _, rfl⟩ := digits?_eq_some_iff.mp isMantissa
      exact ⟨_, .parts all isPlaces nonempty (exponentPart?_eq_some_iff.mp isExponent),
        Option.some.inj read⟩
    case h_2 => cases read
  · rintro ⟨d, writes, rfl⟩
    cases writes with
    | parts all isPlaces nonempty isPower =>
        have digits := Toml.allDigits_append all isPlaces.allDigits
        rw [magnitude?, spanDigits_append all (isPlaces.head_not_digit isPower)]
        dsimp only
        rw [isPlaces.spanFraction_append isPower]
        dsimp only
        rw [digits?_eq_some_iff.mpr ⟨nonempty, digits, rfl⟩, exponentPart?_eq_some_iff.mpr isPower]

/-! Signs and words. -/

theorem Writes.head_cases (writes : Writes cs d) :
    ∀ c ∈ cs.head?, c.isDigit = true ∨ c = '.' := by
  cases writes with
  | @parts whole places fraction power exponent all isPlaces nonempty isPower =>
      cases whole with
      | cons c rest =>
          rintro _ ⟨⟩
          exact .inl (all c List.mem_cons_self)
      | nil =>
          cases isPlaces with
          | none => exact absurd rfl nonempty
          | point =>
              rintro _ ⟨⟩
              exact .inr rfl

theorem toLower_of_isDigit {c : Char} (digit : c.isDigit = true) : c.toLower = c := by
  refine dif_neg ?_
  rintro ⟨capital, _⟩
  rw [Char.isDigit_iff_toNat] at digit
  exact absurd (digit.2.trans_lt (by decide : _ < 65)) (not_lt.mpr capital)

/-- A word that begins with a letter is not said by digits. -/
theorem Writes.not_spells (writes : Writes cs d) {word : String} {first : Char}
    {letters : List Char} (begins : word.toList = first :: letters)
    (isLetter : first.isDigit = false ∧ first ≠ '.') :
    ¬Spells word cs := by
  intro spells
  rw [Spells, begins] at spells
  obtain ⟨c, rest, rfl, same, _⟩ := List.map_eq_cons_iff.mp spells
  rcases writes.head_cases c rfl with digit | rfl
  · rw [toLower_of_isDigit digit] at same
    rw [same, isLetter.1] at digit
    cases digit
  · exact isLetter.2 same.symm

theorem Spells.head_ne {word : String} (spells : Spells word cs) {first : Char}
    {letters : List Char} (begins : word.toList = first :: letters)
    (isLetter : first ≠ '+' ∧ first ≠ '-') :
    ∀ c ∈ cs.head?, c ≠ '+' ∧ c ≠ '-' := by
  rw [Spells, begins] at spells
  obtain ⟨c, rest, rfl, same, _⟩ := List.map_eq_cons_iff.mp spells
  rintro _ ⟨⟩
  constructor
  · rintro rfl
    exact isLetter.1 same.symm
  · rintro rfl
    exact isLetter.2 same.symm

theorem Reads.head_ne (reads : Reads negative cs x) : ∀ c ∈ cs.head?, c ≠ '+' ∧ c ≠ '-' := by
  cases reads with
  | infinity word =>
      rcases word with word | word
      · exact word.head_ne rfl (by decide)
      · exact word.head_ne rfl (by decide)
  | notANumber word => exact word.head_ne rfl (by decide)
  | decimal writes =>
      intro c first
      rcases writes.head_cases c first with digit | rfl
      · constructor <;> rintro rfl <;> exact absurd digit (by decide)
      · decide

/-- A text is read as the number that it says. -/
theorem decimal?_eq_some_iff {text : String} :
    decimal? text = some x ↔
      ∃ negative cs, Signed text.toList negative cs ∧ Reads negative cs x := by
  constructor
  · intro read
    refine ⟨_, _, signed_spanSign text.toList, ?_⟩
    rw [decimal?] at read
    dsimp only at read
    split_ifs at read with infinite nameless
    · cases read
      exact .infinity (by simpa [Spells] using infinite)
    · cases read
      exact .notANumber (by simpa [Spells] using nameless)
    · obtain ⟨d, writes, rfl⟩ := magnitude?_eq_some_iff.mp read
      exact .decimal writes
  · rintro ⟨negative, cs, signed, reads⟩
    rw [decimal?, signed.spanSign_eq reads.head_ne]
    dsimp only
    cases reads with
    | infinity word =>
        rw [if_pos]
        simpa [Spells] using word
    | notANumber word =>
        rw [Spells] at word
        rw [word]
        rfl
    | decimal writes =>
        have notInfinite : ¬Spells "inf" cs ∧ ¬Spells "infinity" cs :=
          ⟨writes.not_spells rfl (by decide), writes.not_spells rfl (by decide)⟩
        have notNaN : ¬Spells "nan" cs := writes.not_spells rfl (by decide)
        rw [if_neg (by simpa [Spells] using notInfinite), if_neg (by simpa [Spells] using notNaN)]
        exact magnitude?_eq_some_iff.mpr ⟨_, writes, rfl⟩

/-! What kind of number a text is read as. -/

/-- The word for what is no number, with a sign perhaps. -/
def SaysNaN (text : String) : Prop :=
  ∃ negative cs, Signed text.toList negative cs ∧ Spells "nan" cs

/-- A numeral within the range, with a sign perhaps. -/
def SaysFinite (text : String) : Prop :=
  ∃ negative cs d, Signed text.toList negative cs ∧ Writes cs d ∧ d.value < Binary64.overflow

theorem isNaN_iff {text : String} (read : decimal? text = some x) :
    x.isNaN = true ↔ SaysNaN text := by
  constructor
  · intro nameless
    obtain ⟨negative, cs, signed, reads⟩ := decimal?_eq_some_iff.mp read
    cases reads with
    | infinity => cases nameless
    | notANumber word => exact ⟨negative, cs, signed, word⟩
    | decimal =>
        rw [Binary64.isNaN_ofDecimal] at nameless
        cases nameless
  · rintro ⟨negative, cs, signed, word⟩
    have said := decimal?_eq_some_iff.mpr ⟨negative, cs, signed, .notANumber word⟩
    cases read.symm.trans said
    rfl

theorem isFinite_iff {text : String} (read : decimal? text = some x) :
    x.isFinite = true ↔ SaysFinite text := by
  constructor
  · intro finite
    obtain ⟨negative, cs, signed, reads⟩ := decimal?_eq_some_iff.mp read
    cases reads with
    | infinity => cases finite
    | notANumber => cases finite
    | decimal writes =>
        rw [Binary64.isFinite_ofDecimal_iff] at finite
        exact ⟨negative, cs, _, signed, writes, finite⟩
  · rintro ⟨negative, cs, d, signed, writes, below⟩
    have said := decimal?_eq_some_iff.mpr ⟨negative, cs, signed, .decimal writes⟩
    cases read.symm.trans said
    exact (Binary64.isFinite_ofDecimal_iff negative d).mpr below

end RobotRoutine.Number
