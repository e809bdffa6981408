import RobotRoutine.Number.Layout
import RobotRoutine.Proofs.Number.Shortest
import RobotRoutine.Toml.Scalar

/-!
Numbers read back.

A natural and a decimal with its point are read as they were written: their digits say the same
number again, and nothing in them looks like a date or a time.
-/

namespace RobotRoutine

namespace Toml

/-! Digits. -/

/-- Characters of which each is a digit. -/
def AllDigits (cs : List Char) : Prop := ∀ c ∈ cs, c.isDigit = true

theorem allDigits_append {first second : List Char} (digits : AllDigits first)
    (digitsToo : AllDigits second) : AllDigits (first ++ second) :=
  List.forall_mem_append.mpr ⟨digits, digitsToo⟩

theorem allDigits_toDigits (n : Nat) : AllDigits (Nat.toDigits 10 n) :=
  fun _ member => Nat.isDigit_of_mem_toDigits (by decide) (by decide) member

theorem allDigits_zeros (count : Nat) : AllDigits (List.replicate count '0') := by
  intro c member
  rw [List.eq_of_mem_replicate member]
  decide

theorem ungroup?_of_digits {cs : List Char} (digits : AllDigits cs) (some : cs ≠ []) :
    ungroup? Char.isDigit cs = .some cs := by
  induction cs with
  | nil => exact absurd rfl some
  | cons c rest inductionHypothesis =>
      rw [AllDigits, List.forall_mem_cons] at digits
      cases rest with
      | nil => rw [ungroup?, if_pos digits.1]
      | cons d rest =>
          have notGroup : d ≠ '_' := by
            rintro rfl
            exact absurd (digits.2 '_' List.mem_cons_self) (by decide)
          rw [ungroup?, if_pos digits.1, inductionHypothesis digits.2 (by simp)]
          · rfl
          · simp
          · simpa using notGroup

/-- Digits with anything else among them, but underscores, are no number. -/
theorem ungroup?_of_other {cs : List Char} {c : Char} (member : c ∈ cs)
    (notDigit : c.isDigit = false) (notGroup : c ≠ '_') : ungroup? Char.isDigit cs = none := by
  have notHere {d : Char} (digit : d.isDigit = true) : c ≠ d := by
    rintro rfl
    rw [notDigit] at digit
    cases digit
  fun_induction ungroup? Char.isDigit cs with
  | case1 => exact absurd member List.not_mem_nil
  | case2 d digit => exact absurd (List.mem_singleton.mp member) (notHere digit)
  | case3 => rfl
  | case4 d rest digit inductionHypothesis =>
      have inRest : c ∈ rest := by
        simpa [notHere digit, notGroup] using member
      rw [inductionHypothesis inRest]
      rfl
  | case5 => rfl
  | case6 d rest _ _ digit inductionHypothesis =>
      rw [inductionHypothesis ((List.mem_cons.mp member).resolve_left (notHere digit))]
      rfl
  | case7 => rfl

/-- Digits as they are written for a whole number. -/
def IsWhole (digits : List Char) : Prop := AllDigits digits ∧
  (digits = ['0'] ∨ ∃ first rest, digits = first :: rest ∧ first ≠ '0')

theorem IsWhole.ne_nil {digits : List Char} (whole : IsWhole digits) : digits ≠ [] := by
  obtain ⟨_, rfl | ⟨first, rest, rfl, _⟩⟩ := whole <;> simp

theorem wholeDigits?_of_isWhole {digits : List Char} (whole : IsWhole digits) :
    wholeDigits? digits = some digits := by
  rw [wholeDigits?, ungroup?_of_digits whole.1 whole.ne_nil]
  obtain ⟨_, rfl | ⟨first, rest, rfl, notZero⟩⟩ := whole
  · rfl
  · split
    case h_1 same =>
      cases same
      exact absurd rfl notZero
    case h_2 => rfl

theorem exists_first_toDigits {n : Nat} (some : 0 < n) :
    ∃ first rest, Nat.toDigits 10 n = first :: rest ∧ first ≠ '0' := by
  induction n using Nat.strongRecOn with
  | ind n inductionHypothesis =>
      by_cases small : n < 10
      · exact ⟨_, _, Nat.toDigits_of_lt_base small, mt Nat.digitChar_eq_zero.mp (by omega)⟩
      · obtain ⟨first, rest, same, notZero⟩ := inductionHypothesis (n / 10) (by omega) (by omega)
        refine ⟨first, rest ++ [Nat.digitChar (n % 10)], ?_, notZero⟩
        rw [Nat.toDigits_of_base_le (by decide) (by omega), same]
        rfl

theorem isWhole_toDigits (n : Nat) : IsWhole (Nat.toDigits 10 n) := by
  refine ⟨allDigits_toDigits n, ?_⟩
  rcases Nat.eq_zero_or_pos n with rfl | some
  · exact .inl (Nat.toDigits_zero 10)
  · exact .inr (exists_first_toDigits some)

theorem hexValue?_of_isDigit {c : Char} (digit : c.isDigit = true) :
    hexValue? c = some (c.toNat - 48) := by
  rw [hexValue?, if_pos digit]

/-- The value of digits is the one that the library gives them. -/
theorem valueInBase_eq {digits : List Char} (all : AllDigits digits) :
    valueInBase 10 digits = Nat.ofDigitChars 10 digits 0 := by
  have folded (value : Nat) :
      digits.foldl (fun value c => value * 10 + (hexValue? c).getD 0) value =
        Nat.ofDigitChars 10 digits value := by
    induction digits generalizing value with
    | nil => rfl
    | cons c rest inductionHypothesis =>
        rw [AllDigits, List.forall_mem_cons] at all
        rw [List.foldl_cons, inductionHypothesis all.2, hexValue?_of_isDigit all.1,
          Option.getD_some, Nat.ofDigitChars_cons, Nat.mul_comm]
        rfl
  exact folded 0

/-! Nothing like a date or a time. -/

theorem mem_drop_of_field? {width value : Nat} {cs rest : List Char}
    (found : field? width cs = some (value, rest)) : ∀ c ∈ rest, c ∈ cs := by
  rw [field?] at found
  split at found
  · cases found
    exact fun c member => List.mem_of_mem_drop member
  · cases found

/-- Dates and times have dashes or colons in them. -/
theorem isMoment_eq_false {cs : List Char} (dashless : '-' ∉ cs) (colonless : ':' ∉ cs) :
    isMoment cs = false := by
  have noDate : afterDate? cs = none := by
    rw [afterDate?]
    cases found : field? 4 cs with
    | none => rfl
    | some year =>
        obtain ⟨year, rest⟩ := year
        have inside := mem_drop_of_field? found
        rw [Option.bind_eq_bind, Option.bind_some]
        dsimp only
        split
        case h_1 => exact absurd (inside '-' List.mem_cons_self) dashless
        case h_2 => rfl
  have noTime : afterTime? cs = none := by
    rw [afterTime?, afterMinutes?]
    cases found : field? 2 cs with
    | none => rfl
    | some hour =>
        obtain ⟨hour, rest⟩ := hour
        have inside := mem_drop_of_field? found
        rw [Option.bind_eq_bind, Option.bind_some]
        dsimp only
        split
        case h_1 => exact absurd (inside ':' List.mem_cons_self) colonless
        case h_2 => rfl
  rw [isMoment, noDate, noTime]
  rfl

/-! Numbers. -/

/-- The characters of a written number. -/
def IsNumeral (cs : List Char) : Prop := ∀ c ∈ cs, c.isDigit = true ∨ c = '.'

/-- A written number without a sign, and what it is read as. -/
structure Denotes (cs : List Char) (value : Value) : Prop where
  numeral : IsNumeral cs
  begins : ∃ first rest, cs = first :: rest ∧ first.isDigit = true
  scalar : scalar? cs = some value

/-- A number whose first character is a digit is read without a sign or a base. -/
theorem scalar?_of_numeral {cs : List Char} (numeral : IsNumeral cs)
    (begins : ∃ first rest, cs = first :: rest ∧ first.isDigit = true) :
    scalar? cs = unsigned? false cs := by
  obtain ⟨first, rest, rfl, digit⟩ := begins
  have absent (c : Char) (notDigit : c.isDigit = false) (notPoint : c ≠ '.') :
      c ∉ first :: rest := by
    intro member
    rcases numeral c member with isDigit | isPoint
    · rw [notDigit] at isDigit
      cases isDigit
    · exact notPoint isPoint
  have notTrue : first :: rest ≠ ['t', 'r', 'u', 'e'] := by
    rintro ⟨⟩
    exact absurd digit (by decide)
  have notFalse : first :: rest ≠ ['f', 'a', 'l', 's', 'e'] := by
    rintro ⟨⟩
    exact absurd digit (by decide)
  rw [scalar?, if_neg notTrue, if_neg notFalse,
    isMoment_eq_false (absent '-' (by decide) (by decide)) (absent ':' (by decide) (by decide)),
    if_neg Bool.false_ne_true, number?]
  · rintro more ⟨⟩
    exact absent 'x' (by decide) (by decide) (by simp)
  · rintro more ⟨⟩
    exact absent 'o' (by decide) (by decide) (by simp)
  · rintro more ⟨⟩
    exact absent 'b' (by decide) (by decide) (by simp)
  · rintro more ⟨⟩
    exact absent '+' (by decide) (by decide) (by simp)
  · rintro more ⟨⟩
    exact absent '-' (by decide) (by decide) (by simp)

/-- No number that begins with a digit is one of the words. -/
theorem unsigned?_of_digit {first : Char} {rest : List Char} (digit : first.isDigit = true) :
    unsigned? false (first :: rest) =
      match wholeDigits? (first :: rest) with
      | some digits => some (.integer (valueInBase 10 digits))
      | none => decimal? false (first :: rest) := by
  have notInfinite : first :: rest ≠ ['i', 'n', 'f'] := by
    rintro ⟨⟩
    exact absurd digit (by decide)
  have isNumber : first :: rest ≠ ['n', 'a', 'n'] := by
    rintro ⟨⟩
    exact absurd digit (by decide)
  rw [unsigned?, if_neg notInfinite, if_neg isNumber]
  rfl

theorem IsWhole.exists_first {digits : List Char} (whole : IsWhole digits) :
    ∃ first rest, digits = first :: rest ∧ first.isDigit = true := by
  obtain ⟨first, rest, rfl⟩ := List.exists_cons_of_ne_nil whole.ne_nil
  exact ⟨first, rest, rfl, whole.1 first List.mem_cons_self⟩

/-- A natural is read as itself. -/
theorem denotes_toDigits (n : Nat) : Denotes (Nat.toDigits 10 n) (.integer n) := by
  have whole := isWhole_toDigits n
  have numeral : IsNumeral (Nat.toDigits 10 n) := fun c member => .inl (whole.1 c member)
  refine ⟨numeral, whole.exists_first, ?_⟩
  have value : valueInBase 10 (Nat.toDigits 10 n) = n := by
    rw [valueInBase_eq whole.1, Nat.ofDigitChars_ten_toDigits]
  rw [scalar?_of_numeral numeral whole.exists_first]
  obtain ⟨first, rest, same, digit⟩ := whole.exists_first
  rw [same] at whole value ⊢
  rw [unsigned?_of_digit digit, wholeDigits?_of_isWhole whole]
  dsimp only
  rw [value]

theorem splitFirst_of_not {picks : Char → Bool} {cs : List Char}
    (none : ∀ c ∈ cs, picks c = false) : splitFirst picks cs = (cs, .none) := by
  have passes : ∀ c ∈ cs, (!picks c) = true := fun c member => by simp [none c member]
  have all : cs.dropWhile (fun c => !picks c) = [] := by
    rw [← List.append_nil cs, List.dropWhile_append_of_pos passes]
    rfl
  rw [splitFirst, all]

theorem splitFirst_append {picks : Char → Bool} {front rest : List Char} {c : Char}
    (none : ∀ c ∈ front, picks c = false) (picked : picks c = true) :
    splitFirst picks (front ++ c :: rest) = (front, some rest) := by
  have passes : ∀ c ∈ front, (!picks c) = true := fun c member => by simp [none c member]
  rw [splitFirst, List.dropWhile_append_of_pos passes, List.dropWhile_cons,
    if_neg (by simp [picked])]
  dsimp only
  rw [List.takeWhile_append_of_pos passes, List.takeWhile_cons, if_neg (by simp [picked]),
    List.append_nil]

/-- A number with a point is read as the decimal that its digits say. -/
theorem denotes_of_point {whole fraction : List Char} (isWhole : IsWhole whole)
    (digits : AllDigits fraction) (some : fraction ≠ []) {x : Binary64}
    (value : Binary64.ofDecimal false (Nat.ofDigitChars 10 (whole ++ fraction) 0)
      (-fraction.length) = x) (bounded : x.isInfinite = false) :
    Denotes (whole ++ '.' :: fraction) (.float x) := by
  have all := allDigits_append isWhole.1 digits
  have numeral : IsNumeral (whole ++ '.' :: fraction) := by
    intro c member
    rw [List.mem_append, List.mem_cons] at member
    rcases member with inWhole | rfl | inFraction
    · exact .inl (isWhole.1 c inWhole)
    · exact .inr rfl
    · exact .inl (digits c inFraction)
  have notWhole : wholeDigits? (whole ++ '.' :: fraction) = none := by
    rw [wholeDigits?, ungroup?_of_other (c := '.') (by simp) (by decide) (by decide)]
  have noExponent : ∀ c ∈ whole ++ '.' :: fraction, (c == 'e' || c == 'E') = false := by
    intro c member
    rw [Bool.or_eq_false_iff, beq_eq_false_iff_ne, beq_eq_false_iff_ne]
    rcases numeral c member with digit | rfl
    · constructor <;> rintro rfl <;> exact absurd digit (by decide)
    · decide
  have noPoint : ∀ c ∈ whole, (c == '.') = false := by
    intro c member
    rw [beq_eq_false_iff_ne]
    rintro rfl
    exact absurd (isWhole.1 '.' member) (by decide)
  have read : decimal? false (whole ++ '.' :: fraction) = .some (.float x) := by
    rw [decimal?, splitFirst_of_not noExponent]
    dsimp only
    rw [splitFirst_append noPoint (by decide)]
    dsimp only
    rw [wholeDigits?_of_isWhole isWhole, optionalDigits?, ungroup?_of_digits digits some]
    simp only [exponent?, Option.bind_eq_bind, Option.bind_some, Option.isNone_some,
      Bool.false_and, Bool.false_eq_true, if_false, valueInBase_eq all, Int.zero_sub, value,
      bounded]
  obtain ⟨first, rest, rfl, digit⟩ := isWhole.exists_first
  refine ⟨numeral, ⟨first, _, rfl, digit⟩, ?_⟩
  rw [scalar?_of_numeral numeral ⟨first, _, rfl, digit⟩, List.cons_append,
    unsigned?_of_digit digit]
  rw [List.cons_append] at notWhole read
  rw [notWhole]
  exact read

/-! Decimals with a point. -/

theorem isWhole_append_zeros {n : Nat} (some : 0 < n) (count : Nat) :
    IsWhole (Nat.toDigits 10 n ++ List.replicate count '0') := by
  obtain ⟨first, rest, same, notZero⟩ := exists_first_toDigits some
  refine ⟨allDigits_append (allDigits_toDigits n) (allDigits_zeros count), .inr ?_⟩
  rw [same]
  exact ⟨first, _, rfl, notZero⟩

theorem isWhole_take {n count : Nat} (some : 0 < n) (positive : 0 < count) :
    IsWhole ((Nat.toDigits 10 n).take count) := by
  obtain ⟨first, rest, same, notZero⟩ := exists_first_toDigits some
  refine ⟨fun c member => allDigits_toDigits n c (List.mem_of_mem_take member), .inr ?_⟩
  obtain ⟨less, rfl⟩ := Nat.exists_eq_add_one_of_ne_zero (Nat.ne_of_gt positive)
  rw [same]
  exact ⟨first, _, rfl, notZero⟩

/-- The digits around the point say the decimal that was written. -/
theorem exists_point {d : Decimal} (some : 0 < d.digits) :
    ∃ whole fraction, d.pointed.toList = whole ++ '.' :: fraction ∧ IsWhole whole ∧
      AllDigits fraction ∧ fraction ≠ [] ∧
      (⟨Nat.ofDigitChars 10 (whole ++ fraction) 0, -fraction.length⟩ : Decimal).value =
        d.value := by
  rw [Decimal.pointed, Decimal.positional]
  dsimp only
  by_cases nonnegative : 0 ≤ d.exponent
  · rw [if_pos nonnegative, if_pos nonnegative]
    refine ⟨_, ['0'], ?_, isWhole_append_zeros some d.exponent.toNat, allDigits_zeros 1,
      by simp, ?_⟩
    · simp [Decimal.zeros]
    · have scaled : Nat.ofDigitChars 10
          (Nat.toDigits 10 d.digits ++ List.replicate d.exponent.toNat '0' ++ ['0']) 0 =
            10 * (10 ^ d.exponent.toNat * d.digits) := by
        rw [Nat.ofDigitChars_append, Nat.ofDigitChars_append, Nat.ofDigitChars_ten_toDigits,
          Nat.ofDigitChars_replicate_zero]
        rfl
      rw [scaled, Decimal.value, Decimal.value, Nat.cast_mul, Nat.cast_mul,
        cast_pow_toNat 10 nonnegative]
      norm_num
      ring
  · rw [if_neg nonnegative, if_neg nonnegative]
    split
    case isTrue fewer =>
      obtain ⟨count, isCount⟩ : ∃ count,
          (Nat.toDigits 10 d.digits).length - (-d.exponent).toNat = count := ⟨_, rfl⟩
      rw [isCount]
      refine ⟨(Nat.toDigits 10 d.digits).take count, (Nat.toDigits 10 d.digits).drop count, ?_,
        isWhole_take some (by omega),
        fun c member => allDigits_toDigits _ c (List.mem_of_mem_drop member), ?_, ?_⟩
      · simp
      · rw [Ne, List.drop_eq_nil_iff]
        omega
      · have places : -(((Nat.toDigits 10 d.digits).drop count).length : Int) = d.exponent := by
          rw [List.length_drop]
          omega
        rw [List.take_append_drop, Nat.ofDigitChars_ten_toDigits, places]
    case isFalse more =>
      refine ⟨['0'], List.replicate ((-d.exponent).toNat - (Nat.toDigits 10 d.digits).length) '0' ++
        Nat.toDigits 10 d.digits, ?_, ⟨allDigits_zeros 1, .inl rfl⟩,
        allDigits_append (allDigits_zeros _) (allDigits_toDigits _), by simp, ?_⟩
      · simp [Decimal.zeros]
      · have places : -((List.replicate ((-d.exponent).toNat - (Nat.toDigits 10 d.digits).length)
            '0' ++ Nat.toDigits 10 d.digits).length : Int) = d.exponent := by
          rw [List.length_append, List.length_replicate]
          omega
        have value : Nat.ofDigitChars 10 (['0'] ++
            (List.replicate ((-d.exponent).toNat - (Nat.toDigits 10 d.digits).length) '0' ++
              Nat.toDigits 10 d.digits)) 0 = d.digits := by
          rw [Nat.ofDigitChars_append, Nat.ofDigitChars_append, Nat.ofDigitChars_replicate_zero]
          exact Nat.ofDigitChars_ten_toDigits
        rw [value, places]

/-- A number above zero and below infinity. -/
structure IsMagnitude (x : Binary64) : Prop where
  positive : x.negative = false
  nonzero : x.isZero = false
  finite : x.isFinite = true

/-- A magnitude is read back from the form with a point. -/
theorem denotes_pointText {x : Binary64} (magnitude : IsMagnitude x) :
    Denotes x.pointText.toList (.float x) := by
  obtain ⟨positive, nonzero, finite⟩ := magnitude
  have below : x.word.val < Binary64.infinityWord := of_decide_eq_true finite
  have covers := Binary64.shortest_covers nonzero .up
  obtain ⟨whole, fraction, written, isWhole, digits, more, value⟩ :=
    exists_point (covers.pos_digits nonzero)
  rw [← value] at covers
  have read := covers.ofDecimal_eq finite nonzero false
  dsimp only at read
  have same : (⟨false, x.word⟩ : Binary64) = x := by
    rw [← positive]
  have bounded : x.isInfinite = false := beq_false_of_ne (Nat.ne_of_lt below)
  have text : x.pointText = (x.shortest .up).pointed := by
    have number : x.isNaN = false := decide_eq_false (Nat.not_lt_of_lt below)
    rw [Binary64.pointText, Binary64.signText, positive, nonzero, number, bounded,
      if_neg Bool.false_ne_true, if_neg Bool.false_ne_true, if_neg Bool.false_ne_true,
      if_neg Bool.false_ne_true, String.empty_append]
  rw [text, written]
  exact denotes_of_point isWhole digits more (read.trans same) bounded

end Toml

end RobotRoutine
