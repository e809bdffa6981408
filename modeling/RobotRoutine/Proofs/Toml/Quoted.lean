import Mathlib.Data.List.Infix
import RobotRoutine.Toml.Quoted

/-!
Quoted strings read back.

Every text is read back from its quoted form, whichever form is taken.  Between three quotes up to
two more may stand together; at the end of the text they run into the closing ones, and the reader
gives them back to the text.
-/

namespace RobotRoutine.Toml

/-! Characters between double quotes. -/

/-- How a character that is no double quote is written between double quotes. -/
inductive Spelled (lines : Bool) (c : Char) : List Char → Prop where
  | itself : (isPlain c = true ∨ lines = true ∧ c = '\n') → c ≠ backslash → Spelled lines c [c]
  | letter {letter} : letterEscape? letter = some c → Spelled lines c [backslash, letter]
  | coded {high low first second} : hexValue? high = some first → hexValue? low = some second →
      first * 16 + second = c.toNat → Spelled lines c [backslash, 'u', '0', '0', high, low]

theorem hexValue?_hexCapital : ∀ n < 16, hexValue? (hexCapital n) = some n := by decide

theorem small_of_not_plain {c : Char} (control : isPlain c = false) : c.toNat < 128 := by
  simp only [isPlain, Bool.or_eq_false_iff, Bool.and_eq_false_iff, decide_eq_false_iff_not,
    bne_eq_false_iff_eq] at control
  omega

theorem spelled_escapeCharacter (lines : Bool) (c : Char) :
    Spelled lines c (escapeCharacter lines c) := by
  unfold escapeCharacter
  split
  case isTrue lineEnd =>
    obtain rfl := eq_of_beq lineEnd
    cases lines
    · exact .letter (by decide)
    · exact .itself (.inr ⟨rfl, rfl⟩) (by decide)
  split
  case isTrue tab =>
    obtain rfl := eq_of_beq tab
    exact .letter (by decide)
  split
  case isTrue back =>
    obtain rfl := eq_of_beq back
    exact .letter (by decide)
  split
  case isTrue backspace =>
    obtain rfl := eq_of_beq backspace
    exact .letter (by decide)
  split
  case isTrue feed =>
    obtain rfl := eq_of_beq feed
    exact .letter (by decide)
  split
  case isTrue slash =>
    obtain rfl := eq_of_beq slash
    exact .letter (by decide)
  case isFalse notSlash =>
    split
    case isTrue plain => exact .itself (.inl plain) fun same => notSlash (beq_iff_eq.mpr same)
    case isFalse control =>
      have small := small_of_not_plain (Bool.eq_false_iff.mpr control)
      refine .coded (hexValue?_hexCapital _ (by omega)) (hexValue?_hexCapital _ (by omega)) ?_
      omega

theorem character?_toNat (c : Char) : character? c.toNat = some c := by
  have valid : c.toNat.isValidChar := c.valid
  rw [character?, if_pos valid, Char.ofNat_toNat]

variable {lines : Bool} {c : Char} {cs : List Char}

theorem Spelled.ne_quote (spelled : Spelled lines c cs) (different : c ≠ doubleQuote) :
    ∀ d ∈ cs, d ≠ doubleQuote := by
  cases spelled with
  | itself => simpa using different
  | letter means =>
      simp only [List.forall_mem_cons]
      refine ⟨by decide, ?_, by simp⟩
      rintro rfl
      exact different (Option.some.inj means).symm
  | coded high low =>
      simp only [List.forall_mem_cons]
      refine ⟨by decide, by decide, by decide, by decide, ?_, ?_, by simp⟩
      · rintro rfl
        cases high
      · rintro rfl
        cases low

theorem Spelled.ne_nil (spelled : Spelled lines c cs) : cs ≠ [] := by
  cases spelled <;> simp

theorem readBasic_letter {letter : Char} (means : letterEscape? letter = some c)
    (rest : List Char) :
    readBasic .plain (backslash :: letter :: rest) = before c (readBasic .plain rest) := by
  have slash : (backslash == doubleQuote) = false := by decide
  simp [readBasic, slash, means]

/-- A character is read back from how it is written on one line. -/
theorem readBasic_spelled (spelled : Spelled false c cs) (different : c ≠ doubleQuote)
    (rest : List Char) : readBasic .plain (cs ++ rest) = before c (readBasic .plain rest) := by
  cases spelled with
  | itself plain notSlash =>
      have plain : isPlain c = true := plain.resolve_right (by simp)
      simp [readBasic, different, notSlash, plain]
  | letter means => exact readBasic_letter means rest
  | @coded high low first second isHigh isLow same =>
      have slash : (backslash == doubleQuote) = false := by decide
      have unlettered : letterEscape? 'u' = none := by decide
      have width : escapeWidth? 'u' = some 4 := by decide
      have digit : hexValue? '0' = some 0 := by decide
      simp [readBasic, slash, unlettered, width, digit, isHigh, isLow, same, character?_toNat]

theorem readBasic_escapeText (run : Nat) (content rest : List Char) :
    readBasic .plain (escapeText false run content ++ doubleQuote :: rest) =
      some (content, rest) := by
  induction content generalizing run with
  | nil => rw [escapeText, List.nil_append, readBasic, if_pos (by decide)]
  | cons c content inductionHypothesis =>
      rw [escapeText]
      by_cases quote : c = doubleQuote
      · subst quote
        have alone : ¬run < quotesTogether false := Nat.not_lt_zero run
        have means : letterEscape? doubleQuote = some doubleQuote := by decide
        rw [if_pos (by decide), if_neg alone, List.cons_append, List.cons_append,
          readBasic_letter means, inductionHypothesis]
        rfl
      · rw [if_neg (by simpa using quote), List.append_assoc,
          readBasic_spelled (spelled_escapeCharacter false c) quote, inductionHypothesis]
        rfl

/-! Quotes that stand together. -/

variable {quote : Char} {run : Nat}

theorem startsClosing_iff : startsClosing quote cs = true ↔ [quote, quote, quote] <+: cs := by
  match cs with
  | [] => simp [startsClosing]
  | [a] => simp [startsClosing]
  | [a, b] => simp [startsClosing]
  | a :: b :: c :: rest =>
      simp only [startsClosing, List.cons_prefix_cons, List.nil_prefix, and_true,
        Bool.and_eq_true, beq_iff_eq, and_assoc]
      rw [eq_comm, eq_comm (a := b), eq_comm (a := c)]

theorem startsClosing_of_ne (different : c ≠ quote) (rest : List Char) :
    startsClosing quote (c :: rest) = false := by
  rw [← Bool.not_eq_true, startsClosing_iff, List.cons_prefix_cons, not_and]
  exact fun same => absurd same.symm different

theorem le_longestRun (quote : Char) (run : Nat) (cs : List Char) :
    run ≤ longestRun quote run cs := by
  induction cs generalizing run with
  | nil => exact Nat.le_refl _
  | cons c rest inductionHypothesis =>
      rw [longestRun]
      split
      · exact Nat.le_of_succ_le (inductionHypothesis (run + 1))
      · exact Nat.le_max_left _ _

theorem longestRun_mono (cs : List Char) {less more : Nat} (le : less ≤ more) :
    longestRun quote less cs ≤ longestRun quote more cs := by
  induction cs generalizing less more with
  | nil => exact le
  | cons c rest inductionHypothesis =>
      rw [longestRun, longestRun]
      split
      · exact inductionHypothesis (Nat.succ_le_succ le)
      · exact Nat.max_le.mpr ⟨Nat.le_trans le (Nat.le_max_left _ _), Nat.le_max_right _ _⟩

theorem longestRun_tail (c : Char) (rest : List Char) :
    longestRun quote 0 rest ≤ longestRun quote run (c :: rest) := by
  rw [longestRun]
  split
  · exact longestRun_mono rest (Nat.zero_le _)
  · exact Nat.le_max_right _ _

theorem not_prefix_of_longestRun (few : longestRun quote 0 cs ≤ 2) :
    ¬[quote, quote, quote] <+: cs := by
  rintro ⟨more, rfl⟩
  have three : longestRun quote 0 ([quote, quote, quote] ++ more) = longestRun quote 3 more := by
    simp [longestRun]
  rw [three] at few
  exact absurd (le_longestRun quote 3 more) (by omega)

/-- Fewer than three quotes close nothing, unless they run into the closing ones. -/
theorem startsClosing_append (few : ¬[quote, quote, quote] <+: cs)
    (goesOn : ∀ count ≤ 2, cs ≠ List.replicate count quote) (rest : List Char) :
    startsClosing quote (cs ++ rest) = false := by
  rw [← Bool.not_eq_true, startsClosing_iff]
  intro closes
  rcases List.prefix_or_prefix_of_prefix closes (List.prefix_append cs rest) with inside | short
  · exact few inside
  · have fits : cs.length ≤ 3 := short.length_le
    have all : cs = List.replicate cs.length quote := by
      rw [List.eq_replicate_iff]
      refine ⟨rfl, fun c member => ?_⟩
      simpa using short.subset member
    by_cases three : cs.length = 3
    · refine few ?_
      rw [all, three]
      exact List.prefix_rfl
    · exact goesOn cs.length (by omega) all

/-- Up to two quotes before the closing ones belong to the content. -/
theorem afterClosing_replicate {count : Nat} (few : count ≤ 2) (different : quote ≠ '\n')
    (rest : List Char) :
    afterClosing quote (List.replicate count quote ++ '\n' :: rest) =
      (List.replicate count quote, '\n' :: rest) := by
  match count with
  | 0 =>
      cases rest <;> simp [afterClosing, different.symm]
  | 1 => simp [afterClosing, different.symm]
  | 2 => simp [afterClosing]

/-- Quotes and three closing ones behind them. -/
theorem replicate_closing (count : Nat) (rest : List Char) :
    List.replicate count quote ++ ([quote, quote, quote] ++ rest) =
      quote :: quote :: quote :: (List.replicate count quote ++ rest) := by
  have three : [quote, quote, quote] = List.replicate 3 quote := rfl
  rw [← List.append_assoc, three, List.replicate_append_replicate, Nat.add_comm,
    ← List.replicate_append_replicate]
  rfl

/-! Strings without escapes. -/

theorem not_needsEscape (plain : needsEscape c = false) :
    c ≠ '\r' ∧ (isPlain c || c == '\n') = true := by
  rw [needsEscape, Bool.and_eq_false_iff, Bool.not_eq_false', bne_eq_false_iff_eq] at plain
  refine ⟨?_, ?_⟩
  · rintro rfl
    revert plain
    decide
  · rw [Bool.or_eq_true, beq_iff_eq]
    exact plain

theorem readLiteral_content {content : List Char} (plain : ∀ c ∈ content, isPlain c = true)
    (unquoted : singleQuote ∉ content) (rest : List Char) :
    readLiteral (content ++ singleQuote :: rest) = some (content, rest) := by
  induction content with
  | nil => rw [List.nil_append, readLiteral, if_pos (by decide)]
  | cons c content inductionHypothesis =>
      rw [List.forall_mem_cons] at plain
      rw [List.mem_cons, not_or] at unquoted
      rw [List.cons_append, readLiteral, if_neg (by simpa using Ne.symm unquoted.1),
        if_pos plain.1, inductionHypothesis plain.2 unquoted.2]
      rfl

theorem readLiteralLines_content {content : List Char}
    (plain : ∀ c ∈ content, needsEscape c = false) (few : longestRun singleQuote 0 content ≤ 2)
    (rest : List Char) :
    readLiteralLines (content ++ ([singleQuote, singleQuote, singleQuote] ++ '\n' :: rest)) =
      some (content, '\n' :: rest) := by
  by_cases closes : ∃ count ≤ 2, content = List.replicate count singleQuote
  · obtain ⟨count, little, rfl⟩ := closes
    rw [replicate_closing, readLiteralLines, if_pos (by simp [startsClosing]), List.drop_succ_cons,
      List.drop_succ_cons, List.drop_zero, afterClosing_replicate little (by decide)]
  · have goesOn : ∀ count ≤ 2, content ≠ List.replicate count singleQuote :=
      fun count little same => closes ⟨count, little, same⟩
    have inside := startsClosing_append (not_prefix_of_longestRun few) goesOn
      ([singleQuote, singleQuote, singleQuote] ++ '\n' :: rest)
    cases content with
    | nil => exact absurd rfl (goesOn 0 (by omega))
    | cons c content =>
        rw [List.forall_mem_cons] at plain
        obtain ⟨notReturn, shown⟩ := not_needsEscape plain.1
        rw [List.cons_append] at inside ⊢
        rw [readLiteralLines, if_neg (Bool.eq_false_iff.mp inside),
          if_neg (by simpa using notReturn), if_pos shown,
          readLiteralLines_content plain.2 (Nat.le_trans (longestRun_tail c content) few)]
        rfl

/-! Strings with escapes over several lines. -/

theorem startsLineEnd_letter {letter : Char} (means : letterEscape? letter = some c)
    (rest : List Char) : startsLineEnd (letter :: rest) = false := by
  unfold startsLineEnd
  split
  case h_5 => rfl
  all_goals
    rename_i same
    cases same
    cases means

theorem readLines_letter {letter : Char} (means : letterEscape? letter = some c)
    (rest : List Char) :
    readLines (.between false) (backslash :: letter :: rest) =
      before c (readLines (.between false) rest) := by
  have slash : (backslash == '\r') = false := by decide
  simp [readLines, startsClosing_of_ne (show backslash ≠ doubleQuote by decide), slash,
    startsLineEnd_letter means, means]

theorem readLines_spelled (spelled : Spelled true c cs) (different : c ≠ doubleQuote)
    (rest : List Char) :
    readLines (.between false) (cs ++ rest) = before c (readLines (.between false) rest) := by
  cases spelled with
  | itself shown notSlash =>
      have plain : (isPlain c || c == '\n') = true := by
        rw [Bool.or_eq_true, beq_iff_eq]
        exact shown.imp id And.right
      have notReturn : c ≠ '\r' := by
        rintro rfl
        revert shown
        decide
      simp [readLines, startsClosing_of_ne different, notReturn, notSlash, plain]
  | letter means => exact readLines_letter means rest
  | @coded high low first second isHigh isLow same =>
      have slash : (backslash == '\r') = false := by decide
      have unlettered : letterEscape? 'u' = none := by decide
      have width : escapeWidth? 'u' = some 4 := by decide
      have digit : hexValue? '0' = some 0 := by decide
      have goesOn (rest : List Char) : startsLineEnd ('u' :: rest) = false := rfl
      simp [readLines, startsClosing_of_ne (show backslash ≠ doubleQuote by decide), slash, goesOn,
        unlettered, width, digit, isHigh, isLow, same, character?_toNat]

/-- No more than two quotes stand together in front of a text that was written with escapes. -/
theorem count_of_prefix {count : Nat} {content : List Char}
    (leading : List.replicate count doubleQuote <+: escapeText true run content) :
    count = 0 ∨ count + run ≤ 2 := by
  induction content generalizing run count with
  | nil =>
      left
      simpa [escapeText] using leading
  | cons c content inductionHypothesis =>
      cases count with
      | zero => exact .inl rfl
      | succ count =>
          right
          rw [List.replicate_succ, escapeText] at leading
          by_cases quote : c = doubleQuote
          · rw [if_pos (by simpa using quote)] at leading
            split at leading
            case isTrue less =>
              have less : run < 2 := less
              have behind := inductionHypothesis (List.cons_prefix_cons.mp leading).2
              omega
            case isFalse =>
              exact absurd (List.cons_prefix_cons.mp leading).1 (by decide)
          · rw [if_neg (by simpa using quote)] at leading
            have spelled := spelled_escapeCharacter true c
            cases written : escapeCharacter true c with
            | nil => exact absurd written spelled.ne_nil
            | cons d ds =>
                rw [written] at leading spelled
                exact absurd (List.cons_prefix_cons.mp leading).1.symm
                  (spelled.ne_quote quote d List.mem_cons_self)

/-- Where nothing but quotes is written, the text is nothing but quotes. -/
theorem content_of_escapeText {count : Nat} {content : List Char}
    (written : escapeText true run content = List.replicate count doubleQuote) :
    content = List.replicate count doubleQuote := by
  induction content generalizing run count with
  | nil => exact written
  | cons c content inductionHypothesis =>
      rw [escapeText] at written
      by_cases quote : c = doubleQuote
      · rw [if_pos (by simpa using quote)] at written
        cases count with
        | zero => split at written <;> cases written
        | succ count =>
            rw [List.replicate_succ] at written ⊢
            split at written
            case isTrue =>
              rw [quote, inductionHypothesis (List.cons.inj written).2]
            case isFalse => exact absurd (List.cons.inj written).1 (by decide)
      · rw [if_neg (by simpa using quote)] at written
        have spelled := spelled_escapeCharacter true c
        obtain ⟨d, member⟩ := List.exists_mem_of_ne_nil _ spelled.ne_nil
        have inside : d ∈ List.replicate count doubleQuote :=
          written ▸ List.mem_append_left _ member
        exact absurd (List.eq_of_mem_replicate inside) (spelled.ne_quote quote d member)

theorem readLines_escapeText (run : Nat) (content rest : List Char) :
    readLines (.between false)
        (escapeText true run content ++ ([doubleQuote, doubleQuote, doubleQuote] ++ '\n' :: rest)) =
      some (content, '\n' :: rest) := by
  by_cases closes : ∃ count ≤ 2, escapeText true run content = List.replicate count doubleQuote
  · obtain ⟨count, little, written⟩ := closes
    rw [written, content_of_escapeText written, replicate_closing, readLines,
      if_pos (by simp [startsClosing]), List.drop_succ_cons, List.drop_succ_cons, List.drop_zero,
      afterClosing_replicate little (by decide)]
  · have goesOn : ∀ count ≤ 2, escapeText true run content ≠ List.replicate count doubleQuote :=
      fun count little same => closes ⟨count, little, same⟩
    have few : ¬[doubleQuote, doubleQuote, doubleQuote] <+: escapeText true run content := by
      intro leading
      have three : List.replicate 3 doubleQuote <+: escapeText true run content := leading
      have little := count_of_prefix three
      omega
    have inside := startsClosing_append few goesOn
      ([doubleQuote, doubleQuote, doubleQuote] ++ '\n' :: rest)
    cases content with
    | nil => exact absurd rfl (goesOn 0 (by omega))
    | cons c content =>
        rw [escapeText] at inside ⊢
        by_cases quote : c = doubleQuote
        · subst quote
          rw [if_pos (by decide)] at inside ⊢
          have notReturn : (doubleQuote == '\r') = false := by decide
          have notSlash : (doubleQuote == backslash) = false := by decide
          by_cases less : run < quotesTogether true
          · rw [if_pos less, List.cons_append] at inside ⊢
            rw [readLines, if_neg (Bool.eq_false_iff.mp inside), Bool.false_and,
              if_neg Bool.false_ne_true, notReturn, if_neg Bool.false_ne_true, notSlash,
              if_neg Bool.false_ne_true, if_pos (by decide), readLines_escapeText]
            rfl
          · have means : letterEscape? doubleQuote = some doubleQuote := by decide
            rw [if_neg less, List.cons_append, List.cons_append, readLines_letter means,
              readLines_escapeText]
            rfl
        · rw [if_neg (by simpa using quote), List.append_assoc,
            readLines_spelled (spelled_escapeCharacter true c) quote, readLines_escapeText]
          rfl

/-! The quoted forms. -/

/-- The first character that is written of a text. -/
theorem exists_first (lines : Bool) (run : Nat) (c : Char) (content : List Char) :
    ∃ first more, escapeText lines run (c :: content) = first :: more ∧
      (lines = false → first ≠ doubleQuote) ∧ (c ≠ '\n' → isPlain first = true) := by
  rw [escapeText]
  by_cases quote : c = doubleQuote
  · subst quote
    rw [if_pos (by decide)]
    split
    case isTrue less =>
      refine ⟨_, _, rfl, ?_, fun _ => by decide⟩
      rintro rfl
      exact absurd less (Nat.not_lt_zero run)
    case isFalse => exact ⟨_, _, rfl, fun _ => by decide, fun _ => by decide⟩
  · rw [if_neg (by simpa using quote)]
    have spelled := spelled_escapeCharacter lines c
    have others := spelled.ne_quote quote
    generalize escapeCharacter lines c = written at spelled others
    cases spelled with
    | itself shown =>
        refine ⟨c, _, rfl, fun _ => quote, ?_⟩
        intro sameLine
        exact shown.resolve_right fun lineEnd => sameLine lineEnd.2
    | letter => exact ⟨_, _, rfl, fun _ => by decide, fun _ => by decide⟩
    | coded => exact ⟨_, _, rfl, fun _ => by decide, fun _ => by decide⟩

theorem dropLineEnd_of_plain (plain : isPlain c = true) (rest : List Char) :
    dropLineEnd (c :: rest) = c :: rest := by
  unfold dropLineEnd
  split
  case h_3 => rfl
  all_goals
    rename_i same
    cases same
    cases plain

/-- What is written behind three quotes begins there. -/
theorem dropLineEnd_openLines (quote : Char) {content written : List Char}
    (begins : '\n' ∉ content → ∃ c more, written = c :: more ∧ isPlain c = true) :
    startsClosing quote (openLines quote content ++ written) = true ∧
      dropLineEnd ((openLines quote content ++ written).drop 3) = written := by
  refine ⟨by simp [openLines, startsClosing], ?_⟩
  rw [openLines, List.append_assoc]
  by_cases several : '\n' ∈ content
  · rw [if_pos (by simpa using several)]
    rfl
  · obtain ⟨c, more, rfl, plain⟩ := begins several
    rw [if_neg (by simpa using several)]
    exact dropLineEnd_of_plain plain more

theorem startsClosing_openLines {quote other : Char} (different : quote ≠ other)
    (content written : List Char) :
    startsClosing other (openLines quote content ++ written) = false :=
  startsClosing_of_ne different _

variable (content rest : List Char)

theorem readQuoted_quoteBasic :
    readQuoted (quoteBasic content ++ '\n' :: rest) =
      some (String.ofList content, '\n' :: rest) := by
  have text : quoteBasic content ++ '\n' :: rest =
      doubleQuote :: (escapeText false 0 content ++ doubleQuote :: '\n' :: rest) := by
    simp [quoteBasic]
  have notClosing :
      startsClosing doubleQuote (doubleQuote :: (escapeText false 0 content ++
        doubleQuote :: '\n' :: rest)) = false := by
    rw [← Bool.not_eq_true, startsClosing_iff, List.cons_prefix_cons]
    rintro ⟨_, leading⟩
    cases content with
    | nil =>
        rw [escapeText, List.nil_append, List.cons_prefix_cons, List.cons_prefix_cons] at leading
        exact absurd leading.2.1 (by decide)
    | cons c content =>
        obtain ⟨first, more, written, unquoted, _⟩ := exists_first false 0 c content
        rw [written, List.cons_append, List.cons_prefix_cons] at leading
        exact unquoted rfl leading.1.symm
  rw [text, readQuoted, if_neg (Bool.eq_false_iff.mp notClosing),
    if_neg (Bool.eq_false_iff.mp (startsClosing_of_ne (by decide) _))]
  simp only [if_pos, beq_self_eq_true, readBasic_escapeText]
  rfl

theorem readQuoted_quoteLines :
    readQuoted (quoteLines content ++ '\n' :: rest) =
      some (String.ofList content, '\n' :: rest) := by
  have text : quoteLines content ++ '\n' :: rest =
      openLines doubleQuote content ++ (escapeText true 0 content ++
        ([doubleQuote, doubleQuote, doubleQuote] ++ '\n' :: rest)) := by
    simp [quoteLines]
  have begins : '\n' ∉ content → ∃ c more, escapeText true 0 content ++
      ([doubleQuote, doubleQuote, doubleQuote] ++ '\n' :: rest) = c :: more ∧ isPlain c = true := by
    intro sameLine
    cases content with
    | nil => exact ⟨_, _, rfl, by decide⟩
    | cons c content =>
        obtain ⟨first, more, written, _, plain⟩ := exists_first true 0 c content
        rw [written]
        exact ⟨_, _, rfl, plain (List.ne_of_not_mem_cons sameLine).symm⟩
  obtain ⟨opens, behind⟩ := dropLineEnd_openLines doubleQuote begins
  rw [text, readQuoted.eq_def, if_pos opens, behind, readLines_escapeText]
  rfl

variable {content}

theorem readQuoted_literal (plain : ∀ c ∈ content, isPlain c = true)
    (unquoted : singleQuote ∉ content) :
    readQuoted ([singleQuote] ++ content ++ [singleQuote] ++ '\n' :: rest) =
      some (String.ofList content, '\n' :: rest) := by
  have text : [singleQuote] ++ content ++ [singleQuote] ++ '\n' :: rest =
      singleQuote :: (content ++ singleQuote :: '\n' :: rest) := by
    simp
  have notClosing :
      startsClosing singleQuote (singleQuote :: (content ++ singleQuote :: '\n' :: rest)) =
        false := by
    rw [← Bool.not_eq_true, startsClosing_iff, List.cons_prefix_cons]
    rintro ⟨_, leading⟩
    cases content with
    | nil =>
        rw [List.nil_append, List.cons_prefix_cons, List.cons_prefix_cons] at leading
        exact absurd leading.2.1 (by decide)
    | cons c content =>
        rw [List.cons_append, List.cons_prefix_cons] at leading
        exact List.ne_of_not_mem_cons unquoted leading.1
  rw [text, readQuoted, if_neg (Bool.eq_false_iff.mp (startsClosing_of_ne (by decide) _)),
    if_neg (Bool.eq_false_iff.mp notClosing)]
  have other : (singleQuote == doubleQuote) = false := by decide
  simp only [other, beq_self_eq_true, readLiteral_content plain unquoted]
  rfl

theorem readQuoted_literalLines (plain : ∀ c ∈ content, needsEscape c = false)
    (few : longestRun singleQuote 0 content ≤ 2) :
    readQuoted (openLines singleQuote content ++ content ++
        [singleQuote, singleQuote, singleQuote] ++ '\n' :: rest) =
      some (String.ofList content, '\n' :: rest) := by
  have text : openLines singleQuote content ++ content ++
        [singleQuote, singleQuote, singleQuote] ++ '\n' :: rest =
      openLines singleQuote content ++
        (content ++ ([singleQuote, singleQuote, singleQuote] ++ '\n' :: rest)) := by
    simp
  have begins : '\n' ∉ content → ∃ c more, content ++
      ([singleQuote, singleQuote, singleQuote] ++ '\n' :: rest) = c :: more ∧ isPlain c = true := by
    intro sameLine
    cases content with
    | nil => exact ⟨_, _, rfl, by decide⟩
    | cons c content =>
        have shown := (not_needsEscape (plain c List.mem_cons_self)).2
        rw [Bool.or_eq_true, beq_iff_eq] at shown
        exact ⟨_, _, rfl, shown.resolve_right (List.ne_of_not_mem_cons sameLine).symm⟩
  obtain ⟨opens, behind⟩ := dropLineEnd_openLines singleQuote begins
  rw [text, readQuoted.eq_def,
    if_neg (Bool.eq_false_iff.mp (startsClosing_openLines (by decide) _ _)),
    if_pos opens, behind, readLiteralLines_content plain few]
  rfl

theorem not_mem_of_longestRun (none : longestRun quote run content = 0) : quote ∉ content := by
  induction content generalizing run with
  | nil => exact List.not_mem_nil
  | cons c content inductionHypothesis =>
      have least := le_longestRun quote run (c :: content)
      rw [longestRun] at none
      split at none
      case isTrue =>
        have more := le_longestRun quote (run + 1) content
        omega
      case isFalse different =>
        have behind : longestRun quote 0 content = 0 := by omega
        have inside := inductionHypothesis behind
        simp only [List.mem_cons, not_or]
        exact ⟨fun same => different (beq_iff_eq.mpr same.symm), inside⟩

/-- A text is read back from its quoted form. -/
theorem readQuoted_quoteChars (content rest : List Char) :
    readQuoted (quoteChars content ++ '\n' :: rest) =
      some (String.ofList content, '\n' :: rest) := by
  have uncoded (none : content.any needsEscape = false) : ∀ c ∈ content, needsEscape c = false :=
    fun c member => Bool.eq_false_iff.mpr (List.any_eq_false.mp none c member)
  unfold quoteChars
  dsimp only
  split
  case isTrue => exact readQuoted_quoteBasic content rest
  split
  case isTrue literal =>
    simp only [Bool.and_eq_true, Bool.not_eq_true', beq_iff_eq] at literal
    obtain ⟨⟨none, unquoted⟩, sameLine⟩ := literal
    refine readQuoted_literal rest ?_ (not_mem_of_longestRun unquoted)
    intro c member
    have shown := (not_needsEscape (uncoded none c member)).2
    rw [Bool.or_eq_true, beq_iff_eq] at shown
    refine shown.resolve_right ?_
    rintro rfl
    simp [member] at sameLine
  split
  case isTrue => exact readQuoted_quoteLines content rest
  split
  case isTrue literal =>
    simp only [Bool.and_eq_true, Bool.not_eq_true', decide_eq_true_eq] at literal
    exact readQuoted_literalLines rest (uncoded literal.1) literal.2
  split
  case isTrue => exact readQuoted_quoteLines content rest
  case isFalse => exact readQuoted_quoteBasic content rest

end RobotRoutine.Toml
