import RobotRoutine.Proofs.Toml.Quoted
import RobotRoutine.Proofs.Toml.Scalar
import RobotRoutine.Toml.Grammar

/-!
Lines read back.

A key with its value on a line, a header and an empty line are each read in one turn, and the rest
of the file is left for the turns to come.
-/

namespace RobotRoutine.Toml

/-! Values. -/

/-- Characters that are read as a value, up to the end of the line. -/
structure Spells (cs : List Char) (value : Value) : Prop where
  begins : ∃ first more, cs = first :: more ∧ isBlankInLine first = false
  read : ∀ depth turns rest,
    readValue depth (turns + 1) (cs ++ '\n' :: rest) = some (value, '\n' :: rest)

variable {cs rest : List Char} {value : Value}

theorem isScalarChar_of_numeral {c : Char} (numeral : c.isDigit = true ∨ c = '.') :
    isScalarChar c = true := by
  rcases numeral with digit | rfl
  · simp [isScalarChar, Char.isAlphanum, digit]
  · decide

theorem spanScalar_of_numeral (numeral : IsNumeral cs) (rest : List Char) :
    spanScalar (cs ++ '\n' :: rest) = (cs, '\n' :: rest) := by
  have passes : ∀ c ∈ cs, isScalarChar c = true :=
    fun c member => isScalarChar_of_numeral (numeral c member)
  have stops : ¬isScalarChar '\n' = true := by decide
  rw [spanScalar, List.takeWhile_append_of_pos passes, List.dropWhile_append_of_pos passes,
    List.takeWhile_cons, if_neg stops, List.append_nil, List.dropWhile_cons, if_neg stops]
  rfl

theorem spells_of_denotes (denotes : Denotes cs value) : Spells cs value := by
  obtain ⟨numeral, begins, scalar⟩ := denotes
  have whole := spanScalar_of_numeral numeral
  obtain ⟨first, more, rfl, digit⟩ := begins
  have different (c : Char) (other : c.isDigit = false) : first ≠ c := by
    rintro rfl
    rw [digit] at other
    cases other
  refine ⟨⟨first, more, rfl, ?_⟩, ?_⟩
  · rw [isBlankInLine, Bool.or_eq_false_iff, beq_eq_false_iff_ne, beq_eq_false_iff_ne]
    exact ⟨different ' ' (by decide), different '\t' (by decide)⟩
  · intro depth turns rest
    have unquoted : ¬(first == doubleQuote || first == singleQuote) = true := by
      rw [Bool.or_eq_true, beq_iff_eq, beq_iff_eq, not_or]
      exact ⟨different _ (by decide), different _ (by decide)⟩
    have spans := whole rest
    rw [List.cons_append] at spans ⊢
    rw [readValue, if_neg unquoted, spans]
    · dsimp only
      rw [scalar]
      rfl
    · exact different '[' (by decide)
    · exact different '\x7b' (by decide)

/-- Every quoted form begins with a quote. -/
theorem exists_quote (content : List Char) : ∃ first more, quoteChars content = first :: more ∧
    (first = doubleQuote ∨ first = singleQuote) := by
  unfold quoteChars
  dsimp only
  repeat' split
  all_goals first
    | exact ⟨_, _, rfl, .inl rfl⟩
    | exact ⟨_, _, rfl, .inr rfl⟩

theorem spells_quote (text : String) : Spells (quote text).toList (.string text) := by
  rw [quote, String.toList_ofList]
  have reads := readQuoted_quoteChars text.toList
  obtain ⟨first, more, written, isQuote⟩ := exists_quote text.toList
  rw [written] at reads ⊢
  refine ⟨⟨first, more, rfl, ?_⟩, ?_⟩
  · rcases isQuote with rfl | rfl <;> decide
  · intro depth turns rest
    have read := reads rest
    rw [List.cons_append] at read ⊢
    have quoted : (first == doubleQuote || first == singleQuote) = true := by
      rw [Bool.or_eq_true, beq_iff_eq, beq_iff_eq]
      exact isQuote
    rw [readValue, if_pos quoted, read, String.ofList_toList]
    · rfl
    · rintro rfl
      revert isQuote
      decide
    · rintro rfl
      revert isQuote
      decide

/-! Keys. -/

/-- A key that needs no quotes. -/
structure IsBareKey (key : String) : Prop where
  some : key.toList ≠ []
  all : key.toList.all isBareChar = true

variable {key : String}

theorem IsBareKey.bare (bare : IsBareKey key) : ∀ c ∈ key.toList, isBareChar c = true :=
  List.all_eq_true.mp bare.all

theorem IsBareKey.exists_first (bare : IsBareKey key) :
    ∃ first more, key.toList = first :: more ∧ isBareChar first = true := by
  obtain ⟨first, more, same⟩ := List.exists_cons_of_ne_nil bare.some
  exact ⟨first, more, same, bare.bare first (same ▸ List.mem_cons_self)⟩

theorem ne_of_isBareChar {c d : Char} (bare : isBareChar c = true) (other : isBareChar d = false) :
    c ≠ d := by
  rintro rfl
  rw [bare] at other
  cases other

theorem skipBlanks_of_not {c : Char} (notBlank : isBlankInLine c = false) (rest : List Char) :
    skipBlanks (c :: rest) = c :: rest := by
  rw [skipBlanks, List.dropWhile_cons, if_neg (Bool.eq_false_iff.mp notBlank)]

theorem not_blank_of_isBareChar {c : Char} (bare : isBareChar c = true) :
    isBlankInLine c = false := by
  rw [isBlankInLine, Bool.or_eq_false_iff, beq_eq_false_iff_ne, beq_eq_false_iff_ne]
  exact ⟨ne_of_isBareChar bare (by decide), ne_of_isBareChar bare (by decide)⟩

theorem readKey_bare (bare : IsBareKey key) {stop : Char} (stops : isBareChar stop = false)
    (rest : List Char) : readKey (key.toList ++ stop :: rest) = some (key, stop :: rest) := by
  have taken : (key.toList ++ stop :: rest).takeWhile isBareChar = key.toList := by
    rw [List.takeWhile_append_of_pos bare.bare, List.takeWhile_cons,
      if_neg (Bool.eq_false_iff.mp stops), List.append_nil]
  have dropped : (key.toList ++ stop :: rest).dropWhile isBareChar = stop :: rest := by
    rw [List.dropWhile_append_of_pos bare.bare, List.dropWhile_cons,
      if_neg (Bool.eq_false_iff.mp stops)]
  have back : String.ofList key.toList = key := String.ofList_toList
  obtain ⟨first, more, same, isBare⟩ := bare.exists_first
  rw [same] at taken dropped back
  rw [same, List.cons_append] at *
  rw [readKey]
  have unquoted : ¬(first == doubleQuote || first == singleQuote) = true := by
    rw [Bool.or_eq_true, beq_iff_eq, beq_iff_eq, not_or]
    exact ⟨ne_of_isBareChar isBare (by decide), ne_of_isBareChar isBare (by decide)⟩
  rw [if_neg unquoted, if_pos isBare, taken, dropped, back]

/-- A key alone, up to what stands behind it and the blanks. -/
theorem readKeys_bare (bare : IsBareKey key) {stop : Char} (stops : isBareChar stop = false)
    {rest : List Char} (notPoint : ∀ more, skipBlanks (stop :: rest) ≠ '.' :: more) :
    readKeys (key.toList ++ stop :: rest) = some (⟨[], key⟩, skipBlanks (stop :: rest)) := by
  rw [readKeys, readKeysOnto, readKey_bare bare stops, Option.bind_eq_bind, Option.bind_some]
  dsimp only
  split
  case h_1 more point => exact absurd point (notPoint more)
  case h_2 => rfl

/-! Lines. -/

/-- A character with which a statement begins. -/
def opensStatement (c : Char) : Bool := isBareChar c || c == '['

theorem ne_of_opensStatement {c d : Char} (opens : opensStatement c = true)
    (other : opensStatement d = false) : c ≠ d := by
  rintro rfl
  rw [opens] at other
  cases other

/-- The end of a line is not where a statement begins. -/
theorem endLine?_eq_none {c : Char} (opens : opensStatement c = true) (rest : List Char) :
    endLine? (c :: rest) = none ∧ skipBlanks (c :: rest) = c :: rest := by
  have skipped : skipBlanks (c :: rest) = c :: rest := by
    apply skipBlanks_of_not
    rw [isBlankInLine, Bool.or_eq_false_iff, beq_eq_false_iff_ne, beq_eq_false_iff_ne]
    exact ⟨ne_of_opensStatement opens (by decide), ne_of_opensStatement opens (by decide)⟩
  refine ⟨?_, skipped⟩
  rw [endLine?, skipped]
  split
  case h_1 same =>
    cases same
    exact absurd opens (by decide)
  case h_2 =>
    unfold afterLineEnd?
    split
    case h_1 same => cases same
    case h_2 same =>
      cases same
      exact absurd opens (by decide)
    case h_3 same =>
      cases same
      exact absurd opens (by decide)
    case h_4 => rfl

/-- A turn of the reader of statements, at a statement. -/
theorem readStatements_step {text rest : List Char} {statement : Statement}
    (opens : ∃ c more, text = c :: more ∧ opensStatement c = true)
    (read : readStatement text = some (statement, '\n' :: rest)) (turns : Nat) :
    readStatements (turns + 1) text = (readStatements turns rest).map (statement :: ·) := by
  obtain ⟨c, more, rfl, opens⟩ := opens
  obtain ⟨notEnd, skipped⟩ := endLine?_eq_none opens more
  rw [readStatements]
  · rw [notEnd]
    dsimp only
    rw [skipped, read]
    rfl
  · simp

theorem readAssigned_bare (bare : IsBareKey key) (spells : Spells cs value) (rest : List Char) :
    readAssigned (key.toList ++ [' ', '=', ' '] ++ cs ++ '\n' :: rest) =
      some (⟨[], key⟩, cs ++ '\n' :: rest) := by
  have skipped : skipBlanks (' ' :: '=' :: ' ' :: (cs ++ '\n' :: rest)) =
      '=' :: ' ' :: (cs ++ '\n' :: rest) := rfl
  have notPoint (more : List Char) :
      skipBlanks (' ' :: '=' :: ' ' :: (cs ++ '\n' :: rest)) ≠ '.' :: more := by
    rw [skipped]
    simp
  have behind : skipBlanks (' ' :: (cs ++ '\n' :: rest)) = cs ++ '\n' :: rest := by
    obtain ⟨first, more, rfl, notBlank⟩ := spells.begins
    exact skipBlanks_of_not notBlank _
  have text : key.toList ++ [' ', '=', ' '] ++ cs ++ '\n' :: rest =
      key.toList ++ ' ' :: '=' :: ' ' :: (cs ++ '\n' :: rest) := by
    simp
  rw [text, readAssigned, readKeys_bare bare (by decide) notPoint, skipped, Option.bind_eq_bind,
    Option.bind_some]
  exact congrArg (fun rest => some (_, rest)) behind

theorem readStatements_line (bare : IsBareKey key) (spells : Spells cs value) (turns : Nat)
    (rest : List Char) :
    readStatements (turns + 1) (key.toList ++ [' ', '=', ' '] ++ cs ++ '\n' :: rest) =
      (readStatements turns rest).map (.assign ⟨[], key⟩ value :: ·) := by
  have assigned := readAssigned_bare bare spells rest
  obtain ⟨first, more, same, isBare⟩ := bare.exists_first
  generalize text : key.toList ++ [' ', '=', ' '] ++ cs ++ '\n' :: rest = line at assigned ⊢
  have begins : line = first :: (more ++ [' ', '=', ' '] ++ cs ++ '\n' :: rest) := by
    rw [← text, same]
    simp
  refine readStatements_step ⟨first, _, begins, ?_⟩ ?_ turns
  · rw [opensStatement, isBare, Bool.true_or]
  · have notHeader : first ≠ '[' := ne_of_isBareChar isBare (by decide)
    rw [begins] at assigned ⊢
    rw [readStatement, assigned, Option.bind_eq_bind, Option.bind_some]
    · dsimp only
      rw [spells.read]
      rfl
    · exact fun _ header => notHeader (List.cons.inj header).1
    · exact fun _ header => notHeader (List.cons.inj header).1

theorem readStatements_header (bare : IsBareKey key) (turns : Nat) (rest : List Char) :
    readStatements (turns + 1) ('[' :: (key.toList ++ ']' :: '\n' :: rest)) =
      (readStatements turns rest).map (.openTable ⟨[], key⟩ :: ·) := by
  refine readStatements_step ⟨'[', _, rfl, by decide⟩ ?_ turns
  have behind : skipBlanks (']' :: '\n' :: rest) = ']' :: '\n' :: rest := rfl
  have read : readHeader false (key.toList ++ ']' :: '\n' :: rest) =
      some (.openTable ⟨[], key⟩, '\n' :: rest) := by
    have noBlanks : skipBlanks (key.toList ++ ']' :: '\n' :: rest) =
        key.toList ++ ']' :: '\n' :: rest := by
      obtain ⟨first, more, same, isBare⟩ := bare.exists_first
      rw [same]
      exact skipBlanks_of_not (not_blank_of_isBareChar isBare) _
    rw [readHeader, noBlanks, readKeys_bare bare (by decide) (by simp [behind]), behind]
    rfl
  obtain ⟨first, more, same, isBare⟩ := bare.exists_first
  rw [same, List.cons_append] at read ⊢
  rw [readStatement]
  · exact read
  · rintro rest ⟨⟩
    exact absurd isBare (by decide)

theorem readStatements_blank (turns : Nat) (rest : List Char) :
    readStatements (turns + 1) ('\n' :: rest) = readStatements turns rest := by
  rw [readStatements]
  · rfl
  · simp

end RobotRoutine.Toml
