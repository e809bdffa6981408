import RobotRoutine.Proofs.Files.Trail

/-!
The names in a path.

Of the pieces between the slashes of a path those count that are neither empty nor a dot.  A path
with a last name is the text before it, the name, and a tail in which nothing counts.  Its parent
has the same names but the last, and setting an extension changes the last name only; a name whose
stem is a dot is the one from which nothing but a step upwards may be left.
-/

namespace RobotRoutine.Path

/-- A piece of a path that counts. -/
def counts (piece : List Char) : Bool := piece != [] && piece != ['.']

def names (cs : List Char) : List (List Char) := (cs.splitOnP (· == '/')).filter counts

@[simp]
theorem names_nil : names [] = [] := rfl

theorem names_append_slash (first rest : List Char) :
    names (first ++ '/' :: rest) = names first ++ names rest := by
  rw [names, List.splitOnP_append_cons _ _ rfl, List.filter_append, names, names]

@[simp]
theorem names_slash (rest : List Char) : names ('/' :: rest) = names rest :=
  names_append_slash [] rest

/-- A run of characters without a slash. -/
def Unslashed (piece : List Char) : Prop := ∀ c ∈ piece, c ≠ '/'

theorem names_of_unslashed {piece : List Char} (unslashed : Unslashed piece) :
    names piece = if counts piece then [piece] else [] := by
  rw [names, List.splitOnP_eq_singleton (fun c member => beq_false_of_ne (unslashed c member)),
    List.filter_singleton]
  cases counts piece <;> rfl

/-- The pieces of a path that are not empty; a dot is one of them. -/
def pieces (cs : List Char) : List (List Char) := (cs.splitOnP (· == '/')).filter (· != [])

theorem names_eq_filter_pieces (cs : List Char) : names cs = (pieces cs).filter (· != ['.']) := by
  rw [names, pieces, List.filter_filter]
  congr 1
  funext piece
  exact Bool.and_comm _ _

theorem pieces_append_slash (first rest : List Char) :
    pieces (first ++ '/' :: rest) = pieces first ++ pieces rest := by
  rw [pieces, List.splitOnP_append_cons _ _ rfl, List.filter_append, pieces, pieces]

theorem pieces_of_unslashed {piece : List Char} (unslashed : Unslashed piece)
    (some : piece ≠ []) : pieces piece = [piece] := by
  rw [pieces, List.splitOnP_eq_singleton (fun c member => beq_false_of_ne (unslashed c member)),
    List.filter_singleton, bne_iff_ne.mpr some]
  rfl

/-! The tail of a path, in which nothing counts. -/

inductive BlankTail : List Char → Prop where
  | nil : BlankTail []
  | slash {rest} : BlankTail rest → BlankTail ('/' :: rest)
  | dot {rest} : BlankTail rest → BlankTail ('/' :: '.' :: rest)

namespace BlankTail

variable {tail more : List Char}

theorem append (blank : BlankTail tail) (blankMore : BlankTail more) :
    BlankTail (tail ++ more) := by
  induction blank with
  | nil => exact blankMore
  | slash _ inductionHypothesis => exact .slash inductionHypothesis
  | dot _ inductionHypothesis => exact .dot inductionHypothesis

theorem take (blank : BlankTail tail) (count : Nat) : BlankTail (tail.take count) := by
  induction blank generalizing count with
  | nil =>
      rw [List.take_nil]
      exact .nil
  | slash _ inductionHypothesis =>
      cases count with
      | zero => exact .nil
      | succ count => exact .slash (inductionHypothesis count)
  | dot _ inductionHypothesis =>
      match count with
      | 0 => exact .nil
      | 1 => exact .slash .nil
      | count + 2 => exact .dot (inductionHypothesis count)

theorem names_append (blank : BlankTail tail) (cs : List Char) : names (cs ++ tail) = names cs := by
  induction blank generalizing cs with
  | nil => rw [List.append_nil]
  | slash _ inductionHypothesis =>
      rw [List.append_cons, inductionHypothesis, names_append_slash, names_nil, List.append_nil]
  | dot _ inductionHypothesis =>
      rw [List.append_cons, List.append_cons, inductionHypothesis, List.append_assoc]
      exact (names_append_slash cs ['.']).trans (List.append_nil _)

theorem pieces_append (blank : BlankTail tail) (cs : List Char) :
    pieces (cs ++ tail) = pieces cs ++ pieces tail ∧ ∀ piece ∈ pieces tail, piece = ['.'] := by
  induction blank generalizing cs with
  | nil => simp [pieces]
  | @slash rest _ inductionHypothesis =>
      refine ⟨?_, (inductionHypothesis []).2⟩
      exact (pieces_append_slash cs rest).trans (congrArg _ (pieces_append_slash [] rest).symm)
  | @dot rest _ inductionHypothesis =>
      have slashed : pieces ('/' :: '.' :: rest) = ['.'] :: pieces rest :=
        (pieces_append_slash [] ('.' :: rest)).trans (inductionHypothesis ['.']).1
      refine ⟨?_, ?_⟩
      · exact (pieces_append_slash cs ('.' :: rest)).trans
          (congrArg _ (pieces_append_slash [] ('.' :: rest)).symm)
      · rw [slashed, List.forall_mem_cons]
        exact ⟨rfl, (inductionHypothesis []).2⟩

end BlankTail

/-! Skipping backwards over such a tail. -/

theorem skipBlankPieces_of_empty (rest : List Char) :
    skipBlankPieces ('/' :: rest) = skipBlankPieces rest := by
  rw [skipBlankPieces]
  exact if_pos (.inl rfl)

theorem skipBlankPieces_of_dot (rest : List Char) :
    skipBlankPieces ('.' :: '/' :: rest) = skipBlankPieces rest := by
  rw [skipBlankPieces]
  exact if_pos (.inr rfl)

theorem BlankTail.skip {tail : List Char} (blank : BlankTail tail) (cs : List Char) :
    skipBlankPieces (cs ++ tail).reverse = skipBlankPieces cs.reverse := by
  induction blank generalizing cs with
  | nil => rw [List.append_nil]
  | slash _ inductionHypothesis =>
      rw [List.append_cons, inductionHypothesis, List.reverse_append]
      exact skipBlankPieces_of_empty _
  | dot _ inductionHypothesis =>
      rw [List.append_cons, List.append_cons, inductionHypothesis, List.append_assoc,
        List.reverse_append]
      exact skipBlankPieces_of_dot _

theorem unslashed_lastPiece (backward : List Char) : Unslashed (lastPiece backward) := by
  intro c member
  simpa using List.all_eq_true.mp List.all_takeWhile c member

/-- All before the first of some character, and that character if it is there. -/
theorem takeWhile_cases (stop : Char) (cs : List Char) :
    cs = cs.takeWhile (· != stop) ∨ ∃ rest, cs = cs.takeWhile (· != stop) ++ stop :: rest := by
  have split := List.takeWhile_append_dropWhile (p := fun c : Char => c != stop) (l := cs)
  cases behind : cs.dropWhile (· != stop) with
  | nil =>
      rw [behind, List.append_nil] at split
      exact .inl split.symm
  | cons c rest =>
      have isStop : c = stop := by
        have found := List.head?_dropWhile_not (fun c : Char => c != stop) cs
        simpa [behind] using found
      subst isStop
      rw [behind] at split
      exact .inr ⟨rest, split.symm⟩

/-- The last piece of a path, and the slash before it if there is one. -/
theorem lastPiece_cases (backward : List Char) :
    backward = lastPiece backward ∨ ∃ rest, backward = lastPiece backward ++ '/' :: rest :=
  takeWhile_cases '/' backward

/-- What is skipped at the end of a path that has a last piece is a blank tail. -/
theorem blankTail_of_skip {backward kept : List Char} (skips : skipBlankPieces backward = kept)
    (some : kept ≠ []) : ∃ tail, BlankTail tail ∧ backward.reverse = kept.reverse ++ tail := by
  fun_induction skipBlankPieces backward with
  | case1 => exact absurd skips.symm some
  | case2 c rest piece blank inductionHypothesis =>
      rcases lastPiece_cases (c :: rest) with whole | ⟨before, split⟩
      · have nothing : (c :: rest).drop (piece.length + 1) = [] := by
          rw [List.drop_eq_nil_iff, whole]
          exact Nat.le_succ _
        rw [nothing, skipBlankPieces] at skips
        exact absurd skips.symm some
      · have behind : (c :: rest).drop (piece.length + 1) = before := by
          rw [split, ← List.drop_drop, List.drop_left]
          rfl
        rw [behind] at inductionHypothesis skips
        obtain ⟨tail, blankTail, same⟩ := inductionHypothesis skips
        refine ⟨tail ++ '/' :: piece.reverse, blankTail.append ?_, ?_⟩
        · rcases blank with empty | dot
          · rw [empty]
            exact .slash .nil
          · rw [dot]
            exact .dot .nil
        · rw [split, List.reverse_append, List.reverse_cons, same]
          simp [piece]
  | case3 c rest piece counting =>
      subst skips
      exact ⟨[], .nil, by simp⟩

theorem counts_reverse (piece : List Char) : counts piece.reverse = counts piece := by
  rw [Bool.eq_iff_iff]
  simp [counts, List.reverse_eq_iff]

/-- What is left after skipping ends in a piece that counts. -/
theorem counts_of_skip {backward : List Char} (some : skipBlankPieces backward ≠ []) :
    counts (lastPiece (skipBlankPieces backward)) = true := by
  fun_induction skipBlankPieces backward with
  | case1 => exact absurd rfl some
  | case2 c rest piece blank inductionHypothesis => exact inductionHypothesis some
  | case3 c rest piece counting =>
      rw [not_or] at counting
      simpa [counts] using counting

theorem skipBlankPieces_of_counts {backward : List Char}
    (counting : counts (lastPiece backward) = true) : skipBlankPieces backward = backward := by
  cases backward with
  | nil => rw [skipBlankPieces]
  | cons c rest =>
      rw [skipBlankPieces]
      refine if_neg ?_
      rw [not_or]
      simpa [counts] using counting

/-! The last part. -/

/-- A text before the last part of a path: nothing, or all up to a slash. -/
def Leading (before : List Char) : Prop := before = [] ∨ ∃ rest, before = rest ++ ['/']

/-- A path that ends in a part that counts, but for its tail. -/
structure Ends (path before part tail : List Char) : Prop where
  whole : path = before ++ part ++ tail
  leading : Leading before
  unslashed : Unslashed part
  counts : counts part = true
  blank : BlankTail tail

namespace Ends

variable {path before part tail : List Char}

theorem part_ne_nil (ends : Ends path before part tail) : part ≠ [] := by
  rintro rfl
  exact absurd ends.counts (by decide)

theorem names_eq (ends : Ends path before part tail) :
    names path = names before ++ [part] := by
  have single : names part = [part] := by
    rw [names_of_unslashed ends.unslashed, if_pos ends.counts]
  rw [ends.whole, ends.blank.names_append]
  rcases ends.leading with rfl | ⟨rest, rfl⟩
  · exact single
  · rw [List.append_assoc, names_append_slash rest [], names_nil, List.append_nil]
    exact (names_append_slash rest part).trans (congrArg _ single)

theorem pieces_eq (ends : Ends path before part tail) :
    pieces path = pieces before ++ part :: pieces tail := by
  have single : pieces part = [part] := pieces_of_unslashed ends.unslashed ends.part_ne_nil
  rw [ends.whole, (ends.blank.pieces_append _).1, List.append_cons]
  congr 1
  rcases ends.leading with rfl | ⟨rest, rfl⟩
  · exact single
  · rw [List.append_assoc, pieces_append_slash rest []]
    exact (pieces_append_slash rest part).trans (by rw [single]; simp [pieces])

end Ends

theorem lastPiece_append {piece rest : List Char} (unslashed : Unslashed piece)
    (stops : rest = [] ∨ ∃ more, rest = '/' :: more) :
    lastPiece (piece ++ rest) = piece := by
  have plain : ∀ c ∈ piece, (c != '/') = true := fun c member =>
    bne_iff_ne.mpr (unslashed c member)
  rw [lastPiece, List.takeWhile_append_of_pos plain]
  rcases stops with rfl | ⟨more, rfl⟩
  · exact List.append_nil _
  · exact List.append_nil _

theorem unslashed_reverse {piece : List Char} (unslashed : Unslashed piece) :
    Unslashed piece.reverse :=
  fun c member => unslashed c (List.mem_reverse.mp member)

/-- The head of a path is a slash or a dot that stands alone. -/
theorem splitHead_cases (cs : List Char) :
    cs = (splitHead cs).1 ++ (splitHead cs).2 ∧
      ((splitHead cs).1 = [] ∨ (splitHead cs).1 = ['/'] ∨
        (splitHead cs).1 = ['.'] ∧
          ((splitHead cs).2 = [] ∨ ∃ rest, (splitHead cs).2 = '/' :: rest)) := by
  unfold splitHead
  split <;> simp

/-- The head of a path is found before its last part. -/
theorem splitHead_of_leading {before part : List Char} (leading : Leading before)
    (unslashed : Unslashed part) (counting : counts part = true) (tail : List Char) :
    ∃ head body, splitHead (before ++ part ++ tail) = (head, body ++ part ++ tail) ∧
      before = head ++ body ∧ Leading body := by
  rcases leading with rfl | ⟨rest, rfl⟩
  · refine ⟨[], [], ?_, rfl, .inl rfl⟩
    match part with
    | [] => exact absurd counting (by decide)
    | [c] =>
        have notSlash : c ≠ '/' := unslashed c (by simp)
        have notDot : c ≠ '.' := by
          rintro rfl
          exact absurd counting (by decide)
        simp [splitHead, notSlash, notDot]
    | c :: d :: more =>
        have notSlash : c ≠ '/' := unslashed c (by simp)
        have notSlashToo : d ≠ '/' := unslashed d (by simp)
        simp [splitHead, notSlash, notSlashToo]
  · cases rest with
    | nil => exact ⟨['/'], [], rfl, rfl, .inl rfl⟩
    | cons c more =>
        by_cases slash : c = '/'
        · subst slash
          exact ⟨['/'], more ++ ['/'], by simp [splitHead], by simp, .inr ⟨more, rfl⟩⟩
        · by_cases dot : c = '.'
          · subst dot
            rcases more with _ | ⟨d, more⟩
            · exact ⟨['.'], ['/'], rfl, rfl, .inr ⟨[], rfl⟩⟩
            · by_cases slashToo : d = '/'
              · subst slashToo
                exact ⟨['.'], '/' :: more ++ ['/'], by simp [splitHead], by simp,
                  .inr ⟨'/' :: more, rfl⟩⟩
              · exact ⟨[], '.' :: d :: more ++ ['/'], by simp [splitHead, slashToo], by simp,
                  .inr ⟨'.' :: d :: more, rfl⟩⟩
          · exact ⟨[], c :: more ++ ['/'], by simp [splitHead, slash, dot], by simp,
              .inr ⟨c :: more, rfl⟩⟩

/-- What stands at the end of a path that has a last part. -/
def lastOf (before part : List Char) : LastPart :=
  if part = ['.', '.'] then .up before else .name before part

theorem lastPart_of_kept {path : String} {head body kept : List Char}
    (splits : splitHead path.toList = (head, body)) (skips : skipBlankPieces body.reverse = kept)
    (some : kept ≠ []) :
    lastPart path =
      lastOf (head ++ (kept.drop (lastPiece kept).length).reverse) (lastPiece kept).reverse := by
  have reversed : ((lastPiece kept).reverse = ['.', '.']) = (lastPiece kept = ['.', '.']) := by
    rw [List.reverse_eq_iff]
    rfl
  cases kept with
  | nil => exact absurd rfl some
  | cons c rest => simp only [lastPart, splits, skips, lastOf, reversed]

theorem Ends.lastPart {path : String} {before part tail : List Char}
    (ends : Ends path.toList before part tail) : lastPart path = lastOf before part := by
  obtain ⟨head, body, splits, rfl, leading⟩ :=
    splitHead_of_leading ends.leading ends.unslashed ends.counts tail
  have stops : body.reverse = [] ∨ ∃ more, body.reverse = '/' :: more := by
    rcases leading with rfl | ⟨rest, rfl⟩
    · exact .inl rfl
    · exact .inr ⟨rest.reverse, by simp⟩
  have piece : lastPiece (part.reverse ++ body.reverse) = part.reverse :=
    lastPiece_append (unslashed_reverse ends.unslashed) stops
  have skips : skipBlankPieces (body ++ part ++ tail).reverse = part.reverse ++ body.reverse := by
    rw [ends.blank.skip, List.reverse_append, skipBlankPieces_of_counts]
    rw [piece, counts_reverse]
    exact ends.counts
  rw [← ends.whole] at splits
  rw [lastPart_of_kept splits skips (by simp [ends.part_ne_nil]), piece, List.drop_left,
    List.reverse_reverse, List.reverse_reverse]

/-- A path without a last part is nothing but a head. -/
theorem ends_or_bare (path : String) :
    (∃ before part tail, Ends path.toList before part tail) ∨
      lastPart path = .none ∨ lastPart path = .root ∨ lastPart path = .current := by
  obtain ⟨whole, heads⟩ := splitHead_cases path.toList
  cases splits : splitHead path.toList with
  | mk head body =>
      rw [splits] at whole heads
      by_cases some : skipBlankPieces body.reverse = []
      · right
        simp only [lastPart, splits, some]
        rcases heads with rfl | rfl | ⟨rfl, _⟩ <;> simp
      · left
        generalize skips : skipBlankPieces body.reverse = kept at some
        obtain ⟨tail, blank, same⟩ := blankTail_of_skip skips some
        rw [List.reverse_reverse] at same
        have counting : counts (lastPiece kept).reverse = true := by
          rw [counts_reverse, ← skips]
          exact counts_of_skip (skips ▸ some)
        have unslashed : Unslashed (lastPiece kept).reverse :=
          unslashed_reverse (unslashed_lastPiece kept)
        rcases lastPiece_cases kept with alone | ⟨rest, behind⟩
        · refine ⟨head, (lastPiece kept).reverse, tail, ?_, ?_, unslashed, counting, blank⟩
          · rw [← alone, List.append_assoc, ← same]
            exact whole
          · rcases heads with rfl | rfl | ⟨rfl, rfl | ⟨more, rfl⟩⟩
            · exact .inl rfl
            · exact .inr ⟨[], rfl⟩
            · simp [some] at same
            · rw [alone] at same
              cases piece : (lastPiece kept).reverse with
              | nil => exact absurd counting (by simp [piece, counts])
              | cons c others =>
                  rw [piece] at same unslashed
                  obtain ⟨rfl, _⟩ := List.cons.inj same
                  exact absurd rfl (unslashed '/' List.mem_cons_self)
        · refine ⟨head ++ (rest.reverse ++ ['/']), (lastPiece kept).reverse, tail, ?_, ?_,
            unslashed, counting, blank⟩
          · have reversed : kept.reverse = rest.reverse ++ ['/'] ++ (lastPiece kept).reverse := by
              conv_lhs => rw [behind]
              simp
            rw [List.append_assoc head, List.append_assoc head, ← reversed, ← same]
            exact whole
          · exact .inr ⟨head ++ rest.reverse, by simp⟩

/-- A path whose last part is a name. -/
def HasName (path : String) : Prop := ∃ before part, lastPart path = .name before part

theorem HasName.exists_ends {path : String} (named : HasName path) :
    ∃ before part tail, Ends path.toList before part tail ∧ part ≠ ['.', '.'] := by
  obtain ⟨before, part, last⟩ := named
  rcases ends_or_bare path with ⟨before, part, tail, ends⟩ | bare | bare | bare
  · refine ⟨before, part, tail, ends, ?_⟩
    rintro rfl
    rw [ends.lastPart, lastOf, if_pos rfl] at last
    cases last
  all_goals
    rw [bare] at last
    cases last

/-- A path with a last part begins as the text before it does, if with a slash. -/
theorem Ends.head?_eq_slash_iff {path before part tail : List Char}
    (ends : Ends path before part tail) : path.head? = some '/' ↔ before.head? = some '/' := by
  rw [ends.whole]
  cases before with
  | cons c rest => exact Iff.rfl
  | nil =>
      cases part with
      | nil => exact absurd rfl ends.part_ne_nil
      | cons c rest =>
          have notSlash : c ≠ '/' := ends.unslashed c List.mem_cons_self
          simp [notSlash]

/-! The parent of a path. -/

theorem names_of_not_counts {piece : List Char} (blank : piece = [] ∨ piece = ['.']) :
    names piece.reverse = [] := by
  rcases blank with rfl | rfl <;> rfl

theorem names_skip (backward : List Char) :
    names (skipBlankPieces backward).reverse = names backward.reverse := by
  fun_induction skipBlankPieces backward with
  | case1 => rfl
  | case2 c rest piece blank inductionHypothesis =>
      rw [inductionHypothesis]
      rcases lastPiece_cases (c :: rest) with whole | ⟨before, split⟩
      · have nothing : (c :: rest).drop (piece.length + 1) = [] := by
          rw [List.drop_eq_nil_iff, whole]
          exact Nat.le_succ _
        rw [nothing, whole]
        exact (names_of_not_counts blank).symm
      · have behind : (c :: rest).drop (piece.length + 1) = before := by
          rw [split, ← List.drop_drop, List.drop_left]
          rfl
        rw [behind, split, List.reverse_append, List.reverse_cons, List.append_assoc,
          List.singleton_append, names_append_slash, names_of_not_counts blank, List.append_nil]
  | case3 => rfl

/-- In a path that has no last part nothing counts. -/
theorem names_of_bare {path : String}
    (bare : lastPart path = .none ∨ lastPart path = .root ∨ lastPart path = .current) :
    names path.toList = [] := by
  obtain ⟨whole, heads⟩ := splitHead_cases path.toList
  cases splits : splitHead path.toList with
  | mk head body =>
      rw [splits] at whole heads
      by_cases nothing : skipBlankPieces body.reverse = []
      · have blank : names body = [] := by
          have same := names_skip body.reverse
          rwa [nothing, List.reverse_reverse, List.reverse_nil, names_nil, eq_comm] at same
        rw [whole]
        rcases heads with rfl | rfl | ⟨rfl, rfl | ⟨rest, rfl⟩⟩
        · exact blank
        · exact (names_slash body).trans blank
        · rfl
        · exact (names_append_slash ['.'] rest).trans ((names_slash rest).symm.trans blank)
      · rw [lastPart_of_kept splits rfl nothing, lastOf] at bare
        split at bare <;> simp at bare

theorem skipBlankPieces_suffix (backward : List Char) : skipBlankPieces backward <:+ backward := by
  fun_induction skipBlankPieces backward with
  | case1 => exact List.suffix_rfl
  | case2 c rest piece blank inductionHypothesis =>
      exact inductionHypothesis.trans (List.drop_suffix _ _)
  | case3 => exact List.suffix_rfl

theorem trimmed_prefix (body : List Char) : (skipBlankPieces body.reverse).reverse <+: body := by
  have suffix := skipBlankPieces_suffix body.reverse
  rwa [← List.reverse_prefix, List.reverse_reverse] at suffix

theorem trimBefore_nil : trimBefore [] = "" := by
  simp [trimBefore, splitHead, skipBlankPieces]

theorem names_trimBefore (before : List Char) :
    names (trimBefore before).toList = names before := by
  obtain ⟨whole, heads⟩ := splitHead_cases before
  have kept := names_skip (splitHead before).2.reverse
  have inside := trimmed_prefix (splitHead before).2
  rw [List.reverse_reverse] at kept
  simp only [trimBefore, String.toList_ofList]
  generalize splitHead before = split at *
  obtain ⟨head, body⟩ := split
  subst whole
  rcases heads with rfl | rfl | ⟨rfl, rfl | ⟨rest, rfl⟩⟩
  · exact kept
  · exact (names_slash _).trans (kept.trans (names_slash _).symm)
  · rw [List.reverse_nil, skipBlankPieces]
    rfl
  · generalize (skipBlankPieces _).reverse = trimmed at kept inside
    refine Eq.trans ?_ (kept.trans ?_)
    · rcases List.prefix_cons_iff.mp inside with rfl | ⟨more, rfl, _⟩
      · rfl
      · exact (names_append_slash ['.'] more).trans (names_slash more).symm
    · exact ((names_append_slash ['.'] rest).trans (names_slash rest).symm).symm

/-- A parent that is not empty begins as the path does. -/
theorem head?_trimBefore {before : List Char} (some : trimBefore before ≠ "") :
    (trimBefore before).toList.head? = before.head? := by
  obtain ⟨whole, heads⟩ := splitHead_cases before
  have inside := trimmed_prefix (splitHead before).2
  simp only [trimBefore, String.toList_ofList] at some ⊢
  generalize splitHead before = split at *
  obtain ⟨head, body⟩ := split
  subst whole
  cases head with
  | cons c head => rfl
  | nil =>
      dsimp only [List.nil_append] at some inside ⊢
      cases trimmed : (skipBlankPieces body.reverse).reverse with
      | nil => exact absurd (by rw [trimmed]) some
      | cons c rest =>
          rw [trimmed] at inside
          obtain ⟨more, rfl⟩ := inside
          rfl

theorem Ends.parent? {path : String} {before part tail : List Char}
    (ends : Ends path.toList before part tail) : parent? path = some (trimBefore before) := by
  rw [Path.parent?, ends.lastPart, lastOf]
  by_cases up : part = ['.', '.'] <;> simp [up]

/-- A parent that is not empty begins as the path does and lacks its last name. -/
theorem parent_cases {path parent : String} (given : Path.parent? path = some parent) :
    parent = "" ∨ parent.toList.head? = path.toList.head? ∧
      ∃ part, names path.toList = names parent.toList ++ [part] := by
  rcases ends_or_bare path with ⟨before, part, tail, ends⟩ | bare | bare | bare
  · rw [ends.parent?, Option.some.injEq] at given
    subst given
    by_cases empty : trimBefore before = ""
    · exact .inl empty
    · refine .inr ⟨?_, part, ?_⟩
      · rw [head?_trimBefore empty, ends.whole]
        cases before with
        | nil => exact absurd trimBefore_nil empty
        | cons c rest => rfl
      · rw [ends.names_eq, names_trimBefore]
  · simp [Path.parent?, bare] at given
  · simp [Path.parent?, bare] at given
  · rw [Path.parent?, bare, Option.some.injEq] at given
    exact .inl given.symm

/-! Setting an extension. -/

theorem splitExtension_append {stem extension : List Char} (some : stem ≠ [])
    (undotted : '.' ∉ extension) :
    splitExtension (stem ++ '.' :: extension) = (stem, .some extension) := by
  have plain : ∀ c ∈ extension.reverse, (c != '.') = true := by
    intro c member
    rw [bne_iff_ne]
    rintro rfl
    exact undotted (List.mem_reverse.mp member)
  have last : ((stem ++ '.' :: extension).reverse.takeWhile (· != '.')).reverse = extension := by
    rw [List.reverse_append, List.reverse_cons, List.append_assoc,
      List.takeWhile_append_of_pos plain]
    simp
  have left : (stem ++ '.' :: extension).length - extension.length - 1 = stem.length := by
    rw [List.length_append, List.length_cons]
    omega
  simp only [splitExtension, last, left, List.take_left]
  refine if_neg ?_
  rw [not_or, List.length_append, List.length_cons]
  exact ⟨by omega, some⟩

/-- A name is cut at its last dot, unless that is its first character. -/
theorem splitExtension_cases (name : List Char) :
    splitExtension name = (name, none) ∨
      ∃ stem extension, splitExtension name = (stem, some extension) ∧
        name = stem ++ '.' :: extension ∧ stem ≠ [] ∧ '.' ∉ extension := by
  rcases takeWhile_cases '.' name.reverse with whole | ⟨rest, split⟩
  · have all : ((name.reverse.takeWhile (· != '.')).reverse).length = name.length := by
      rw [← whole, List.length_reverse, List.length_reverse]
    left
    simp only [splitExtension]
    exact if_pos (.inl all)
  · generalize backward : name.reverse.takeWhile (· != '.') = piece at split
    have undotted : '.' ∉ piece.reverse := by
      rw [List.mem_reverse, ← backward]
      intro member
      simpa using List.all_eq_true.mp List.all_takeWhile '.' member
    rw [List.reverse_eq_iff, List.reverse_append, List.reverse_cons, List.append_assoc,
      List.singleton_append] at split
    cases empty : rest.reverse with
    | nil =>
        rw [empty, List.nil_append] at split
        left
        simp only [splitExtension, backward]
        refine if_pos (.inr ?_)
        rw [split]
        simp
    | cons c stem =>
        right
        rw [empty] at split
        refine ⟨c :: stem, piece.reverse, ?_, split, by simp, undotted⟩
        rw [split]
        exact splitExtension_append (by simp) undotted

/-- The end of a path whose extension was set, in the place of the part at its end before. -/
inductive Extended (extension part : List Char) : List Char → List Char → Prop where
  /-- A stem of the part is left. -/
  | stem {stem} : stem ≠ [] → (part = stem ∨ ∃ old, part = stem ++ '.' :: old ∧ '.' ∉ old) →
      Extended extension part (stem ++ '.' :: extension) []
  /-- Only a step upwards is left, in which no extension can be set. -/
  | up {tail} : Extended extension part ['.', '.'] tail

theorem counts_of_two_le {piece : List Char} (long : 2 ≤ piece.length) : counts piece = true := by
  match piece with
  | [] => exact absurd long (by decide)
  | [_] => exact absurd long (by simp)
  | _ :: _ :: _ => simp [counts]

theorem unslashed_append {first second : List Char} (unslashed : Unslashed first)
    (unslashedToo : Unslashed second) : Unslashed (first ++ second) := by
  intro c member
  rcases List.mem_append.mp member with inFirst | inSecond
  · exact unslashed c inFirst
  · exact unslashedToo c inSecond

theorem unslashed_dot {cs : List Char} (unslashed : Unslashed cs) : Unslashed ('.' :: cs) := by
  rw [Unslashed, List.forall_mem_cons]
  exact ⟨by decide, unslashed⟩

/-- A stem with an extension is a part of its own. -/
theorem ends_stem {before stem extension tail : List Char} (leading : Leading before)
    (some : stem ≠ []) (inside : Unslashed stem) (unslashed : Unslashed extension)
    (blank : BlankTail tail) :
    Ends (before ++ (stem ++ '.' :: extension) ++ tail) before (stem ++ '.' :: extension) tail where
  whole := rfl
  leading := leading
  unslashed := unslashed_append inside (unslashed_dot unslashed)
  counts := by
    apply counts_of_two_le
    have := List.length_pos_iff.mpr some
    rw [List.length_append, List.length_cons]
    omega
  blank := blank

theorem toList_setExtension (before stem : List Char) (extension : String) :
    (String.ofList (before ++ stem) ++ "." ++ extension).toList =
      before ++ (stem ++ '.' :: extension.toList) ++ [] := by
  simp

/-- What is left of a path from whose end as much is cut as an extension takes. -/
theorem take_of_extension (before stem old tail : List Char) :
    (before ++ (stem ++ '.' :: old) ++ tail).take
        ((before ++ (stem ++ '.' :: old) ++ tail).length - old.length) =
      before ++ (stem ++ '.' :: old.take tail.length) ++
        tail.take (tail.length - old.length) := by
  have count : (before ++ (stem ++ '.' :: old) ++ tail).length - old.length =
      (before ++ stem ++ ['.']).length + tail.length := by
    simp only [List.length_append, List.length_cons, List.length_nil]
    omega
  have front : before ++ (stem ++ '.' :: old) ++ tail =
      before ++ stem ++ ['.'] ++ (old ++ tail) := by
    simp
  rw [count, front, List.take_length_add_append, List.take_append]
  simp

theorem ends_withExtension {path : String} {before part tail : List Char}
    (ends : Ends path.toList before part tail) (name : part ≠ ['.', '.']) (extension : String)
    (unslashed : Unslashed extension.toList) :
    ∃ last rest, Ends (withExtension path extension).toList before last rest ∧
      Extended extension.toList part last rest := by
  have last : lastPart path = .name before part := by
    rw [ends.lastPart, lastOf, if_neg name]
  rcases splitExtension_cases part with whole | ⟨stem, old, split, rfl, some, undotted⟩
  · have uncut : String.ofList (path.toList.take (path.length - extensionLength path)) = path := by
      rw [extensionLength, last]
      simp only [whole]
      rw [← String.length_toList]
      simp
    rw [withExtension, uncut, setExtension, last]
    simp only [whole]
    rw [toList_setExtension]
    exact ⟨_, _, ends_stem ends.leading ends.part_ne_nil ends.unslashed unslashed .nil,
      .stem ends.part_ne_nil (.inl rfl)⟩
  · have inside : Unslashed stem := fun c member =>
      ends.unslashed c (List.mem_append_left _ member)
    have cut : path.toList.take (path.length - extensionLength path) =
        before ++ (stem ++ '.' :: old.take tail.length) ++
          tail.take (tail.length - old.length) := by
      rw [extensionLength, last]
      simp only [split, Option.getD_some]
      rw [← String.length_toList, ends.whole]
      exact take_of_extension before stem old tail
    have short : Unslashed (old.take tail.length) := fun c member =>
      ends.unslashed c (by simp [List.mem_of_mem_take member])
    have endsCut : Ends (String.ofList (before ++ (stem ++ '.' :: old.take tail.length) ++
        tail.take (tail.length - old.length))).toList before (stem ++ '.' :: old.take tail.length)
        (tail.take (tail.length - old.length)) := by
      rw [String.toList_ofList]
      exact ends_stem ends.leading some inside short (ends.blank.take _)
    rw [withExtension, cut, setExtension, endsCut.lastPart, lastOf]
    by_cases up : stem ++ '.' :: old.take tail.length = ['.', '.']
    · rw [if_pos up]
      rw [up] at endsCut
      rw [up]
      exact ⟨_, _, endsCut, .up⟩
    · rw [if_neg up]
      simp only [splitExtension_append some fun member => undotted (List.mem_of_mem_take member)]
      rw [toList_setExtension]
      exact ⟨_, _, ends_stem ends.leading some inside unslashed .nil,
        .stem some (.inr ⟨old, rfl, undotted⟩)⟩

/-- A new extension with a dot in it changes the part. -/
theorem Extended.ne {extension part last rest : List Char}
    (extended : Extended extension part last rest) (dotted : '.' ∈ extension)
    (name : part ≠ ['.', '.']) : last ≠ part := by
  cases extended with
  | up => exact name.symm
  | stem _ stems =>
      rcases stems with rfl | ⟨old, rfl, undotted⟩
      · simp
      · rw [Ne, List.append_cancel_left_eq, List.cons.injEq]
        rintro ⟨_, rfl⟩
        exact undotted dotted

end RobotRoutine.Path
