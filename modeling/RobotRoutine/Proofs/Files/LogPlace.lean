import RobotRoutine.Proofs.Files.Replacement

/-!
Where the file of a run log is.

The text of a run selector is joined to the log directory as a path, so a slash in it leads on from
the directory, to where its steps upwards and the links on the way go.  Only a selector without a
slash, and without a link at its name, is sure to have a file in the log directory, and one that
belongs to no other such selector.
-/

namespace RobotRoutine

namespace Path

/-- A text is all up to its last slash, and a rest in which there is none. -/
theorem exists_leading (text : String) :
    ∃ before name, text = before ++ name ∧ Leading before.toList ∧ Unslashed name.toList := by
  have unslashed : Unslashed (lastPiece text.toList.reverse).reverse :=
    unslashed_reverse (unslashed_lastPiece _)
  rcases lastPiece_cases text.toList.reverse with whole | ⟨rest, split⟩
  · refine ⟨"", text, String.empty_append.symm, .inl String.toList_empty, ?_⟩
    rwa [← whole, List.reverse_reverse] at unslashed
  · refine ⟨String.ofList (rest.reverse ++ ['/']),
      String.ofList (lastPiece text.toList.reverse).reverse, ?_, ?_, ?_⟩
    · generalize lastPiece text.toList.reverse = piece at split ⊢
      rw [List.reverse_eq_iff] at split
      rw [← String.toList_inj, split]
      simp
    · simp only [String.toList_ofList]
      exact .inr ⟨rest.reverse, rfl⟩
    · simpa only [String.toList_ofList] using unslashed

/-- A path that does not begin with a slash is put behind the base. -/
theorem join_of_relative (base : String) {path : String} (relative : path.toList.head? ≠ some '/') :
    join base path = join base "" ++ path := by
  unfold join
  split
  case h_1 rest begins =>
    simp [begins] at relative
  case h_2 =>
    change _ = (if _ then base ++ "" else base ++ "/" ++ "") ++ path
    split <;> simp

theorem join_of_absolute (base : String) {path : String} (absolute : path.toList.head? = some '/') :
    join base path = path := by
  unfold join
  split
  case h_1 => rfl
  case h_2 other =>
    obtain ⟨rest, same⟩ := List.head?_eq_some_iff.mp absolute
    exact absurd same (other rest)

/-- What stands before a path that is joined to a base: the base, up to a slash. -/
theorem join_empty_cases (base : String) :
    join base "" = base ∧ Leading base.toList ∨ join base "" = base ++ "/" ∧ base ≠ "" := by
  unfold join
  split
  case h_1 begins => simp at begins
  case h_2 =>
    simp only [String.append_empty]
    split
    case isTrue ends =>
      refine .inl ⟨rfl, ?_⟩
      simp only [Bool.or_eq_true, String.isEmpty_iff, FileSystem.endsWith_slash_iff] at ends
      rcases ends with empty | ⟨rest, same⟩
      · exact .inl (String.toList_eq_nil_iff.mpr empty)
      · exact .inr ⟨rest, same.symm⟩
    case isFalse some =>
      simp only [Bool.or_eq_true, String.isEmpty_iff, not_or] at some
      exact .inr ⟨rfl, some.1⟩

theorem leading_join_empty (base : String) : Leading (join base "").toList := by
  rcases join_empty_cases base with ⟨joined, leading⟩ | ⟨joined, _⟩
  · simpa only [joined] using leading
  · simp only [joined, String.toList_append]
    exact .inr ⟨base.toList, rfl⟩

theorem head?_ne_of_unslashed {name : List Char} (unslashed : Unslashed name) :
    name.head? ≠ some '/' :=
  fun begins => unslashed '/' (List.mem_of_mem_head? begins) rfl

/-- A text up to a slash may be joined first, and the rest put behind it. -/
theorem join_append (base : String) {before name : String} (leading : Leading before.toList)
    (unslashed : Unslashed name.toList) :
    join base (before ++ name) = join base before ++ name ∧ Leading (join base before).toList := by
  by_cases absolute : before.toList.head? = some '/'
  · have absoluteToo : (before ++ name).toList.head? = some '/' := by
      simp only [String.toList_append, List.head?_append, absolute, Option.some_or]
    rw [join_of_absolute base absolute, join_of_absolute base absoluteToo]
    exact ⟨rfl, leading⟩
  · have relative : (before ++ name).toList.head? ≠ some '/' := by
      rw [String.toList_append, List.head?_append]
      cases first : before.toList.head? with
      | none => exact head?_ne_of_unslashed unslashed
      | some c => simpa only [first, Option.some_or] using absolute
    rw [join_of_relative base relative, join_of_relative base absolute]
    refine ⟨String.append_assoc.symm, ?_⟩
    rw [String.toList_append]
    rcases leading with nothing | ⟨rest, same⟩
    · simpa only [nothing, List.append_nil] using leading_join_empty base
    · simp only [same, ← List.append_assoc]
      exact .inr ⟨_, rfl⟩

theorem unslashed_of_mem_splitOnP {cs piece : List Char}
    (member : piece ∈ cs.splitOnP (· == '/')) : Unslashed piece := by
  induction cs generalizing piece with
  | nil =>
      rw [List.splitOnP_nil, List.mem_singleton] at member
      subst member
      exact List.forall_mem_nil _
  | cons c rest inductionHypothesis =>
      rw [List.splitOnP_cons_eq_if_modifyHead] at member
      split at member
      case isTrue =>
        rcases List.mem_cons.mp member with rfl | behind
        · exact List.forall_mem_nil _
        · exact inductionHypothesis behind
      case isFalse other =>
        cases pieces : rest.splitOnP (· == '/') with
        | nil => exact absurd pieces (List.splitOnP_ne_nil _ _)
        | cons first others =>
            rw [pieces] at member inductionHypothesis
            rcases List.mem_cons.mp member with rfl | behind
            · have unslashed := inductionHypothesis List.mem_cons_self
              exact List.forall_mem_cons.mpr ⟨by simpa using other, unslashed⟩
            · exact inductionHypothesis (List.mem_cons_of_mem _ behind)

end Path

namespace FileSystem

open RobotRoutine.Path (Leading Unslashed)

variable {files others : FileSystem} {path : String} {p q : WalkPoint}

/-! Parts have no slash in them, those of links included. -/

theorem unslashed_of_mem_partsAndSlash {part : String} (member : part ∈ partsAndSlash path) :
    Unslashed part.toList := by
  rw [partsAndSlash, List.mem_append] at member
  rcases member with inside | slash
  · rw [parts_eq, List.mem_filter] at inside
    obtain ⟨piece, inPieces, rfl⟩ := List.mem_map.mp inside.1
    simpa only [String.toList_ofList] using Path.unslashed_of_mem_splitOnP inPieces
  · split at slash
    · rw [List.mem_singleton] at slash
      subst slash
      exact List.forall_mem_nil _
    · exact absurd slash List.not_mem_nil

/-- A point whose parts have no slash in them. -/
def WalkPoint.Slashless (point : WalkPoint) : Prop :=
  ∀ part ∈ point.remaining, Unslashed part.toList

theorem Step.slashless (step : Step files p q) (slashless : p.Slashless) : q.Slashless := by
  cases step with
  | follow =>
      intro part member
      rcases List.mem_append.mp member with inTarget | behind
      · exact unslashed_of_mem_partsAndSlash inTarget
      · exact slashless part (List.mem_cons_of_mem _ behind)
  | _ => exact fun part member => slashless part (List.mem_cons_of_mem _ member)

theorem Leads.slashless (leads : Leads files p q) (slashless : p.Slashless) : q.Slashless := by
  induction leads with
  | refl => exact slashless
  | tail _ step inductionHypothesis => exact step.slashless inductionHypothesis

/-! Directories to which paths lead. -/

/-- A path leads to a directory, by way of links if need be. -/
def DirectoryAt (files : FileSystem) (path : String) (home : Location) : Prop :=
  ∃ links, Leads files ⟨linkLimit, start files.workingDirectory path, parts path⟩ ⟨links, home, []⟩

theorem DirectoryAt.unique {home other : Location} (leads : files.DirectoryAt path home)
    (leadsToo : files.DirectoryAt path other) : home = other := by
  obtain ⟨_, leads⟩ := leads
  obtain ⟨_, leadsToo⟩ := leadsToo
  cases leads.eq_of_final final_nil leadsToo final_nil
  rfl

theorem parts_join_empty (path : String) : parts (Path.join path "") = parts path := by
  rcases Path.join_empty_cases path with ⟨joined, _⟩ | ⟨joined, _⟩
  · rw [joined]
  · have slashed : Path.pieces (path.toList ++ ['/']) = Path.pieces path.toList :=
      (Path.pieces_append_slash path.toList []).trans (List.append_nil _)
    rw [joined, parts_eq_pieces, parts_eq_pieces, String.toList_append]
    exact congrArg _ slashed

theorem start_join_empty (location : Location) (path : String) :
    start location (Path.join path "") = start location path := by
  rcases Path.join_empty_cases path with ⟨joined, _⟩ | ⟨joined, some⟩
  · rw [joined]
  · rw [joined, start_eq, start_eq, String.toList_append]
    cases characters : path.toList with
    | nil => exact absurd (String.toList_eq_nil_iff.mp characters) some
    | cons c rest => rfl

theorem directoryAt_join_empty {home : Location} :
    files.DirectoryAt (Path.join path "") home ↔ files.DirectoryAt path home := by
  rw [DirectoryAt, DirectoryAt, parts_join_empty, start_join_empty]

/-- A path that ends in a name leads on from all before it. -/
theorem partsAndSlash_of_bare_ends {before part : List Char}
    (ends : Path.Ends path.toList before part []) :
    partsAndSlash path = parts (String.ofList before) ++ [String.ofList part] := by
  have unended : path.endsWith "/" = false := by
    rw [← Bool.not_eq_true, endsWith_slash_iff, ends.whole, List.append_nil]
    rintro ⟨rest, same⟩
    obtain ⟨earlier, last, rfl⟩ := (List.eq_nil_or_concat part).resolve_left ends.part_ne_nil
    rw [List.concat_eq_append, ← List.append_assoc] at same
    obtain ⟨_, slash⟩ := List.append_inj' same rfl
    cases slash
    exact ends.unslashed '/' (by simp) rfl
  rw [partsAndSlash, unended, if_neg Bool.false_ne_true, List.append_nil, parts_eq_pieces,
    ends.pieces_eq, parts_eq_pieces, String.toList_ofList, List.map_append]
  rfl

def Unlinked (files : FileSystem) (location : Location) : Prop :=
  ∀ target, files.entry? location ≠ some (.link target)

/-- A file that is created is the last name of its path in the directory to which all before that
leads, unless a link stands there. -/
theorem LeadsTo.exists_directoryAt {place : Location} {before part : List Char}
    (leadsTo : files.LeadsTo path place) (ends : Path.Ends path.toList before part [])
    (notUp : part ≠ ['.', '.']) :
    ∃ inner, files.DirectoryAt (String.ofList before) inner ∧
      (files.Unlinked (inner ++ [String.ofList part]) → place = inner ++ [String.ofList part]) := by
  obtain ⟨target, resolved, rfl⟩ := leadsTo.target
  obtain ⟨_, _, walks⟩ := exists_of_bind_eq_ok resolved
  rw [partsAndSlash_of_bare_ends ends, start_of_ends ends] at walks
  obtain ⟨links, inner, leads, lastWalk⟩ := exists_leads_of_walk (List.cons_ne_nil _ _) walks
  refine ⟨inner, ⟨links, leads⟩, ?_⟩
  intro unlinked
  obtain ⟨named, down⟩ := named_of_ends ends notUp
  generalize String.ofList part = last at *
  rcases step_or_end_of_walk lastWalk with ⟨next, step, goesOn⟩ | ⟨_, _, location, _⟩
  · cases step with
    | blank isBlank => exact absurd isBlank named
    | up => exact absurd rfl down
    | enter _ directory =>
        rw [WalkPoint.walk, WalkPoint.extend, List.append_nil, walk] at goesOn
        cases goesOn
        exact absurd directory leadsTo.notDirectory
    | follow _ link => exact absurd link (unlinked _)
  · exact location

theorem DirectoryAt.of_sameBut {home place : Location} (leads : files.DirectoryAt path home)
    (stops : files.Stops place) (same : SameBut (· = place) files others) :
    others.DirectoryAt path home := by
  obtain ⟨links, leads⟩ := leads
  rw [DirectoryAt, same.workingDirectory]
  exact ⟨links, leads.of_sameBut stops same⟩

end FileSystem

namespace RunLog

open FileSystem (DirectoryAt Grows SameBut)
open RobotRoutine.Path (Leading Unslashed)

variable {files opened : FileSystem} {now : Duration} {directory selector : String} {log : RunLog}
  {location : Location}

/-! Opening a log. -/

/-- How a log is opened: directories are made, and then the file to which the path of the log leads
is emptied or made. -/
structure OpensAt (files before : FileSystem) (now : Duration) (directory selector : String)
    (log : RunLog) (opened : FileSystem) (location : Location) : Prop where
  grows : Grows files before
  rooted : before.Rooted
  leadsTo : before.LeadsTo (pathOf directory selector) location
  same : SameBut (· = location) before opened
  emptied : opened.entry? location = some (.file ByteArray.empty) ∨
    opened.entry? location = some .fullDevice
  fresh : log =
    ⟨some ⟨⟨location, 0⟩, ByteArray.empty⟩, some (pathOf directory selector), .info, now⟩

theorem opensAt_of_openFile (rooted : files.Rooted) {outcome : Except Failure RunLog}
    (opens : openFile files now directory selector = (outcome, opened)) :
    (∃ error, outcome = .error error) ∧ Grows files opened ∨
      ∃ log before location, outcome = .ok log ∧
        OpensAt files before now directory selector log opened location := by
  have grows := FileSystem.grows_makeDirectories files directory
  have rootedMade := rooted.makeDirectories directory
  unfold openFile at opens
  generalize files.makeDirectories directory = making at opens grows rootedMade
  obtain ⟨made, after⟩ := making
  cases made with
  | error error =>
      cases opens
      exact .inl ⟨⟨_, rfl⟩, grows⟩
  | ok _ =>
      dsimp only at opens
      cases creates : after.create (pathOf directory selector) with
      | mk created last =>
          rw [creates] at opens
          obtain ⟨before, faulted, ends⟩ := FileSystem.create_cases rootedMade creates
          have growsToo : Grows files before := grows.trans (.of_sameBut faulted)
          rcases ends with ⟨error, rfl, rfl⟩ | ⟨location, rfl, leadsTo, ends⟩
          · cases opens
            exact .inl ⟨⟨_, rfl⟩, growsToo⟩
          · cases opens
            refine .inr ⟨_, before, location, rfl, ?_⟩
            have rootedBefore := rootedMade.of_sameBut faulted
            rcases ends with ⟨full, rfl⟩ | ⟨rfl, _⟩
            · exact ⟨growsToo, rootedBefore, leadsTo, .refl _, .inr full, rfl⟩
            · refine ⟨growsToo, rootedBefore, leadsTo, FileSystem.sameBut_put _ _ _, .inl ?_, rfl⟩
              exact FileSystem.entry?_put_self before leadsTo.inside _

/-! The place of its file. -/

/-- A selector whose text is a name of its own in the log directory. -/
def OwnName (files : FileSystem) (directory selector : String) : Prop :=
  Unslashed selector.toList ∧
    ∀ home, files.DirectoryAt directory home → files.Unlinked (home ++ [selector ++ ".log"])

/-- A place in the directory to which a selector leads up to its last slash, under the name behind
that, unless a link stands there. -/
def Follows (files : FileSystem) (directory selector : String) (location : Location) : Prop :=
  ∃ before name inner, selector = before ++ name ∧ Leading before.toList ∧
    Unslashed name.toList ∧ files.DirectoryAt (Path.join directory before) inner ∧
      (location = inner ++ [name ++ ".log"] ↔ files.Unlinked (inner ++ [name ++ ".log"]))

/-- What the opening of a log does among the files, and where it does it. -/
structure Placed (files opened : FileSystem) (directory selector : String) (location : Location) :
    Prop where
  emptied : opened.entry? location = some (.file ByteArray.empty) ∨
    opened.entry? location = some .fullDevice
  alone : ∀ other, other ≠ location → opened.entry? other = files.entry? other ∨
    files.entry? other = none ∧ opened.entry? other = some .directory
  way : Follows opened directory selector location
  /-- It stands in the log directory, under the name of the selector, for such selectors only. -/
  own : (∃ home, opened.DirectoryAt directory home ∧ location = home ++ [selector ++ ".log"]) ↔
    OwnName opened directory selector

theorem ends_pathOf (directory : String) {before name : String} (leading : Leading before.toList)
    (unslashed : Unslashed name.toList) :
    Path.Ends (pathOf directory (before ++ name)).toList (Path.join directory before).toList
      (name ++ ".log").toList [] := by
  have unslashedToo : Unslashed (name ++ ".log").toList := by
    have plain : ".log".toList.all (· != '/') = true := by decide
    simp only [String.toList_append]
    apply Path.unslashed_append unslashed
    intro c member
    exact bne_iff_ne.mp (List.all_eq_true.mp plain c member)
  obtain ⟨joined, leadingToo⟩ := Path.join_append directory leading unslashedToo
  refine
    { whole := ?_
      leading := leadingToo
      unslashed := unslashedToo
      counts := ?_
      blank := .nil }
  · rw [pathOf, String.append_assoc, joined, String.toList_append, List.append_nil]
  · apply Path.counts_of_two_le
    simp only [String.toList_append, List.length_append]
    exact Nat.le_add_left_of_le (by decide)

namespace OpensAt

variable {before : FileSystem}

theorem unlinked (opensAt : OpensAt files before now directory selector log opened location) :
    opened.Unlinked location := by
  intro target link
  rcases opensAt.emptied with empty | full
  · simp [empty] at link
  · simp [full] at link

theorem way (opensAt : OpensAt files before now directory selector log opened location) :
    Follows opened directory selector location := by
  obtain ⟨first, name, rfl, leading, unslashed⟩ := Path.exists_leading selector
  have notUp : (name ++ ".log").toList ≠ ['.', '.'] := by
    intro up
    have long := congrArg List.length up
    simp at long
  obtain ⟨inner, leads, ends⟩ :=
    opensAt.leadsTo.exists_directoryAt (ends_pathOf directory leading unslashed) notUp
  obtain ⟨_, _, _, _, _, _, stops⟩ := opensAt.leadsTo.exists_way opensAt.rooted
  rw [String.ofList_toList] at leads ends
  refine ⟨first, name, inner, rfl, leading, unslashed, leads.of_sameBut stops opensAt.same, ?_⟩
  constructor
  · intro here
    exact here ▸ opensAt.unlinked
  · intro unlinked
    by_cases here : inner ++ [name ++ ".log"] = location
    · exact here.symm
    · apply ends
      intro target
      simpa only [opensAt.same.entries _ here] using unlinked target

theorem own (opensAt : OpensAt files before now directory selector log opened location) :
    (∃ home, opened.DirectoryAt directory home ∧ location = home ++ [selector ++ ".log"]) ↔
      OwnName opened directory selector := by
  constructor
  · rintro ⟨home, leads, rfl⟩
    obtain ⟨_, _, last, way, _, place, _⟩ := opensAt.leadsTo.exists_way opensAt.rooted
    obtain ⟨_, same⟩ := List.append_inj' place rfl
    obtain ⟨rfl, _⟩ := List.cons.inj same
    have unslashed : Unslashed (selector ++ ".log").toList :=
      way.slashless (fun _ => FileSystem.unslashed_of_mem_partsAndSlash) _ List.mem_cons_self
    constructor
    · intro c member
      apply unslashed c
      simp only [String.toList_append]
      exact List.mem_append_left _ member
    · intro other leadsToo
      simpa only [leadsToo.unique leads] using opensAt.unlinked
  · rintro ⟨unslashed, unlinked⟩
    obtain ⟨first, name, inner, rfl, leading, _, leads, ends⟩ := opensAt.way
    have nothing : first = "" := by
      rcases leading with empty | ⟨rest, slash⟩
      · exact String.toList_eq_nil_iff.mp empty
      · exact absurd rfl (unslashed '/' (by simp [slash]))
    subst nothing
    rw [FileSystem.directoryAt_join_empty] at leads
    rw [String.empty_append] at unlinked ⊢
    exact ⟨inner, leads, ends.mpr (unlinked inner leads)⟩

theorem placed (opensAt : OpensAt files before now directory selector log opened location) :
    Placed files opened directory selector location where
  emptied := opensAt.emptied
  alone other different := by
    simpa only [opensAt.same.entries other different] using opensAt.grows.entries other
  way := opensAt.way
  own := opensAt.own

theorem isFile (opensAt : OpensAt files before now directory selector log opened location)
    {place : Location} : log.IsFile place ↔ place = location := by
  rw [opensAt.fresh]
  simp [IsFile]

end OpensAt

/-- Logs under names of their own share no file. -/
theorem Placed.selector_eq {others left : FileSystem} {elsewhere next : String}
    (placed : Placed files opened directory selector location)
    (placedToo : Placed others left elsewhere next location)
    (own : OwnName opened directory selector) (ownToo : OwnName left elsewhere next) :
    selector = next := by
  obtain ⟨home, _, here⟩ := placed.own.mpr own
  obtain ⟨_, _, there⟩ := placedToo.own.mpr ownToo
  obtain ⟨_, same⟩ := List.append_inj' (here.symm.trans there) rfl
  obtain ⟨names, _⟩ := List.cons.inj same
  rw [← String.toList_inj, String.toList_append, String.toList_append] at names
  exact String.toList_inj.mp (List.append_cancel_right names)

theorem placed_of_openFile {others left : FileSystem} {later : Duration} {next : String}
    {outcome outcomeToo : Except Failure RunLog} (rooted : files.Rooted) (rootedToo : others.Rooted)
    (opens : openFile files now directory selector = (outcome, opened))
    (opensToo : openFile others later directory next = (outcomeToo, left)) :
    ((∃ error, outcome = .error error) ∧ Grows files opened ∨
      ∃ log location, outcome = .ok log ∧ (∀ place, log.IsFile place ↔ place = location) ∧
        Placed files opened directory selector location) ∧
    ∀ log other location, outcome = .ok log → outcomeToo = .ok other → log.IsFile location →
      other.IsFile location → OwnName opened directory selector → OwnName left directory next →
        selector = next := by
  constructor
  · rcases opensAt_of_openFile rooted opens with failed | ⟨log, before, location, fine, opensAt⟩
    · exact .inl failed
    · exact .inr ⟨log, location, fine, fun place => opensAt.isFile, opensAt.placed⟩
  · rintro log other location rfl rfl isFile isFileToo
    rcases opensAt_of_openFile rooted opens with ⟨⟨_, ⟨⟩⟩, _⟩ | ⟨_, _, _, ⟨⟩, opensAt⟩
    rcases opensAt_of_openFile rootedToo opensToo with ⟨⟨_, ⟨⟩⟩, _⟩ | ⟨_, _, _, ⟨⟩, opensAtToo⟩
    obtain rfl := opensAt.isFile.mp isFile
    obtain rfl := opensAtToo.isFile.mp isFileToo
    exact opensAt.placed.selector_eq opensAtToo.placed

/-! Logs of other selectors beside a document. -/

section WithDocument

open FileSystem (withDocument withDirectory parts_eq partsAndSlash)

variable (document : String)

theorem rooted_withDocument : (withDocument document []).Rooted where
  working := rfl
  above location name some := by
    obtain ⟨entry, there⟩ := Option.ne_none_iff_exists'.mp some
    have member := FileSystem.mem_entries there (by simp)
    simp only [withDocument, List.mem_singleton, Prod.mk.injEq, List.append_eq_singleton_iff,
      List.cons_ne_nil, and_false, or_false] at member
    rw [member.1.1]
    rfl

/-- The files when a log has been opened at a location beside a document. -/
def withLogAt (location : Location) : FileSystem :=
  (withDirectory document).put location (.file ByteArray.empty)

theorem openFile_withDocument (now : Duration) {selector : String} {home : Location} {name : String}
    (checked : FileSystem.checkPath (pathOf "logs" selector) = .ok ())
    (walks : (withDirectory document).walk .create FileSystem.linkLimit []
      (partsAndSlash (pathOf "logs" selector)) = .ok (.free home name)) :
    openFile (withDocument document []) now "logs" selector =
      (.ok ⟨some ⟨⟨home ++ [name], 0⟩, ByteArray.empty⟩, some (pathOf "logs" selector), .info, now⟩,
        withLogAt document (home ++ [name])) := by
  have created := FileSystem.create_of_walk checked rfl rfl walks
  simp only [openFile, FileSystem.makeDirectories_withDocument, created]
  rfl

theorem walk_withDirectory :
    (withDirectory document).walk .create FileSystem.linkLimit []
        (partsAndSlash (pathOf "logs" "T")) = .ok (.free ["logs"] "T.log") ∧
    (withDirectory document).walk .create FileSystem.linkLimit []
        (partsAndSlash (pathOf "logs" "./T")) = .ok (.free ["logs"] "T.log") ∧
    (withDirectory document).walk .create FileSystem.linkLimit []
        (partsAndSlash (pathOf "logs" "../T")) = .ok (.free [] "T.log") := by
  have plain : partsAndSlash (pathOf "logs" "T") = ["logs", "T.log"] := by
    rw [partsAndSlash, parts_eq]
    decide +kernel
  have dotted : partsAndSlash (pathOf "logs" "./T") = ["logs", ".", "T.log"] := by
    rw [partsAndSlash, parts_eq]
    decide +kernel
  have upward : partsAndSlash (pathOf "logs" "../T") = ["logs", "..", "T.log"] := by
    rw [partsAndSlash, parts_eq]
    decide +kernel
  rw [plain, dotted, upward]
  simp +decide [FileSystem.walk, withDirectory, withDocument, FileSystem.put, FileSystem.erase,
    FileSystem.entry?, List.lookup_cons]

/-- A dot makes no difference to the file, and a step upwards leads out of the directory. -/
theorem placed_of_openFile_withDocument :
    Placed (withDocument "" []) (withLogAt "" ["logs", "T.log"]) "logs" "T" ["logs", "T.log"] ∧
    Placed (withDocument "" []) (withLogAt "" ["logs", "T.log"]) "logs" "./T" ["logs", "T.log"] ∧
    Placed (withDocument "" []) (withLogAt "" ["T.log"]) "logs" "../T" ["T.log"] := by
  have placed {selector : String} {home : Location} {name : String}
      (checked : FileSystem.checkPath (pathOf "logs" selector) = .ok ())
      (walks : (withDirectory "").walk .create FileSystem.linkLimit []
        (partsAndSlash (pathOf "logs" selector)) = .ok (.free home name)) :
      Placed (withDocument "" []) (withLogAt "" (home ++ [name])) "logs" selector
        (home ++ [name]) := by
    have opens := openFile_withDocument "" .zero checked walks
    obtain ⟨⟨⟨_, ⟨⟩⟩, _⟩ | ⟨log, location, opened, isFile, placed⟩, _⟩ :=
      placed_of_openFile (rooted_withDocument "") (rooted_withDocument "") opens opens
    cases opened
    obtain rfl := (isFile _).mp ⟨_, rfl, rfl⟩
    exact placed
  obtain ⟨plain, dotted, upward⟩ := walk_withDirectory ""
  refine ⟨?_, ?_, ?_⟩
  · exact placed (by decide +kernel) plain
  · exact placed (by decide +kernel) dotted
  · exact placed (by decide +kernel) upward

end WithDocument

end RunLog

end RobotRoutine
