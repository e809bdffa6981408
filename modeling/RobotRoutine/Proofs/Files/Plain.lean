import RobotRoutine.Proofs.Files.Names
import RobotRoutine.Proofs.Files.Way

/-!
Places of paths among directories and files.

Where there are no links, a path without steps upwards leads to the place that its names say, from
the root or the working directory.  So the directories that are made for a path stand at places
above its own.
-/

namespace RobotRoutine.FileSystem

open RobotRoutine.Path (names names_eq_filter_pieces pieces)

/-! The parts of a path and its names. -/

theorem parts_eq_pieces (path : String) : parts path = (pieces path.toList).map String.ofList := by
  rw [parts_eq, pieces, List.filter_map]
  congr 2
  funext piece
  rw [Bool.eq_iff_iff]
  simp

/-- The parts of a path with a last part: behind it nothing counts. -/
theorem partsAndSlash_of_ends {path : String} {before part tail : List Char}
    (ends : Path.Ends path.toList before part tail) :
    ∃ blanks, partsAndSlash path = parts (String.ofList before) ++ String.ofList part :: blanks ∧
      ∀ blank ∈ blanks, blank = "." ∨ blank = "" := by
  have dots : ∀ piece ∈ pieces tail, piece = ['.'] := (ends.blank.pieces_append []).2
  refine ⟨(pieces tail).map String.ofList ++ if path.endsWith "/" then [""] else [], ?_, ?_⟩
  · rw [partsAndSlash, parts_eq_pieces, parts_eq_pieces, String.toList_ofList, ends.pieces_eq,
      List.map_append, List.map_cons, List.append_assoc]
    rfl
  · intro blank member
    rcases List.mem_append.mp member with inTail | slash
    · obtain ⟨piece, inPieces, rfl⟩ := List.mem_map.mp inTail
      rw [dots piece inPieces]
      exact .inl rfl
    · split at slash <;> simp_all

/-- True of the parts of a path that count. -/
def isName (part : String) : Bool := part != "." && part != ""

theorem filter_isName_map (pieces : List (List Char)) :
    (pieces.map String.ofList).filter isName = (pieces.filter Path.counts).map String.ofList := by
  rw [List.filter_map]
  congr 2
  funext piece
  rw [Bool.eq_iff_iff]
  simp [isName, Path.counts, ← String.toList_inj, and_comm]

theorem filter_isName_parts (path : String) :
    (parts path).filter isName = (names path.toList).map String.ofList := by
  rw [parts_eq_pieces, filter_isName_map, pieces, List.filter_filter, names]
  congr 2
  funext piece
  cases piece <;> simp [Path.counts]

theorem filter_isName_partsAndSlash (path : String) :
    (partsAndSlash path).filter isName = (names path.toList).map String.ofList := by
  rw [partsAndSlash, List.filter_append, filter_isName_parts]
  split <;> simp [isName]

/-- A path without a step upwards. -/
def Straight (path : String) : Prop := ['.', '.'] ∉ names path.toList

theorem not_mem_parts {path : String} (straight : Straight path) : ".." ∉ parts path := by
  rw [parts_eq_pieces]
  intro member
  obtain ⟨piece, inPieces, same⟩ := List.mem_map.mp member
  have up : piece = ['.', '.'] := by
    rw [← String.toList_ofList (l := piece), same]
    rfl
  rw [Straight, names_eq_filter_pieces, List.mem_filter] at straight
  exact straight ⟨up ▸ inPieces, by decide⟩

theorem not_mem_partsAndSlash {path : String} (straight : Straight path) :
    ".." ∉ partsAndSlash path := by
  rw [partsAndSlash, List.mem_append, not_or]
  refine ⟨not_mem_parts straight, ?_⟩
  split <;> simp

/-- The place of a path without steps upwards, seen from a directory. -/
def placeOf (directory : Location) (path : String) : Location :=
  start directory path ++ (names path.toList).map String.ofList

/-! Walking where there are no links. -/

/-- A file system of nothing but directories and files. -/
structure Plain (files : FileSystem) : Prop extends Rooted files where
  kinds : ∀ location entry, files.entry? location = some entry →
    entry = .directory ∨ ∃ bytes, entry = .file bytes

variable {files others : FileSystem} {location : Location}

theorem Plain.of_sameBut (plain : files.Plain) (same : SameBut (fun _ => False) files others) :
    others.Plain where
  toRooted := plain.toRooted.of_sameBut same
  kinds location entry there := plain.kinds location entry <| by
    rwa [same.entries location not_false] at there

theorem filter_cons_of_named {part : String} (named : ¬(part = "." ∨ part = ""))
    (rest : List String) : (part :: rest).filter isName = part :: rest.filter isName := by
  rw [List.filter_cons_of_pos]
  simpa [isName] using named

theorem filter_cons_of_blank {part : String} (blank : part = "." ∨ part = "")
    (rest : List String) : (part :: rest).filter isName = rest.filter isName := by
  rw [List.filter_cons_of_neg]
  rcases blank with rfl | rfl <;> decide

theorem location_of_walk (plain : files.Plain) {mode : WalkMode} {links : Nat}
    {parts : List String} {target : PathTarget} (straight : ".." ∉ parts)
    (walks : files.walk mode links location parts = .ok target) :
    target.location = location ++ parts.filter isName := by
  fun_induction walk files mode links location parts with
  | case1 =>
      cases walks
      exact (List.append_nil _).symm
  | case2 _ _ _ _ blank inductionHypothesis =>
      rw [inductionHypothesis (fun up => straight (List.mem_cons_of_mem _ up)) walks,
        filter_cons_of_blank blank]
  | case3 => exact absurd List.mem_cons_self straight
  | case6 _ _ _ named =>
      cases walks
      rw [filter_cons_of_named named]
      rfl
  | case8 _ _ _ _ named _ _ _ _ _ inductionHypothesis =>
      rw [inductionHypothesis (fun up => straight (List.mem_cons_of_mem _ up)) walks,
        filter_cons_of_named named]
      exact List.append_assoc _ _ _
  | case9 _ _ _ _ _ _ _ _ _ _ link =>
      obtain impossible | ⟨_, impossible⟩ := plain.kinds _ _ link <;> cases impossible
  | case11 _ _ _ _ _ _ _ _ _ link =>
      obtain impossible | ⟨_, impossible⟩ := plain.kinds _ _ link <;> cases impossible
  | case12 _ _ _ named =>
      cases walks
      rw [filter_cons_of_named named]
      rfl
  | _ => cases walks

theorem location_of_resolve (plain : files.Plain) {mode : WalkMode} {path : String}
    {parts : List String} {target : PathTarget} (straight : ".." ∉ parts)
    (resolved : files.resolve mode path parts = .ok target) :
    target.location = start files.workingDirectory path ++ parts.filter isName := by
  obtain ⟨_, _, walks⟩ := exists_of_bind_eq_ok resolved
  exact location_of_walk plain straight walks

theorem placeOf_of_leadsTo (plain : files.Plain) {path : String} (straight : Straight path)
    (leads : files.LeadsTo path location) : location = placeOf files.workingDirectory path := by
  obtain ⟨target, resolved, rfl⟩ := leads.target
  rw [location_of_resolve plain (not_mem_partsAndSlash straight) resolved,
    filter_isName_partsAndSlash, placeOf]

theorem placeOf_of_resolve_stay (plain : files.Plain) {path : String} (straight : Straight path)
    {target : PathTarget} (resolved : files.resolve .stay path (parts path) = .ok target) :
    target.location = placeOf files.workingDirectory path := by
  rw [location_of_resolve plain (not_mem_parts straight) resolved, filter_isName_parts, placeOf]

/-- At a path that ends with a step upwards no file can be created. -/
theorem not_leadsTo_of_up (rooted : files.Rooted) {path : String} {before tail : List Char}
    (ends : Path.Ends path.toList before ['.', '.'] tail) : ¬files.LeadsTo path location := by
  intro leads
  obtain ⟨target, resolved, rfl⟩ := leads.target
  obtain ⟨blanks, parts, blank⟩ := partsAndSlash_of_ends ends
  obtain ⟨_, _, walks⟩ := exists_of_bind_eq_ok resolved
  rw [parts] at walks
  exact leads.notDirectory (directory_of_walk_up rooted blank (entry?_start rooted.working _) walks)

theorem mem_entries {entry : FileEntry} (there : files.entry? location = some entry)
    (inside : location ≠ []) : (location, entry) ∈ files.entries := by
  rw [entry?_of_ne_nil inside, List.lookup_eq_some_iff] at there
  obtain ⟨before, after, entries, _⟩ := there
  simp [entries]

theorem directory_of_working {home : Location} {entry : FileEntry}
    (there : entry? (ofWorkingDirectory home) location = some entry) :
    entry = .directory ∧ location <+: home := by
  by_cases root : location = []
  · subst root
    cases there
    exact ⟨rfl, List.nil_prefix⟩
  · obtain ⟨n, _, same⟩ := List.mem_map.mp (mem_entries there root)
    cases same
    exact ⟨rfl, List.take_prefix _ _⟩

theorem entry?_ofWorkingDirectory {home : Location} (inside : location <+: home) :
    entry? (ofWorkingDirectory home) location = some .directory := by
  by_cases root : location = []
  · rw [root]
    rfl
  · obtain ⟨n, short⟩ := Nat.exists_eq_add_one_of_ne_zero (mt List.length_eq_zero_iff.mp root)
    have there : (location, .directory) ∈ (ofWorkingDirectory home).entries := by
      refine List.mem_map.mpr ⟨n, List.mem_range.mpr ?_, ?_⟩
      · exact Nat.lt_of_succ_le (short.symm.trans_le inside.length_le)
      · rw [← short, ← List.prefix_iff_eq_take.mp inside]
    obtain ⟨entry, here⟩ := Option.ne_none_iff_exists'.mp (entry?_ne_none_of_mem there)
    rw [here, (directory_of_working here).1]

/-- A file system in which nothing but a working directory stands is plain. -/
theorem plain_ofWorkingDirectory (home : Location) : (ofWorkingDirectory home).Plain where
  working := entry?_ofWorkingDirectory List.prefix_rfl
  above location name there := by
    obtain ⟨entry, here⟩ := Option.ne_none_iff_exists'.mp there
    exact entry?_ofWorkingDirectory ((List.prefix_append _ _).trans (directory_of_working here).2)
  kinds location entry there := .inl (directory_of_working there).1

/-! Directories that are made. -/

theorem startsWith_slash_iff (path : String) :
    path.startsWith "/" = true ↔ path.toList.head? = some '/' := by
  rw [String.startsWith_string_iff]
  cases path.toList <;> simp [eq_comm]

theorem endsWith_slash_iff (path : String) :
    path.endsWith "/" = true ↔ ['/'] <:+ path.toList := by
  rw [String.endsWith_eq_endsWith_toSlice, String.Slice.endsWith_string_iff, String.copy_toSlice]
  exact Iff.rfl

theorem start_eq (directory : Location) (path : String) :
    start directory path = if path.toList.head? = some '/' then [] else directory := by
  simp only [start, startsWith_slash_iff]

theorem start_of_ends {path : String} {before part tail : List Char}
    (ends : Path.Ends path.toList before part tail) (location : Location) :
    start location path = start location (String.ofList before) := by
  rw [start_eq, start_eq, String.toList_ofList]
  simp only [ends.head?_eq_slash_iff]

/-- The place of the last part of a path is in that of the text before it. -/
theorem placeOf_of_ends (home : Location) {path : String} {before part tail : List Char}
    (ends : Path.Ends path.toList before part tail) :
    placeOf home path = placeOf home (String.ofList before) ++ [String.ofList part] := by
  rw [placeOf, placeOf, start_of_ends ends, String.toList_ofList, ends.names_eq, List.map_append,
    List.append_assoc]
  rfl

/-- The place of a parent is above that of the path. -/
theorem placeOf_parent (home : Location) {path parent : String}
    (given : Path.parent? path = some parent) (some : parent ≠ "") (straight : Straight path) :
    Straight parent ∧ ∃ last, placeOf home path = placeOf home parent ++ [last] := by
  obtain ⟨begins, part, names⟩ := (Path.parent_cases given).resolve_left some
  rw [Straight, names, List.mem_append, not_or] at straight
  refine ⟨straight.1, String.ofList part, ?_⟩
  rw [placeOf, placeOf, start_eq, start_eq, begins, names, List.map_append, List.append_assoc]
  rfl

/-- Files that have more directories at most, all of them at places on the way to one place. -/
structure Adds (upTo : Location) (files others : FileSystem) : Prop where
  plain : others.Plain
  workingDirectory : others.workingDirectory = files.workingDirectory
  entries : ∀ location, others.entry? location = files.entry? location ∨
    location <+: upTo ∧ files.entry? location = none ∧ others.entry? location = some .directory

namespace Adds

variable {upTo : Location} {later : FileSystem}

theorem of_sameBut (plain : files.Plain) (same : SameBut (fun _ => False) files others) :
    Adds upTo files others where
  plain := plain.of_sameBut same
  workingDirectory := same.workingDirectory
  entries location := .inl (same.entries location not_false)

theorem trans (first : Adds upTo files others) (second : Adds upTo others later) :
    Adds upTo files later where
  plain := second.plain
  workingDirectory := second.workingDirectory.trans first.workingDirectory
  entries location := by
    rcases second.entries location with same | ⟨inside, free, made⟩
    · rw [same]
      exact first.entries location
    · rcases first.entries location with same | ⟨_, _, madeBefore⟩
      · exact .inr ⟨inside, same.symm.trans free, made⟩
      · rw [free] at madeBefore
        cases madeBefore

theorem makeDirectoryNow (plain : files.Plain) {path : String} (straight : Straight path)
    (above : placeOf files.workingDirectory path <+: upTo)
    (made : files.makeDirectoryNow path = .ok others) : Adds upTo files others := by
  obtain ⟨directory, name, resolved, rfl, rooted⟩ := plain.toRooted.makeDirectoryNow made
  have place := placeOf_of_resolve_stay plain straight resolved
  rw [PathTarget.location] at place
  have free := (isEnd_of_resolve plain.toRooted resolved).2
  have here : entry? (files.put (directory ++ [name]) .directory) (directory ++ [name]) =
      some .directory := entry?_put_self files (by simp) _
  refine ⟨⟨rooted, ?_⟩, rfl, ?_⟩
  · intro location entry there
    by_cases new : location = directory ++ [name]
    · rw [new, here] at there
      cases there
      exact .inl rfl
    · rw [entry?_put_of_ne new] at there
      exact plain.kinds location entry there
  · intro location
    by_cases new : location = directory ++ [name]
    · subst new
      exact .inr ⟨place ▸ above, free, here⟩
    · exact .inl (entry?_put_of_ne new _)

end Adds

theorem keptByMaking_adds (home upTo : Location) :
    KeptByMaking (fun path => Straight path ∧ placeOf home path <+: upTo)
      fun files others => files.workingDirectory = home → files.Plain → Adds upTo files others where
  refl files _ plain := .of_sameBut plain (.refl files)
  trans first second atHome plain :=
    have added := first atHome plain
    added.trans (second (added.workingDirectory.trans atHome) added.plain)
  step files path allowed atHome plain := by
    cases makes : files.makeDirectory path with
    | mk outcome others =>
        obtain ⟨before, faulted, ⟨_, _, rfl⟩ | ⟨_, made⟩⟩ := attempt_cases makes
        · exact .of_sameBut plain faulted
        · have unfaulted : Adds upTo files before := .of_sameBut plain faulted
          have above : placeOf before.workingDirectory path <+: upTo := by
            rw [unfaulted.workingDirectory, atHome]
            exact allowed.2
          exact unfaulted.trans (.makeDirectoryNow unfaulted.plain allowed.1 above made)
  above allowed given some := by
    obtain ⟨straight, last, same⟩ := placeOf_parent home given some allowed.1
    exact ⟨straight, .trans ⟨[last], same.symm⟩ allowed.2⟩

/-- The directories that are made for a straight path are at places on the way to its own. -/
theorem adds_makeDirectories (plain : files.Plain) {path : String} (straight : Straight path) :
    Adds (placeOf files.workingDirectory path) files (files.makeDirectories path).2 :=
  (keptByMaking_adds files.workingDirectory _).makeDirectories files
    (fun _ => ⟨straight, List.prefix_rfl⟩) rfl plain

end RobotRoutine.FileSystem
