import Mathlib.Data.List.Induction
import RobotRoutine.Proofs.Files.Footprint

/-!
Files that stand in directories.

In a tree of files every entry stands in a directory, so nothing stands below what is none.  The
operations keep that.  A text that was written stands at the place where its path led, and what is
renamed, if it is no directory, stands at the target alone.
-/

namespace RobotRoutine

/-- The place of a target: that of its entry, or that of the free name. -/
def PathTarget.location : PathTarget → Location
  | .entry location => location
  | .free directory name => directory ++ [name]

namespace FileSystem

/-- Every entry stands in a directory. -/
structure Rooted (files : FileSystem) : Prop where
  working : files.entry? files.workingDirectory = some .directory
  above : ∀ location name, files.entry? (location ++ [name]) ≠ none →
    files.entry? location = some .directory

variable {files others : FileSystem} {location : Location}

theorem entry?_start (here : files.entry? location = some .directory) (path : String) :
    files.entry? (start location path) = some .directory := by
  unfold start
  split
  · rfl
  · exact here

namespace Rooted

theorem of_sameBut (rooted : files.Rooted) (same : SameBut (fun _ => False) files others) :
    others.Rooted where
  working := by
    rw [same.workingDirectory, same.entries _ not_false]
    exact rooted.working
  above location name some := by
    rw [same.entries _ not_false] at some ⊢
    exact rooted.above location name some

theorem dropLast (rooted : files.Rooted) (here : files.entry? location = some .directory) :
    files.entry? location.dropLast = some .directory := by
  rcases List.eq_nil_or_concat location with rfl | ⟨directory, name, rfl⟩
  · rfl
  · rw [List.concat_eq_append] at here ⊢
    rw [List.dropLast_concat]
    exact rooted.above directory name (by simp [here])

/-- Nothing stands below what is no directory. -/
theorem below (rooted : files.Rooted) (here : files.entry? location ≠ some .directory)
    (name : String) (more : List String) : files.entry? (location ++ name :: more) = none := by
  induction more using List.reverseRecOn with
  | nil => exact Classical.not_not.mp fun some => here (rooted.above location name some)
  | append_singleton more last inductionHypothesis =>
      apply Classical.not_not.mp
      intro some
      rw [← List.cons_append, ← List.append_assoc] at some
      rw [rooted.above _ last some] at inductionHypothesis
      cases inductionHypothesis

/-- An entry may be put where its parent is a directory, and nothing can then stand below it but
below a directory. -/
theorem put (rooted : files.Rooted) {directory : Location} {name : String} {entry : FileEntry}
    (parent : files.entry? directory = some .directory)
    (free : files.entry? (directory ++ [name]) ≠ some .directory) :
    (files.put (directory ++ [name]) entry).Rooted := by
  have kept (location : Location) (here : files.entry? location = some .directory) :
      entry? (files.put (directory ++ [name]) entry) location = some .directory := by
    rw [entry?_put_of_ne _ entry, here]
    rintro rfl
    exact free here
  constructor
  · exact kept _ rooted.working
  · intro location last some
    by_cases new : location ++ [last] = directory ++ [name]
    · obtain ⟨rfl, _⟩ := List.append_inj' new rfl
      exact kept _ parent
    · rw [entry?_put_of_ne new] at some
      exact kept _ (rooted.above location last some)

end Rooted

/-! Walking. -/

/-- The end of a walk: an entry, or a free name in a directory. -/
def IsEnd (files : FileSystem) : PathTarget → Prop
  | .entry location => files.entry? location ≠ none
  | .free directory name => files.entry? directory = some .directory ∧
      files.entry? (directory ++ [name]) = none

theorem isEnd_of_walk (rooted : files.Rooted) {mode : WalkMode} {links : Nat} {parts : List String}
    {target : PathTarget} (here : files.entry? location = some .directory)
    (walks : files.walk mode links location parts = .ok target) : files.IsEnd target := by
  fun_induction walk files mode links location parts with
  | case1 =>
      cases walks
      change files.entry? _ ≠ none
      rw [here]
      simp
  | case2 _ _ _ _ _ inductionHypothesis => exact inductionHypothesis here walks
  | case3 _ _ _ _ inductionHypothesis => exact inductionHypothesis (rooted.dropLast here) walks
  | case6 _ _ _ _ _ _ _ free =>
      cases walks
      exact ⟨here, free⟩
  | case8 _ _ _ _ _ _ _ _ _ directory inductionHypothesis =>
      exact inductionHypothesis directory walks
  | case9 _ _ _ _ _ _ _ _ _ _ entry _ =>
      cases walks
      change files.entry? _ ≠ none
      rw [entry]
      simp
  | case11 _ _ _ _ _ _ _ _ _ _ _ _ inductionHypothesis =>
      exact inductionHypothesis (entry?_start here _) walks
  | case12 _ _ _ _ _ _ _ _ _ _ entry _ =>
      cases walks
      change files.entry? _ ≠ none
      rw [entry]
      simp
  | _ => cases walks

theorem isEnd_of_resolve (rooted : files.Rooted) {mode : WalkMode} {path : String}
    {parts : List String} {target : PathTarget}
    (resolved : files.resolve mode path parts = .ok target) : files.IsEnd target := by
  obtain ⟨_, _, walks⟩ := exists_of_bind_eq_ok resolved
  exact isEnd_of_walk rooted (entry?_start rooted.working path) walks

/-- What is no directory has its place in one. -/
theorem Rooted.exists_parent (rooted : files.Rooted) (there : files.entry? location ≠ none)
    (notDirectory : files.entry? location ≠ some .directory) :
    ∃ directory name, location = directory ++ [name] ∧
      files.entry? directory = some .directory := by
  rcases List.eq_nil_or_concat location with rfl | ⟨directory, name, rfl⟩
  · exact absurd rfl notDirectory
  · rw [List.concat_eq_append] at there ⊢
    exact ⟨directory, name, rfl, rooted.above directory name there⟩

/-! Planned faults. -/

/-- An operation for which no fault was planned takes place in the same files. -/
theorem attempt_cases {operation : FileSystem → Except SystemError FileSystem}
    {outcome : Except SystemError Unit} (attempted : files.attempt operation = (outcome, others)) :
    ∃ before, SameBut (fun _ => False) files before ∧
      ((∃ error, outcome = .error error ∧ others = before) ∨
        outcome = .ok () ∧ operation before = .ok others) := by
  have faulted : SameBut (fun _ => False) files files.nextFault.2 := sameBut_nextFault files
  refine ⟨files.nextFault.2, faulted, ?_⟩
  unfold attempt at attempted
  split at attempted
  case h_1 next =>
    rw [next]
    cases attempted
    exact .inl ⟨_, rfl, rfl⟩
  case h_2 next =>
    rw [next]
    split at attempted
    case h_1 changed =>
      cases attempted
      exact .inr ⟨rfl, changed⟩
    case h_2 =>
      cases attempted
      exact .inl ⟨_, rfl, rfl⟩

/-! Directories. -/

theorem Rooted.makeDirectoryNow (rooted : files.Rooted) {path : String}
    (made : files.makeDirectoryNow path = .ok others) :
    ∃ directory name, files.resolve .stay path (parts path) = .ok (.free directory name) ∧
      others = files.put (directory ++ [name]) .directory ∧ others.Rooted := by
  unfold FileSystem.makeDirectoryNow at made
  split at made
  · obtain ⟨_, _, made⟩ := exists_of_bind_eq_ok made
    obtain ⟨_, _, made⟩ := exists_of_bind_eq_ok made
    cases made
  · obtain ⟨target, resolved, made⟩ := exists_of_bind_eq_ok made
    cases target with
    | entry location => cases made
    | free directory name =>
        cases made
        obtain ⟨parent, free⟩ := isEnd_of_resolve rooted resolved
        refine ⟨directory, name, resolved, rfl, rooted.put parent ?_⟩
        rw [free]
        simp

theorem keptByMaking_rooted :
    KeptByMaking (fun _ => True) fun files others => files.Rooted → others.Rooted where
  refl _ := id
  trans first second := second ∘ first
  step files path _ rooted := by
    cases makes : files.makeDirectory path with
    | mk outcome others =>
        obtain ⟨before, faulted, ⟨_, _, rfl⟩ | ⟨_, made⟩⟩ := attempt_cases makes
        · exact rooted.of_sameBut faulted
        · obtain ⟨_, _, _, _, rootedAfter⟩ := (rooted.of_sameBut faulted).makeDirectoryNow made
          exact rootedAfter
  above _ _ _ := trivial

theorem Rooted.makeDirectories (rooted : files.Rooted) (path : String) :
    (files.makeDirectories path).2.Rooted :=
  keptByMaking_rooted.makeDirectories files (fun _ => trivial) rooted

/-! Writing a text. -/

/-- A path at which a file can be created leads to a place that is no directory. -/
structure LeadsTo (files : FileSystem) (path : String) (location : Location) : Prop where
  target : ∃ target, files.resolve .create path (partsAndSlash path) = .ok target ∧
    target.location = location
  notDirectory : files.entry? location ≠ some .directory
  inside : location ≠ []

/-- Creating a file leaves it empty, but for the full device. -/
theorem createNow_cases (rooted : files.Rooted) {path : String} {handle : FileHandle}
    (created : files.createNow path = .ok (handle, others)) :
    ∃ location, handle = ⟨location, 0⟩ ∧ files.LeadsTo path location ∧
      (files.entry? location = some .fullDevice ∧ others = files ∨
        others = files.put location (.file ByteArray.empty) ∧ others.Rooted) := by
  obtain ⟨target, resolved, created⟩ := exists_of_bind_eq_ok created
  have isEnd := isEnd_of_resolve rooted resolved
  cases target with
  | free directory name =>
      obtain ⟨parent, free⟩ := isEnd
      cases created
      have notDirectory : files.entry? (directory ++ [name]) ≠ some .directory := by simp [free]
      exact ⟨_, rfl, ⟨⟨_, resolved, rfl⟩, notDirectory, by simp⟩,
        .inr ⟨rfl, rooted.put parent notDirectory⟩⟩
  | entry location =>
      dsimp only at created
      split at created
      case h_1 => cases created
      case h_2 full =>
        cases created
        refine ⟨_, rfl, ⟨⟨_, resolved, rfl⟩, by simp [full], ?_⟩, .inl ⟨full, rfl⟩⟩
        rintro rfl
        cases full
      case h_3 notDirectory _ =>
        cases created
        obtain ⟨directory, name, rfl, parent⟩ := rooted.exists_parent isEnd notDirectory
        exact ⟨_, rfl, ⟨⟨_, resolved, rfl⟩, notDirectory, by simp⟩,
          .inr ⟨rfl, rooted.put parent notDirectory⟩⟩

theorem create_cases (rooted : files.Rooted) {path : String}
    {outcome : Except SystemError FileHandle} (created : files.create path = (outcome, others)) :
    ∃ before, SameBut (fun _ => False) files before ∧
      ((∃ error, outcome = .error error ∧ others = before) ∨
        ∃ location, outcome = .ok ⟨location, 0⟩ ∧ before.LeadsTo path location ∧
          (before.entry? location = some .fullDevice ∧ others = before ∨
            others = before.put location (.file ByteArray.empty) ∧ others.Rooted)) := by
  have faulted : SameBut (fun _ => False) files files.nextFault.2 := sameBut_nextFault files
  refine ⟨files.nextFault.2, faulted, ?_⟩
  unfold create at created
  split at created
  case h_1 next =>
    rw [next]
    cases created
    exact .inl ⟨_, rfl, rfl⟩
  case h_2 next =>
    rw [next] at faulted ⊢
    split at created
    case h_1 made =>
      cases created
      obtain ⟨location, rfl, leads, ends⟩ := createNow_cases (rooted.of_sameBut faulted) made
      exact .inr ⟨location, rfl, leads, ends⟩
    case h_2 =>
      cases created
      exact .inl ⟨_, rfl, rfl⟩

/-- What is no directory may be replaced by an entry of any kind. -/
theorem Rooted.putOver (rooted : files.Rooted) (there : files.entry? location ≠ none)
    (notDirectory : files.entry? location ≠ some .directory) (entry : FileEntry) :
    (files.put location entry).Rooted := by
  obtain ⟨directory, name, rfl, parent⟩ := rooted.exists_parent there notDirectory
  exact rooted.put parent notDirectory

theorem overlay_empty (bytes : ByteArray) : overlay ByteArray.empty 0 bytes = bytes :=
  (overlay_size ByteArray.empty bytes).trans ByteArray.empty_append

/-- A write into an empty file that ends without an error has written everything. -/
theorem stands_of_write (rooted : files.Rooted) {bytes : ByteArray} (some : bytes.isEmpty = false)
    (empty : files.entry? location = .some (.file ByteArray.empty))
    (fine : (files.write ⟨location, 0⟩ bytes).error = none) :
    entry? (files.write ⟨location, 0⟩ bytes).files location = .some (.file bytes) ∧
      (files.write ⟨location, 0⟩ bytes).files.Rooted := by
  have faulted : SameBut (fun _ => False) files files.nextFault.2 := sameBut_nextFault files
  have inside : location ≠ [] := by
    rintro rfl
    cases empty
  unfold write at fine ⊢
  rw [if_neg (by simp [some]), if_neg (by simp [empty])] at fine ⊢
  split at fine
  case h_1 => cases fine
  case h_2 after next =>
    rw [next] at faulted
    have rootedAfter := rooted.of_sameBut faulted
    have emptyAfter : after.entry? location = .some (.file ByteArray.empty) :=
      (faulted.entries location not_false).trans empty
    simp only [store, emptyAfter, overlay_empty]
    exact ⟨entry?_put_self after inside _,
      rootedAfter.putOver (by simp [emptyAfter]) (by simp [emptyAfter]) _⟩

/-- A full device takes nothing. -/
theorem write_fullDevice {bytes : ByteArray} (full : files.entry? location = some .fullDevice)
    (some : bytes.isEmpty = false) :
    (files.write ⟨location, 0⟩ bytes).error = .some .noSpace := by
  rw [write, if_neg (by simp [some]), if_pos full]

theorem isEmpty_toUTF8 {text : String} (some : text ≠ "") : text.toUTF8.isEmpty = false := by
  rw [ByteArray.isEmpty, beq_eq_false_iff_ne]
  intro empty
  exact some (String.utf8ByteSize_eq_zero_iff.mp empty)

/-- Files in which a text was to be written at a path: if the path led to a place, nothing else has
changed, and if all went well, the text stands there. -/
structure Wrote (before : FileSystem) (path text : String) (outcome : Except SystemError Unit)
    (others : FileSystem) : Prop where
  same : SameBut (before.LeadsTo path) before others
  stands : outcome = .ok () → ∃ location, before.LeadsTo path location ∧
    SameBut (· = location) before others ∧
      others.entry? location = some (.file text.toUTF8) ∧ others.Rooted

theorem wrote_writeText (rooted : files.Rooted) {path text : String} (some : text ≠ "")
    {outcome : Except SystemError Unit} (written : files.writeText path text = (outcome, others)) :
    ∃ before, SameBut (fun _ => False) files before ∧ Wrote before path text outcome others := by
  cases creates : files.create path with
  | mk created after =>
      obtain ⟨before, faulted, ends⟩ := create_cases rooted creates
      refine ⟨before, faulted, ?_⟩
      rw [writeText, creates] at written
      rcases ends with ⟨error, rfl, rfl⟩ | ⟨location, rfl, leads, ends⟩
      · cases written
        exact ⟨.refl _, fun fine => by cases fine⟩
      · have made : SameBut (· = location) before after := by
          rcases ends with ⟨_, rfl⟩ | ⟨rfl, _⟩
          · exact .refl _
          · exact sameBut_put _ _ _
        have same := made.trans (sameBut_write after ⟨location, 0⟩ text.toUTF8).1
        have led (place : Location) (here : place = location) : before.LeadsTo path place :=
          here ▸ leads
        dsimp only at written
        split at written
        case h_1 =>
          cases written
          exact ⟨same.mono led, fun fine => by cases fine⟩
        case h_2 fine =>
          cases written
          refine ⟨same.mono led, fun _ => ⟨location, leads, same, ?_⟩⟩
          rcases ends with ⟨full, rfl⟩ | ⟨rfl, rootedAfter⟩
          · rw [write_fullDevice full (isEmpty_toUTF8 some)] at fine
            cases fine
          · exact stands_of_write rootedAfter (isEmpty_toUTF8 some)
              (entry?_put_self before leads.inside _) fine

/-! Renaming what is no directory. -/

/-- Files in which what stood at one location stands at another, and all else is as it was. -/
structure Moved (files others : FileSystem) (source target : Location) : Prop where
  workingDirectory : others.workingDirectory = files.workingDirectory
  different : source ≠ target
  displaced : files.entry? target ≠ some .directory
  arrived : others.entry? target = files.entry? source
  gone : others.entry? source = none
  rest : ∀ location, location ≠ source → location ≠ target →
    others.entry? location = files.entry? location

/-- What `move` makes of the location of an entry. -/
def movedTo (source target location : Location) : Location :=
  if source.isPrefixOf location then target ++ location.drop source.length else location

variable {source target : Location}

theorem entries_move (files : FileSystem) (source target : Location) :
    (files.move source target).entries =
      files.entries.map fun entry => (movedTo source target entry.1, entry.2) := by
  unfold move movedTo
  apply List.map_congr_left
  rintro ⟨location, entry⟩ _
  dsimp only
  split <;> rfl

theorem movedTo_self : movedTo source target source = target := by
  simp [movedTo]

theorem movedTo_of_ne {location : Location} (apart : source <+: location → location = source)
    (different : location ≠ source) : movedTo source target location = location := by
  rw [movedTo, if_neg]
  rw [List.isPrefixOf_iff_prefix]
  exact fun below => different (apart below)

theorem lookup_cons_of_ne {known : Location} (different : location ≠ known) {entry : FileEntry}
    {entries : List (Location × FileEntry)} :
    ((known, entry) :: entries).lookup location = entries.lookup location := by
  rw [List.lookup_cons, beq_false_of_ne different]

/-- Looking up an entry after a move, where nothing stood at the target or below the source. -/
theorem lookup_moved {entries : List (Location × FileEntry)} (different : source ≠ target)
    (free : ∀ entry ∈ entries, entry.1 ≠ target ∧ (source <+: entry.1 → entry.1 = source))
    (location : Location) :
    (entries.map fun entry => (movedTo source target entry.1, entry.2)).lookup location =
      if location = target then entries.lookup source
      else if location = source then none
      else entries.lookup location := by
  induction entries with
  | nil => simp
  | cons first rest inductionHypothesis =>
      obtain ⟨known, entry⟩ := first
      rw [List.forall_mem_cons] at free
      obtain ⟨⟨notTarget, apart⟩, freeRest⟩ := free
      rw [List.map_cons]
      dsimp only at notTarget apart ⊢
      by_cases here : known = source
      · subst here
        rw [movedTo_self]
        by_cases there : location = target
        · subst there
          rw [List.lookup_cons_self, if_pos rfl, List.lookup_cons_self]
        · rw [lookup_cons_of_ne there, inductionHypothesis freeRest, if_neg there, if_neg there]
          by_cases left : location = known
          · rw [if_pos left, if_pos left]
          · rw [if_neg left, if_neg left, lookup_cons_of_ne left]
      · rw [movedTo_of_ne apart here, lookup_cons_of_ne (Ne.symm here)]
        by_cases known' : location = known
        · subst known'
          rw [List.lookup_cons_self, if_neg notTarget, if_neg here, List.lookup_cons_self]
        · rw [lookup_cons_of_ne known', lookup_cons_of_ne known', inductionHypothesis freeRest]

theorem entry?_of_ne_nil (inside : location ≠ []) :
    files.entry? location = files.entries.lookup location := by
  cases location with
  | nil => exact absurd rfl inside
  | cons name rest => rfl

theorem entry?_ne_none_of_mem {entry : FileEntry} (member : (location, entry) ∈ files.entries) :
    files.entry? location ≠ none := by
  by_cases root : location = []
  · subst root
    exact Option.some_ne_none _
  · rw [entry?_of_ne_nil root, Ne, List.lookup_eq_none_iff]
    intro apart
    simpa using apart _ member

/-- Moving what has nothing below it to a location where nothing stands. -/
theorem moved_move (inside : source ≠ []) (insideToo : target ≠ []) (different : source ≠ target)
    (free : files.entry? target = none)
    (alone : ∀ entry ∈ files.entries, source <+: entry.1 → entry.1 = source) :
    Moved files (files.move source target) source target := by
  have looks (location : Location) (inside : location ≠ []) :
      entry? (files.move source target) location =
        if location = target then files.entries.lookup source
        else if location = source then none
        else files.entries.lookup location := by
    rw [entry?_of_ne_nil inside, entries_move]
    refine lookup_moved different (fun entry member => ⟨?_, alone entry member⟩) location
    rintro rfl
    exact entry?_ne_none_of_mem member free
  refine ⟨rfl, different, by simp [free], ?_, ?_, ?_⟩
  · rw [looks target insideToo, if_pos rfl, entry?_of_ne_nil inside]
  · rw [looks source inside, if_neg different, if_pos rfl]
  · intro location notSource notTarget
    by_cases root : location = []
    · subst root
      rfl
    · rw [looks location root, if_neg notTarget, if_neg notSource, entry?_of_ne_nil root]

theorem entry?_erase_self (inside : location ≠ []) :
    entry? (files.erase location) location = none := by
  rw [entry?_of_ne_nil inside, erase, List.lookup_eq_none_iff]
  intro entry member
  simpa [bne_iff_ne, ne_comm] using (List.mem_filter.mp member).2

theorem entry?_erase_of_ne {known : Location} (different : location ≠ known) :
    entry? (files.erase known) location = files.entry? location := by
  by_cases root : location = []
  · subst root
    rfl
  · rw [entry?_of_ne_nil root, entry?_of_ne_nil root, erase, lookup_filter_of_ne different]

theorem Rooted.alone (rooted : files.Rooted)
    (notDirectory : files.entry? source ≠ some .directory) :
    ∀ entry ∈ files.entries, source <+: entry.1 → entry.1 = source := by
  rintro ⟨location, entry⟩ member ⟨more, rfl⟩
  cases more with
  | nil => exact List.append_nil _
  | cons name more =>
      exact absurd (rooted.below notDirectory name more) (entry?_ne_none_of_mem member)

theorem Moved.of_erase (moved : Moved (files.erase target) others source target)
    (displaced : files.entry? target ≠ some .directory) : Moved files others source target where
  workingDirectory := moved.workingDirectory
  different := moved.different
  displaced := displaced
  arrived := moved.arrived.trans (entry?_erase_of_ne moved.different)
  gone := moved.gone
  rest location notSource notTarget :=
    (moved.rest location notSource notTarget).trans (entry?_erase_of_ne notTarget)

/-- What is no directory takes the place of nothing, or of something that is no directory either. -/
theorem moved_of_replace (rooted : files.Rooted)
    (notDirectory : files.entry? source ≠ some .directory)
    (replaced : files.replace source target (files.entry? target) = .ok others) :
    source = target ∧ others = files ∨ Moved files others source target := by
  have inside : source ≠ [] := by
    rintro rfl
    exact notDirectory rfl
  have alone := rooted.alone notDirectory
  unfold replace at replaced
  by_cases different : source = target
  · rw [if_pos different] at replaced
    cases replaced
    exact .inl ⟨different, rfl⟩
  · right
    simp only [if_neg different, notDirectory, decide_false, false_and, if_false] at replaced
    split at replaced
    case h_1 free =>
      cases replaced
      have insideToo : target ≠ [] := by
        rintro rfl
        cases free
      exact moved_move inside insideToo different free alone
    case h_2 => cases replaced
    case h_3 present notDirectoryToo there =>
      cases replaced
      have displaced : files.entry? target ≠ some .directory := by
        rw [there, Ne, Option.some.injEq]
        exact notDirectoryToo
      have insideToo : target ≠ [] := by
        rintro rfl
        exact displaced rfl
      exact (moved_move inside insideToo different (entry?_erase_self insideToo)
        fun entry member => alone entry (List.mem_of_mem_filter member)).of_erase displaced

/-- What a path names, the last link on its way not followed. -/
def Names (files : FileSystem) (path : String) (location : Location) : Prop :=
  ∃ target, files.resolve .stay path (parts path) = .ok target ∧ target.location = location

/-- A path that ends in a name with no slash behind it. -/
structure EndsBare (path : String) : Prop where
  named : endsInName path = true
  unslashed : path.endsWith "/" = false

/-- Files in which a path was renamed to another one. -/
structure Renamed (before : FileSystem) (path name : String) (others : FileSystem) : Prop where
  checked : checkPath name = .ok ()
  origin : EndsBare path
  destination : EndsBare name
  moved : ∃ source target, before.resolve .stay path (parts path) = .ok (.entry source) ∧
    before.Names name target ∧ (source = target ∧ others = before ∨
      Moved before others source target)

theorem renamed_of_renameNow (rooted : files.Rooted) {path name : String}
    (renamed : files.renameNow path name = .ok others)
    (file : ∀ location, files.resolve .stay path (parts path) = .ok (.entry location) →
      files.entry? location ≠ some .directory) :
    Renamed files path name others := by
  obtain ⟨_, _, renamed⟩ := exists_of_bind_eq_ok renamed
  obtain ⟨_, checked, renamed⟩ := exists_of_bind_eq_ok renamed
  obtain ⟨_, _, renamed⟩ := exists_of_bind_eq_ok renamed
  obtain ⟨_, _, renamed⟩ := exists_of_bind_eq_ok renamed
  split at renamed
  case isTrue => cases renamed
  case isFalse ends =>
    rw [Bool.or_eq_true, not_or, Bool.not_eq_true', Bool.not_eq_true', Bool.not_eq_false,
      Bool.not_eq_false] at ends
    obtain ⟨origin, resolved, renamed⟩ := exists_of_bind_eq_ok renamed
    cases origin with
    | free directory last => cases renamed
    | entry source =>
        have notDirectory := file source resolved
        simp only [notDirectory, decide_false, Bool.not_false, Bool.true_and] at renamed
        split at renamed
        case isTrue => cases renamed
        case isFalse slashes =>
          rw [Bool.or_eq_true, not_or, Bool.not_eq_true, Bool.not_eq_true] at slashes
          obtain ⟨target, resolvedToo, replaced⟩ := exists_of_bind_eq_ok renamed
          refine ⟨checked, ⟨ends.1, slashes.1⟩, ⟨ends.2, slashes.2⟩, source, target.location,
            resolved, ⟨target, resolvedToo, rfl⟩, ?_⟩
          have isEnd := isEnd_of_resolve rooted resolvedToo
          cases target with
          | free directory last =>
              rw [← isEnd.2] at replaced
              exact moved_of_replace rooted notDirectory replaced
          | entry location => exact moved_of_replace rooted notDirectory replaced

/-- Renaming what a path names is a replacement, if both paths end in a name. -/
theorem renameNow_eq_replace (rooted : files.Rooted) {path name : String} (bare : EndsBare path)
    (bareToo : EndsBare name) (checked : checkPath path = .ok ())
    (checkedToo : checkPath name = .ok ()) (above : files.checkParent path = .ok ())
    (aboveToo : files.checkParent name = .ok ())
    {found : PathTarget} (resolved : files.resolve .stay path (parts path) = .ok (.entry source))
    (resolvedToo : files.resolve .stay name (parts name) = .ok found) :
    files.renameNow path name =
      files.replace source found.location (files.entry? found.location) := by
  have isEnd := isEnd_of_resolve rooted resolvedToo
  simp only [renameNow, checked, checkedToo, above, aboveToo, bare.named, bareToo.named,
    bare.unslashed, bareToo.unslashed, resolved, resolvedToo, bind, Except.bind, Bool.not_true,
    Bool.or_self, Bool.and_false]
  cases found with
  | free directory last =>
      rw [PathTarget.location, isEnd.2]
      rfl
  | entry location => rfl

end FileSystem

end RobotRoutine
