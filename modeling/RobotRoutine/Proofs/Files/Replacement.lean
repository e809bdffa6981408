import RobotRoutine.Proofs.Files.Plain

/-!
A text that is written beside a path and renamed over it.

The text is read back at the path, whatever links stand on the way: the two paths share the
directory of their last names, and a link in the place of the file that was written leads on from
the path as it led from beside it.  Only where the way from beside leads by the entry that is
replaced does the way of the path no longer exist.
-/

namespace RobotRoutine.FileSystem

variable {files others left : FileSystem} {path beside text : String} {p q : WalkPoint}
  {bytes : ByteArray}

/-! Paths that end in a name. -/

theorem parts_ne_empty {part : String} (member : part ∈ parts path) : part ≠ "" := by
  rw [parts, List.mem_filter] at member
  simpa using member.2

theorem EndsBare.partsAndSlash_eq (bare : EndsBare path) : partsAndSlash path = parts path := by
  rw [partsAndSlash, bare.unslashed, if_neg Bool.false_ne_true, List.append_nil]

/-- Nothing stands behind the last name of a path that ends in it. -/
theorem EndsBare.parts_eq {before part tail : List Char} (bare : EndsBare path)
    (ends : Path.Ends path.toList before part tail) :
    parts path = parts (String.ofList before) ++ [String.ofList part] ∧ part ≠ ['.', '.'] := by
  obtain ⟨blanks, whole, blank⟩ := partsAndSlash_of_ends ends
  have named := bare.named
  rw [bare.partsAndSlash_eq] at whole
  rcases List.eq_nil_or_concat blanks with rfl | ⟨earlier, last, rfl⟩
  · refine ⟨whole, ?_⟩
    rintro rfl
    rw [endsInName, whole] at named
    simp at named
  · have closing : parts path =
        parts (String.ofList before) ++ String.ofList part :: earlier ++ [last] := by simp [whole]
    have inside : last ∈ parts path := by simp [whole]
    rw [endsInName, closing, List.getLast?_concat] at named
    rcases blank last (by simp) with rfl | rfl
    · exact absurd named (by decide)
    · exact absurd rfl (parts_ne_empty inside)

theorem EndsBare.exists_ends (bare : EndsBare path) :
    ∃ before part tail, Path.Ends path.toList before part tail := by
  rcases Path.ends_or_bare path with ends | nothing
  · exact ends
  · have blank := filter_isName_parts path
    have named := bare.named
    rw [Path.names_of_bare nothing, List.map_nil, List.filter_eq_nil_iff] at blank
    rw [endsInName] at named
    cases last : (parts path).getLast? with
    | none => simp [last] at named
    | some part =>
        have inside := List.mem_of_getLast? last
        have notName := blank part inside
        simp_all [isName, parts_ne_empty inside]

/-- A path that is nothing but a name. -/
structure Lone (name : String) : Prop where
  proper : Proper name
  slashless : name.toList.all (· != '/') = true
  unended : name.endsWith "/" = false
  printable : name.toList.contains (Char.ofNat 0) = false

namespace Lone

variable {name : String}

theorem ne_empty (lone : Lone name) : name ≠ "" := (not_or.mp lone.proper.named).2

theorem ends (lone : Lone name) : Path.Ends name.toList [] name.toList [] where
  whole := by simp
  leading := .inl rfl
  unslashed c member := bne_iff_ne.mp (List.all_eq_true.mp lone.slashless c member)
  counts := by
    have named := lone.proper.named
    simp only [← String.toList_inj, not_or] at named
    simpa [Path.counts] using named.symm
  blank := .nil

theorem parts_eq (lone : Lone name) : parts name = [name] := by
  rw [parts_eq_pieces, Path.pieces_of_unslashed lone.ends.unslashed lone.ends.part_ne_nil]
  simp

theorem bare (lone : Lone name) : EndsBare name where
  named := by
    have named := lone.proper.named
    rw [not_or] at named
    rw [endsInName, lone.parts_eq]
    simp [named.1, lone.proper.down]
  unslashed := lone.unended

theorem partsAndSlash_eq (lone : Lone name) : partsAndSlash name = [name] :=
  lone.bare.partsAndSlash_eq.trans lone.parts_eq

theorem checked (lone : Lone name) : checkPath name = .ok () := by
  have short : ¬pathLimit < name.utf8ByteSize := by
    have := lone.proper.short
    unfold nameLimit pathLimit at *
    omega
  rw [checkPath, lone.printable, if_neg Bool.false_ne_true, if_neg lone.ne_empty, if_neg short]

theorem checkParent (lone : Lone name) : files.checkParent name = .ok () := by
  rw [FileSystem.checkParent, resolve, lone.checked, lone.parts_eq]
  change ((files.walk .follow _ _ ["."]) >>= _) = _
  rw [walk_blanks (by simp)]
  rfl

theorem parent (lone : Lone name) : Path.parent? name = some "" := by
  rw [lone.ends.parent?, Path.trimBefore_nil]

end Lone

/-! The directory that two paths share but for their last names. -/

/-- What a path names lies in the directory to which all but its last part lead. -/
theorem exists_leads_of_stay {earlier : List String} {last : String}
    (shape : parts path = earlier ++ [last]) (named : ¬(last = "." ∨ last = ""))
    (down : last ≠ "..") {target : PathTarget}
    (resolved : files.resolve .stay path (parts path) = .ok target) :
    ∃ links directory,
      Leads files ⟨linkLimit, start files.workingDirectory path, earlier⟩ ⟨links, directory, []⟩ ∧
        Proper last ∧ target.location = directory ++ [last] := by
  obtain ⟨_, _, walks⟩ := exists_of_bind_eq_ok resolved
  rw [shape] at walks
  obtain ⟨links, directory, leads, ends⟩ := exists_leads_of_walk (List.cons_ne_nil _ _) walks
  exact ⟨links, directory, leads, location_of_walk_stay named down ends⟩

/-! Ways to a file. -/

/-- The way from a point ends at a file. -/
def Reaches (files : FileSystem) (point : WalkPoint) (bytes : ByteArray) : Prop :=
  ∃ links directory last, Leads files point ⟨links, directory, [last]⟩ ∧ Proper last ∧
    files.entry? (directory ++ [last]) = some (.file bytes)

/-- The point at which the way of a path begins. -/
def outset (files : FileSystem) (path : String) : WalkPoint :=
  ⟨linkLimit, start files.workingDirectory path, partsAndSlash path⟩

theorem walk_file {links : Nat} {directory : Location} {last : String} (proper : Proper last)
    (file : files.entry? (directory ++ [last]) = some (.file bytes)) :
    files.walk .follow links directory [last] = .ok (.entry (directory ++ [last])) := by
  rw [walk_name proper.named proper.down proper.short]
  simp [file]

theorem locate_of_reaches (checked : checkPath path = .ok ())
    (reaches : files.Reaches (files.outset path) bytes) :
    ∃ location, files.locate path = .ok location ∧
      files.entry? location = some (.file bytes) := by
  obtain ⟨links, directory, last, leads, proper, file⟩ := reaches
  have walks := (walk_follow_of_leads leads).trans (walk_file proper file)
  rw [outset, WalkPoint.walk] at walks
  refine ⟨directory ++ [last], ?_, file⟩
  rw [locate, resolve, checked]
  change (files.walk .follow _ _ _ >>= _) = _
  rw [walks]
  rfl

theorem pathExists_of_reaches (checked : checkPath path = .ok ())
    (reaches : files.Reaches (files.outset path) bytes) : files.pathExists path = true := by
  obtain ⟨location, located, _⟩ := locate_of_reaches checked reaches
  rw [pathExists, located]

theorem readText_of_reaches (checked : checkPath path = .ok ())
    (reaches : files.Reaches (files.outset path) text.toUTF8) :
    files.readText path = .ok text := by
  obtain ⟨location, located, file⟩ := locate_of_reaches checked reaches
  rw [readText, readBytes, located]
  simp only [bind, Except.bind, file, fromUTF8?_toUTF8]

/-! Renaming what leads to a file. -/

/-- Two entries of a directory to which a path leads: from the first one on the way goes to a file,
and the way by it does not lead by the second one. -/
structure Aside (files : FileSystem) (base : Location) (earlier : List String) (links : Nat)
    (directory : Location) (origin name : String) (bytes : ByteArray) : Prop where
  comes : Leads files ⟨linkLimit, base, earlier⟩ ⟨links, directory, []⟩
  properOrigin : Proper origin
  properName : Proper name
  notDirectory : files.entry? (directory ++ [origin]) ≠ some .directory
  reaches : files.Reaches ⟨links, directory, [origin]⟩ bytes
  off : directory ++ [name] ∉ files.trailFrom linkLimit base (earlier ++ [origin])

namespace Aside

variable {base directory : Location} {earlier : List String} {links : Nat} {origin name : String}

theorem comesBeside (aside : Aside files base earlier links directory origin name bytes) :
    Leads files ⟨linkLimit, base, earlier ++ [origin]⟩ ⟨links, directory, [origin]⟩ :=
  aside.comes.extend 0 [origin]

theorem ne_name_of_looks (aside : Aside files base earlier links directory origin name bytes)
    {location : Location} (leads : Leads files ⟨linkLimit, base, earlier ++ [origin]⟩ p)
    (looks : p.Looks location) : location ≠ directory ++ [name] := by
  rintro rfl
  exact aside.off (mem_trailFrom_of_leads leads looks)

/-- A way by the first entry to an end comes to that entry once. -/
theorem eq_of_looks (aside : Aside files base earlier links directory origin name bytes)
    {there : Location} {found : String} (ends : files.Ends q there found)
    (leads : Leads files ⟨links, directory, [origin]⟩ q) (looks : p.Looks (directory ++ [origin]))
    (behind : Leads files p q) : p = ⟨links, directory, [origin]⟩ := by
  obtain ⟨left, here, remaining⟩ := p
  obtain ⟨part, rest, rfl, _, same⟩ := looks
  obtain ⟨rfl, single⟩ := List.append_inj' same rfl
  obtain ⟨rfl, _⟩ := List.cons.inj single
  obtain ⟨rfl, rfl⟩ := visit_unique ends aside.properOrigin aside.notDirectory leads behind
  rfl

/-- On the way to the directory neither entry is looked at. -/
theorem comes_of_moved (aside : Aside files base earlier links directory origin name bytes)
    (moved : Moved files left (directory ++ [origin]) (directory ++ [name])) :
    Leads left ⟨linkLimit, base, earlier⟩ ⟨links, directory, []⟩ := by
  refine aside.comes.of_same ?_
  intro m next location leads step behind looks
  have looksToo : (m.extend 0 [origin]).Looks location := by
    obtain ⟨part, rest, same, proper, rfl⟩ := looks
    exact ⟨part, rest ++ [origin], by simp [WalkPoint.extend, same], proper, rfl⟩
  refine moved.rest location ?_ (aside.ne_name_of_looks (leads.extend 0 [origin]) looksToo)
  rintro rfl
  obtain ⟨last, there, found, goesOn, proper, file⟩ := aside.reaches
  have again : Leads files (m.extend 0 [origin]) ⟨links, directory, [origin]⟩ :=
    Leads.extend (behind.head step) 0 [origin]
  have once := aside.eq_of_looks ⟨rfl, rfl, proper, stops_of_file file⟩ goesOn looksToo
    (again.trans goesOn)
  obtain ⟨part, rest, same⟩ := step.exists_part
  simp [WalkPoint.extend, same] at once

/-- After the renaming the way by the second entry ends at the file. -/
theorem reaches_of_moved (aside : Aside files base earlier links directory origin name bytes)
    (moved : Moved files left (directory ++ [origin]) (directory ++ [name])) :
    left.Reaches ⟨linkLimit, base, earlier ++ [name]⟩ bytes := by
  have comes : Leads left ⟨linkLimit, base, earlier ++ [name]⟩ ⟨links, directory, [name]⟩ :=
    (aside.comes_of_moved moved).extend 0 [name]
  obtain ⟨last, there, found, leads, proper, file⟩ := aside.reaches
  rcases leads.cases_head with same | ⟨next, step, behind⟩
  · -- What was renamed is the file itself.
    cases same
    exact ⟨links, directory, name, comes, aside.properName, moved.arrived.trans file⟩
  · -- What was renamed is a link, which leads on from its new place.
    cases step with
    | blank isBlank => exact absurd isBlank aside.properOrigin.named
    | up => exact absurd rfl aside.properOrigin.down
    | enter _ isDirectory => exact absurd isDirectory aside.notDirectory
    | @follow fewer _ _ _ target _ link =>
        have goesOn : Leads left ⟨fewer, start directory target, partsAndSlash target ++ []⟩
            ⟨last, there, [found]⟩ := by
          refine Leads.of_same behind ?_
          intro m next location leadsToo step behindToo looks
          have walked := aside.comesBeside.trans (leadsToo.head (.follow aside.properOrigin link))
          refine moved.rest location ?_ (aside.ne_name_of_looks walked looks)
          rintro rfl
          have once := aside.eq_of_looks ⟨rfl, rfl, proper, stops_of_file file⟩ leads looks
            (behindToo.head step)
          have fewerLeft := leadsToo.links_le
          rw [once] at fewerLeft
          exact absurd fewerLeft (Nat.not_succ_le_self _)
        have reached : files.entry? (there ++ [found]) ≠ files.entry? (directory ++ [origin]) := by
          rw [file, link]
          simp
        have whole := aside.comesBeside.trans leads
        refine ⟨last, there, found, ?_, proper, ?_⟩
        · exact comes.trans (goesOn.head (.follow aside.properName (moved.arrived.trans link)))
        · rw [moved.rest _ (fun same => reached (same ▸ rfl))
            (aside.ne_name_of_looks whole ⟨found, [], rfl, proper, rfl⟩), file]

end Aside

/-! Writing beside a path. -/

/-- Files in which a path leads to a file that was written there. -/
structure WrittenAt (files others : FileSystem) (path : String) (bytes : ByteArray)
    (place : Location) : Prop where
  same : SameBut (· = place) files others
  stops : files.Stops place
  stands : others.entry? place = some (.file bytes)
  rooted : others.Rooted
  reaches : others.Reaches (others.outset path) bytes

theorem outset_of_sameBut {places : Location → Prop} (same : SameBut places files others)
    (path : String) : others.outset path = files.outset path := by
  rw [outset, outset, same.workingDirectory]

theorem WrittenAt.of_sameBut {place : Location} (written : WrittenAt files others path bytes place)
    (same : SameBut (fun _ => False) others left) : WrittenAt files left path bytes place where
  same := written.same.trans (same.mono fun _ => False.elim)
  stops := written.stops
  stands := (same.entries place not_false).trans written.stands
  rooted := written.rooted.of_sameBut same
  reaches := by
    obtain ⟨links, directory, last, leads, proper, file⟩ := written.reaches
    rw [outset_of_sameBut same]
    exact ⟨links, directory, last,
      leads.of_same fun _ _ location _ _ _ _ => same.entries location not_false, proper,
      (same.entries _ not_false).trans file⟩

/-- The way of a path at which a file can be created ends there. -/
theorem LeadsTo.exists_way {place : Location} (rooted : files.Rooted)
    (leadsTo : files.LeadsTo path place) :
    ∃ links directory last, Leads files (files.outset path) ⟨links, directory, [last]⟩ ∧
      Proper last ∧ place = directory ++ [last] ∧ files.Stops place := by
  obtain ⟨target, resolved, rfl⟩ := leadsTo.target
  obtain ⟨_, _, walks⟩ := exists_of_bind_eq_ok resolved
  obtain ⟨links, directory, last, leads, proper, found, notLink⟩ :=
    exists_last_of_walk rooted leadsTo.notDirectory (entry?_start rooted.working path) walks
  refine ⟨links, directory, last, leads, proper, found, leadsTo.notDirectory, ?_⟩
  rw [found]
  exact notLink (by simp)

theorem LeadsTo.checked {place : Location} (leadsTo : files.LeadsTo path place) :
    checkPath path = .ok () := by
  obtain ⟨target, resolved, _⟩ := leadsTo.target
  obtain ⟨_, checked, _⟩ := exists_of_bind_eq_ok resolved
  exact checked

/-- What is put at the place of a path, and nowhere else, is what the path then leads to. -/
theorem LeadsTo.reaches {place : Location} (rooted : files.Rooted)
    (leadsTo : files.LeadsTo path place) (same : SameBut (· = place) files others)
    (stands : others.entry? place = some (.file bytes)) :
    others.Reaches (others.outset path) bytes := by
  obtain ⟨links, directory, last, leads, proper, rfl, stops⟩ := leadsTo.exists_way rooted
  rw [outset_of_sameBut same]
  exact ⟨links, directory, last, leads.of_sameBut stops same, proper, stands⟩

theorem exists_writtenAt (rooted : files.Rooted) (some : text ≠ "")
    (writes : files.writeText path text = (.ok (), others)) :
    ∃ place, WrittenAt files others path text.toUTF8 place := by
  obtain ⟨before, faulted, wrote⟩ := wrote_writeText rooted some writes
  obtain ⟨place, leadsTo, same, stands, rootedAfter⟩ := wrote.stands rfl
  have rootedBefore := rooted.of_sameBut faulted
  obtain ⟨_, _, _, _, _, _, stops⟩ := leadsTo.exists_way rootedBefore
  refine ⟨place, (faulted.mono fun _ => False.elim).trans same, ?_, stands, rootedAfter,
    leadsTo.reaches rootedBefore same stands⟩
  rwa [Stops, ← faulted.entries _ not_false]

/-- What a path to a file names is no directory. -/
theorem notDirectory_of_reaches (reaches : files.Reaches (files.outset path) bytes)
    {target : PathTarget} (resolved : files.resolve .stay path (parts path) = .ok target) :
    files.entry? target.location ≠ some .directory := by
  intro there
  obtain ⟨_, _, walks⟩ := exists_of_bind_eq_ok resolved
  obtain ⟨left, leads⟩ := exists_leads_of_directory there walks
  have whole : Leads files (files.outset path) ⟨left, target.location, []⟩ := by
    rw [outset, partsAndSlash]
    refine (leads.extend 0 _).trans ?_
    split
    · exact .single (.blank (.inr rfl))
    · exact .refl
  obtain ⟨links, directory, last, leadsToo, proper, file⟩ := reaches
  have same := whole.eq_of_final final_nil leadsToo (final_of_last proper (stops_of_file file))
  simp at same

/-! Renaming over a path. -/

/-- Paths that differ in their last names only. -/
structure Siblings (beside path : String) (earlier : List String) (origin name : String) :
    Prop where
  partsBeside : parts beside = earlier ++ [origin]
  partsPath : parts path = earlier ++ [name]
  different : origin ≠ name
  named : ∀ last ∈ [origin, name], ¬(last = "." ∨ last = "") ∧ last ≠ ".."
  start : ∀ directory, start directory beside = start directory path

theorem named_of_ends {before part tail : List Char} (ends : Path.Ends path.toList before part tail)
    (notUp : part ≠ ['.', '.']) :
    ¬(String.ofList part = "." ∨ String.ofList part = "") ∧ String.ofList part ≠ ".." := by
  have counting := ends.counts
  simp only [Path.counts, Bool.and_eq_true, bne_iff_ne] at counting
  simp [← String.toList_inj, counting, notUp]

/-- A path with another extension that has a dot in it is a sibling. -/
theorem exists_siblings (extension : String) (dotted : '.' ∈ extension.toList)
    (unslashed : Path.Unslashed extension.toList) (bare : EndsBare path)
    (bareToo : EndsBare (Path.withExtension path extension)) :
    ∃ earlier origin name,
      Siblings (Path.withExtension path extension) path earlier origin name := by
  obtain ⟨before, part, tail, ends⟩ := bare.exists_ends
  obtain ⟨partsPath, notUp⟩ := bare.parts_eq ends
  obtain ⟨last, rest, endsToo, extended⟩ := Path.ends_withExtension ends notUp extension unslashed
  obtain ⟨partsBeside, notUpToo⟩ := bareToo.parts_eq endsToo
  refine ⟨_, _, _, partsBeside, partsPath, ?_, ?_, ?_⟩
  · rw [Ne, String.ofList_inj]
    exact extended.ne dotted notUp
  · simp only [List.forall_mem_cons]
    exact ⟨named_of_ends endsToo notUpToo, named_of_ends ends notUp, by simp⟩
  · intro directory
    rw [start_of_ends ends, start_of_ends endsToo]

theorem names_of_leads {earlier : List String} {last : String} {links : Nat} {directory : Location}
    (checked : checkPath path = .ok ()) (shape : parts path = earlier ++ [last])
    (leads : Leads files ⟨linkLimit, start files.workingDirectory path, earlier⟩
      ⟨links, directory, []⟩) (proper : Proper last) :
    files.Names path (directory ++ [last]) := by
  obtain ⟨target, walks, place⟩ := exists_walk_stay files links directory proper
  refine ⟨target, ?_, place⟩
  have whole : WalkPoint.walk files .stay (WalkPoint.extend _ 0 [last]) =
      WalkPoint.walk files .stay (WalkPoint.extend _ 0 [last]) :=
    walk_of_leads leads (not_or.mp proper.named).2
  rw [resolve, checked, shape]
  exact whole.trans walks

/-- On the way from beside a path stands a link, and the way leads by what the path names, which is
no directory. -/
def Entangled (files : FileSystem) (beside path : String) : Prop :=
  (∃ looked ∈ files.trail beside, ∃ target, files.entry? looked = some (.link target)) ∧
    ∃ location, files.Names path location ∧ location ∈ files.trail beside ∧
      files.entry? location ≠ some .directory

theorem trail_of_writtenAt {place : Location} (written : WrittenAt files others path bytes place) :
    others.trail path = files.trail path := by
  rw [trail, trail, trailFrom_of_sameBut written.stops (stops_of_file written.stands) written.same,
    written.same.workingDirectory]

/-- A link on the way from beside stood there before the file was written. -/
theorem linked_of_written {place : Location} {looked : Location} {target : String}
    (written : WrittenAt files others path bytes place) (member : looked ∈ others.trail path)
    (link : others.entry? looked = some (.link target)) :
    ∃ looked ∈ files.trail path, ∃ target, files.entry? looked = some (.link target) := by
  refine ⟨looked, trail_of_writtenAt written ▸ member, target, ?_⟩
  rw [← link]
  refine (written.same.entries looked ?_).symm
  rintro rfl
  rw [written.stands] at link
  cases link

/-- The way from beside does not lead by what is replaced. -/
theorem not_mem_trail {written : FileSystem} {place directory : Location} {earlier : List String}
    {origin name : String} {links : Nat} (siblings : Siblings beside path earlier origin name)
    (writtenAt : WrittenAt files written beside bytes place)
    (renamed : Renamed written beside path left)
    (leads : Leads written ⟨linkLimit, start written.workingDirectory path, earlier⟩
      ⟨links, directory, []⟩)
    (proper : Proper origin) (properName : Proper name)
    (moved : Moved written left (directory ++ [origin]) (directory ++ [name]))
    (notDirectory : written.entry? (directory ++ [origin]) ≠ some .directory)
    (apart : ¬files.Entangled beside path) : directory ++ [name] ∉ written.trail beside := by
  intro member
  have notOver : files.entry? (directory ++ [name]) ≠ some .directory := by
    by_cases here : directory ++ [name] = place
    · exact here ▸ writtenAt.stops.1
    · exact writtenAt.same.entries _ here ▸ moved.displaced
  have names : files.Names path (directory ++ [name]) := by
    have leadsBefore := leads.of_sameBut (stops_of_file writtenAt.stands) writtenAt.same.symm
    rw [writtenAt.same.workingDirectory] at leadsBefore
    exact names_of_leads renamed.checked siblings.partsPath leadsBefore properName
  have linkless : ∀ looked ∈ written.trail beside, ∀ target,
      written.entry? looked ≠ some (.link target) := fun looked inside target link =>
    apart ⟨linked_of_written writtenAt inside link, _, names, trail_of_writtenAt writtenAt ▸ member,
      notOver⟩
  rw [trail, renamed.origin.partsAndSlash_eq, siblings.partsBeside, siblings.start]
    at member linkless
  rcases mem_trailFrom_cases leads proper notDirectory linkless member with isDirectory | same
  · exact moved.displaced isDirectory
  · exact siblings.different (by simpa using same.symm)

/-- What is written beside a path and renamed over it is what the way of the path leads to. -/
theorem reaches_of_renamed {written : FileSystem} {place : Location} {earlier : List String}
    {origin name : String} (siblings : Siblings beside path earlier origin name)
    (writtenAt : WrittenAt files written beside bytes place)
    (renamed : Renamed written beside path left) (apart : ¬files.Entangled beside path) :
    left.Reaches (left.outset path) bytes := by
  obtain ⟨source, target, resolved, ⟨found, resolvedToo, rfl⟩, done⟩ := renamed.moved
  have notDirectory := notDirectory_of_reaches writtenAt.reaches resolved
  obtain ⟨namedOrigin, downOrigin⟩ := siblings.named origin (by simp)
  obtain ⟨namedName, downName⟩ := siblings.named name (by simp)
  obtain ⟨links, directory, leads, properOrigin, there⟩ :=
    exists_leads_of_stay siblings.partsBeside namedOrigin downOrigin resolved
  obtain ⟨linksToo, directoryToo, leadsToo, properName, thereToo⟩ :=
    exists_leads_of_stay siblings.partsPath namedName downName resolvedToo
  rw [siblings.start] at leads
  cases leads.eq_of_final final_nil leadsToo final_nil
  change source = _ at there
  rw [there, thereToo] at done
  rw [there] at notDirectory
  have moved := done.resolve_left fun same => siblings.different (by simpa using same.1)
  have begins : written.outset beside =
      ⟨linkLimit, start written.workingDirectory path, earlier ++ [origin]⟩ := by
    rw [outset, renamed.origin.partsAndSlash_eq, siblings.partsBeside, siblings.start]
  have reaches : written.Reaches ⟨links, directory, [origin]⟩ bytes := by
    obtain ⟨last, there, ending, leadsOn, proper, file⟩ := writtenAt.reaches
    rw [begins] at leadsOn
    exact ⟨last, there, ending, Leads.of_final (leads.extend 0 [origin]) leadsOn
      (final_of_last proper (stops_of_file file)), proper, file⟩
  have off := not_mem_trail siblings writtenAt renamed leads properOrigin properName moved
    notDirectory apart
  rw [trail, renamed.origin.partsAndSlash_eq, siblings.partsBeside, siblings.start] at off
  have aside : Aside written (start written.workingDirectory path) earlier links directory origin
      name bytes := ⟨leads, properOrigin, properName, notDirectory, reaches, off⟩
  have arrives := aside.reaches_of_moved moved
  rwa [← siblings.partsPath, ← renamed.destination.partsAndSlash_eq,
    ← moved.workingDirectory] at arrives

end RobotRoutine.FileSystem
