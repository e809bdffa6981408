import RobotRoutine.Proofs.Files.Replacement
import RobotRoutine.Proofs.Settings.Format
import RobotRoutine.Proofs.Settings.Store

/-!
Settings that were stored are loaded again.

What is read of a settings file is what was written of the settings, and the temporary file takes
the place of the settings file in a way that the path leads to it.  Where a link leads from the
temporary path by the settings file itself, storing succeeds and the settings are lost.
-/

namespace RobotRoutine.SettingsFile

open FileSystem (EndsBare Reaches)

variable {path text : String} {settings : Settings} {files left : FileSystem} {world : World}

/-! Loading. -/

theorem load_of_readText (there : world.host.files.pathExists path = true)
    (reads : world.host.files.readText path = .ok text) (parses : parse path text = .ok settings) :
    ((load path).exec World.answer world).1 = .value settings := by
  have looked := Task.exec_pathExists (ε := Failure) path world
  have given := Task.exec_readText s!"read {path}" path (world.withFiles world.host.files)
  have readsToo : (world.withFiles world.host.files).host.files.readText path = .ok text := reads
  rw [there] at looked
  rw [readsToo] at given
  have goesOn : (load path).exec World.answer world =
      ((Task.readText s!"read {path}" path).bind fun text =>
        Task.ofExcept (parse path text)).exec World.answer (world.withFiles world.host.files) :=
    Task.exec_bind_value looked
  rw [goesOn, Task.exec_bind_value given, parses]
  rfl

/-- Without a settings file the initial settings are loaded. -/
theorem load_of_absent (absent : world.host.files.pathExists path = false) :
    ((load path).exec World.answer world).1 = .value Settings.initial := by
  have looked := Task.exec_pathExists (ε := Failure) path world
  have valid : Settings.initial.validate = .ok () := by decide +kernel
  rw [absent] at looked
  have goesOn : (load path).exec World.answer world =
      (Task.ofExcept (validated Settings.initial)).exec World.answer
        (world.withFiles world.host.files) :=
    Task.exec_bind_value looked
  rw [goesOn, validated, valid]
  rfl

theorem parse_write (valid : settings.validate = .ok ()) :
    parse path (write settings) = .ok settings := by
  rw [parse, read_write valid]
  simp only [validated, valid]

/-! Storing and loading. -/

/-- Storing has one course. -/
theorem Stores.eq_of_replaced {others : FileSystem} {outcome : Outcome Failure Unit}
    (stores : Stores path settings files outcome left)
    (replaced : Stores path settings files (.value ()) others) :
    outcome = .value () ∧ left = others := by
  cases replaced with
  | replaced => cases stores <;> simp_all

/-- The files among which the temporary file is written. -/
def prepared (path : String) (files : FileSystem) : FileSystem :=
  (files.makeDirectories ((Path.parent? path).getD "")).2

theorem reaches_of_stores (rooted : files.Rooted)
    (apart : ¬(prepared path files).Entangled (temporaryPath path) path)
    (stores : Stores path settings files (.value ()) left) :
    settings.validate = .ok () ∧ FileSystem.checkPath path = .ok () ∧
      left.Reaches (left.outset path) (write settings).toUTF8 := by
  cases stores with
  | @replaced parent made written left valid given makes writes renames =>
      rw [prepared, given, Option.getD_some, makes] at apart
      have rootedMade : made.Rooted := by
        have same := rooted.makeDirectories parent
        rwa [makes] at same
      obtain ⟨place, writtenAt⟩ :=
        FileSystem.exists_writtenAt rootedMade (write_ne_empty settings) writes
      obtain ⟨before, faulted, ⟨_, impossible, _⟩ | ⟨_, renamed⟩⟩ :=
        FileSystem.attempt_cases renames
      · cases impossible
      · have unfaulted := writtenAt.of_sameBut faulted
        have done := FileSystem.renamed_of_renameNow unfaulted.rooted renamed
          fun _ resolved => FileSystem.notDirectory_of_reaches unfaulted.reaches resolved
        obtain ⟨earlier, origin, name, siblings⟩ :=
          FileSystem.exists_siblings "toml.tmp" (by decide) unslashed_extension
            done.destination done.origin
        exact ⟨valid, done.checked,
          FileSystem.reaches_of_renamed siblings unfaulted done apart⟩

theorem load_of_stores (rooted : files.Rooted)
    (apart : ¬(prepared path files).Entangled (temporaryPath path) path)
    (stores : Stores path settings files (.value ()) world.host.files) :
    ((load path).exec World.answer world).1 = .value settings := by
  obtain ⟨valid, checked, reaches⟩ := reaches_of_stores rooted apart stores
  exact load_of_readText (FileSystem.pathExists_of_reaches checked reaches)
    (FileSystem.readText_of_reaches checked reaches) (parse_write valid)

/-- Among directories and files settings that were stored are loaded again. -/
theorem load_of_store_linkless (world : World) (rooted : world.host.files.Rooted)
    (linkless : ∀ location target, world.host.files.entry? location ≠ some (.link target))
    (stored : ((store path settings).exec World.answer world).1 = .value ()) :
    ((load path).exec World.answer ((store path settings).exec World.answer world).2).1 =
      .value settings := by
  refine load_of_stores rooted ?_ (stores_of_exec (Prod.ext stored rfl))
  rintro ⟨⟨looked, _, target, link⟩, _⟩
  have grown := FileSystem.grows_makeDirectories world.host.files ((Path.parent? path).getD "")
  rcases grown.entries looked with same | ⟨_, made⟩
  · exact linkless looked target (same.symm.trans link)
  · cases made.symm.trans link

/-- Settings that were stored are loaded again, unless a link leads from the temporary path by the
settings file. -/
theorem load_of_store (world : World) (rooted : world.host.files.Rooted)
    (apart : ¬(prepared path world.host.files).Entangled (temporaryPath path) path)
    (stored : ((store path settings).exec World.answer world).1 = .value ()) :
    ((load path).exec World.answer ((store path settings).exec World.answer world).2).1 =
      .value settings :=
  load_of_stores rooted apart (stores_of_exec (Prod.ext stored rfl))

/-! The temporary path is a link to a file beside it. -/

open FileSystem (Lone entry? linkLimit partsAndSlash)

/-- Nothing but a link at the root. -/
def withLink (beside target : String) : FileSystem := ⟨[([beside], .link target)], [], []⟩

/-- The same files when a text was written by way of the link. -/
def withFile (beside target text : String) : FileSystem :=
  ⟨[([target], .file text.toUTF8), ([beside], .link target)], [], []⟩

variable {name beside target : String} {location : Location}

theorem entry?_withLink :
    entry? (withLink beside target) location =
      if location = [] then some .directory
      else if location = [beside] then some (.link target) else none := by
  cases location with
  | nil => rfl
  | cons first rest =>
      rw [FileSystem.entry?_of_ne_nil (List.cons_ne_nil _ _), if_neg (List.cons_ne_nil _ _),
        withLink, List.lookup_cons, List.lookup_nil]
      by_cases here : first :: rest = [beside]
      · simp [here]
      · rw [if_neg here, beq_false_of_ne here]

theorem rooted_withLink (beside target : String) : (withLink beside target).Rooted where
  working := rfl
  above location last there := by
    rw [entry?_withLink] at there
    cases location with
    | nil => rfl
    | cons first rest => simp at there

theorem start_root (path : String) : FileSystem.start [] path = [] := ite_self []

theorem createNow_withLink (lone : Lone beside) (loneTarget : Lone target)
    (other : target ≠ beside) :
    (withLink beside target).createNow beside =
      .ok (⟨[target], 0⟩, withFile beside target "") := by
  have free : entry? (withLink beside target) ([] ++ [target]) = none := by
    simp [entry?_withLink, other]
  have link : entry? (withLink beside target) ([] ++ [beside]) = some (.link target) := by
    simp [entry?_withLink]
  have walks : (withLink beside target).walk .create linkLimit [] [beside] =
      .ok (.free [] target) := by
    rw [linkLimit, FileSystem.walk_link lone.proper (by simp) (by simp) link,
      loneTarget.partsAndSlash_eq, start_root, List.append_nil, FileSystem.walk,
      if_neg loneTarget.proper.named, if_neg loneTarget.proper.down, if_neg (by simp),
      if_neg loneTarget.proper.short]
    simp only [free, if_true]
  rw [FileSystem.createNow, FileSystem.resolve_root lone.checked rfl, lone.partsAndSlash_eq, walks]
  simp only [bind, Except.bind]
  simp [FileSystem.put, FileSystem.erase, withLink, withFile, other.symm]

theorem writeText_withLink (lone : Lone beside) (loneTarget : Lone target)
    (other : target ≠ beside) (some : text ≠ "") :
    (withLink beside target).writeText beside text = (.ok (), withFile beside target text) := by
  have creates : (withLink beside target).create beside =
      (.ok ⟨[target], 0⟩, withFile beside target "") := by
    have faultless : (withLink beside target).nextFault = (none, withLink beside target) := rfl
    simp only [FileSystem.create, faultless, createNow_withLink lone loneTarget other]
  have here : entry? (withFile beside target "") [target] = .some (.file ByteArray.empty) := by
    simp [withFile, FileSystem.entry?]
  have written : (withFile beside target "").write ⟨[target], 0⟩ text.toUTF8 =
      ⟨text.toUTF8.size, none, ⟨[target], text.toUTF8.size⟩, withFile beside target text⟩ := by
    have faultless : (withFile beside target "").nextFault =
        (none, withFile beside target "") := rfl
    have filled : text.toUTF8.isEmpty ≠ true :=
      Bool.eq_false_iff.mp (FileSystem.isEmpty_toUTF8 some)
    rw [FileSystem.write, if_neg filled, if_neg (by simp [here])]
    simp only [faultless, FileSystem.store, here, FileSystem.overlay_empty]
    simp [FileSystem.put, FileSystem.erase, withFile, other.symm]
  rw [FileSystem.writeText, creates]
  simp only [written]

theorem link_withFile (text : String) (other : target ≠ beside) :
    entry? (withFile beside target text) [beside] = some (.link target) := by
  simp only [withFile, FileSystem.entry?]
  rw [FileSystem.lookup_cons_of_ne (by simpa using other.symm), List.lookup_cons_self]

theorem exists_replace_withFile (text : String) (other : target ≠ beside) (apart : beside ≠ name) :
    ∃ left, (withFile beside target text).replace [beside] [name]
      ( entry? (withFile beside target text) [name]) = .ok left := by
  have link := link_withFile text other
  unfold FileSystem.replace
  rw [if_neg (by simpa using apart), if_neg (by simp [link])]
  by_cases same : target = name
  · have there : entry? (withFile beside target text) [name] = some (.file text.toUTF8) := by
      simp [withFile, FileSystem.entry?, same]
    simp only [there, link]
    exact ⟨_, if_neg (by simp)⟩
  · have free : entry? (withFile beside target text) [name] = none := by
      simp only [withFile, FileSystem.entry?]
      rw [FileSystem.lookup_cons_of_ne (by simpa using Ne.symm same),
        FileSystem.lookup_cons_of_ne (by simpa using apart.symm), List.lookup_nil]
    simp only [free]
    exact ⟨_, rfl⟩

/-- The link takes the place of what it is renamed over. -/
theorem exists_renameNow_withFile (rooted : (withFile beside target text).Rooted)
    (lone : Lone beside) (loneName : Lone name) (other : target ≠ beside) (apart : beside ≠ name) :
    ∃ left, (withFile beside target text).renameNow beside name = .ok left ∧
      left.workingDirectory = [] ∧ entry? left [name] = some (.link target) := by
  have link := link_withFile text other
  obtain ⟨found, walks, place⟩ := FileSystem.exists_walk_stay (withFile beside target text)
    linkLimit [] loneName.proper
  obtain ⟨origin, walksToo, placeToo⟩ := FileSystem.exists_walk_stay (withFile beside target text)
    linkLimit [] lone.proper
  have here : origin = .entry [beside] := by
    cases origin with
    | entry location => exact congrArg PathTarget.entry placeToo
    | free directory last =>
        have nothing := FileSystem.entry?_of_walk walksToo
        change directory ++ [last] = _ at placeToo
        rw [placeToo, List.nil_append, link] at nothing
        cases nothing
  subst here
  have resolved : (withFile beside target text).resolve .stay beside (FileSystem.parts beside) =
      .ok (.entry [beside]) := by
    rw [FileSystem.resolve_root lone.checked rfl, lone.parts_eq, walksToo]
  have resolvedToo : (withFile beside target text).resolve .stay name (FileSystem.parts name) =
      .ok found := by
    rw [FileSystem.resolve_root loneName.checked rfl, loneName.parts_eq, walks]
  obtain ⟨left, replaced⟩ := exists_replace_withFile text other apart
  refine ⟨left, ?_, ?_⟩
  · rw [FileSystem.renameNow_eq_replace rooted lone.bare loneName.bare lone.checked
      loneName.checked lone.checkParent loneName.checkParent resolved resolvedToo, place]
    exact replaced
  · obtain ⟨same, _⟩ | moved := FileSystem.moved_of_replace rooted (by simp [link]) replaced
    · exact absurd (List.cons.inj same).1 apart
    · exact ⟨moved.workingDirectory, moved.arrived.trans link⟩

/-- Storing by way of a link succeeds and leaves the link in the place of the settings file. -/
theorem store_withLink (valid : settings.validate = .ok ()) (loneName : Lone name)
    (lone : Lone (temporaryPath name)) (loneTarget : Lone target)
    (other : target ≠ temporaryPath name) (apart : temporaryPath name ≠ name) :
    let files := withLink (temporaryPath name) target
    let stored := (store name settings).exec World.answer (.ofFiles files "")
    stored.1 = .value () ∧ stored.2.host.files.workingDirectory = [] ∧
      entry? stored.2.host.files [name] = some (.link target) := by
  intro files stored
  have writes := writeText_withLink lone loneTarget other (write_ne_empty settings)
  obtain ⟨place, writtenAt⟩ :=
    FileSystem.exists_writtenAt (rooted_withLink _ _) (write_ne_empty settings) writes
  obtain ⟨left, renamed, home, arrived⟩ :=
    exists_renameNow_withFile writtenAt.rooted lone loneName other apart
  have renames : (withFile (temporaryPath name) target (write settings)).rename
      (temporaryPath name) name = (.ok (), left) := by
    have faultless : (withFile (temporaryPath name) target (write settings)).nextFault =
        (none, withFile (temporaryPath name) target (write settings)) := rfl
    simp only [FileSystem.rename, FileSystem.attempt, faultless, renamed]
  have replaced : Stores name settings files (.value ()) left :=
    .replaced valid loneName.parent (makeDirectories_empty _) writes renames
  have stores : Stores name settings (World.ofFiles files "").host.files stored.1
      stored.2.host.files := stores_of_exec rfl
  obtain ⟨ends, same⟩ := stores.eq_of_replaced replaced
  exact ⟨ends, same ▸ home, same ▸ arrived⟩

theorem trail_withLink (lone : Lone beside) (loneTarget : Lone target) (other : target ≠ beside) :
    (withLink beside target).trail beside = [[beside], [target]] := by
  have goesOn : (withLink beside target).trailFrom 39 [] [target] = [[target]] :=
    FileSystem.trailFrom_of_stops loneTarget.proper
      (.of_entry entry?_withLink (by simp [other]) (by simp [other]))
  have link : entry? (withLink beside target) [beside] = some (.link target) := by
    simp [entry?_withLink]
  rw [FileSystem.trail, lone.partsAndSlash_eq]
  change FileSystem.trailFrom _ _ (FileSystem.start [] _) _ = _
  rw [start_root, FileSystem.trailFrom, if_neg lone.proper.named, if_neg lone.proper.down,
    if_neg lone.proper.short]
  simp only [link, linkLimit, start_root, loneTarget.partsAndSlash_eq, List.append_nil, goesOn,
    List.nil_append]

/-- A link to another file does not lead by the settings file. -/
theorem not_entangled_withLink (loneName : Lone name) (lone : Lone (temporaryPath name))
    (loneTarget : Lone target) (other : target ≠ temporaryPath name)
    (apart : temporaryPath name ≠ name) (different : target ≠ name) :
    ¬(prepared name (withLink (temporaryPath name) target)).Entangled
      (temporaryPath name) name := by
  rw [prepared, loneName.parent, Option.getD_some, makeDirectories_empty]
  rintro ⟨_, location, ⟨found, resolved, rfl⟩, member, _⟩
  rw [FileSystem.resolve_root loneName.checked rfl, loneName.parts_eq] at resolved
  obtain ⟨_, place⟩ :=
    FileSystem.location_of_walk_stay loneName.proper.named loneName.proper.down resolved
  rw [trail_withLink lone loneTarget other, place] at member
  simp [different.symm, apart.symm] at member

theorem walk_linkToItself (lone : Lone name) {links : Nat}
    (link : files.entry? [name] = some (.link name)) :
    files.walk .follow links [] [name] = .error .tooManyLinks := by
  induction links with
  | zero =>
      rw [FileSystem.walk_name lone.proper.named lone.proper.down lone.proper.short,
        List.nil_append, link]
  | succ links inductionHypothesis =>
      rw [FileSystem.walk_link lone.proper (by simp) (by simp) link, lone.partsAndSlash_eq,
        start_root]
      exact inductionHypothesis

/-- By way of a link to the settings file itself storing succeeds, and what was stored cannot be
loaded. -/
theorem lost_of_store_withLink (valid : settings.validate = .ok ()) (loneName : Lone name)
    (lone : Lone (temporaryPath name)) (apart : temporaryPath name ≠ name) :
    let files := withLink (temporaryPath name) name
    let stored := (store name settings).exec World.answer (.ofFiles files "")
    stored.1 = .value () ∧
      ((load name).exec World.answer stored.2).1 = .value Settings.initial := by
  intro files stored
  obtain ⟨ends, home, link⟩ := store_withLink valid loneName lone loneName apart.symm apart
  refine ⟨ends, load_of_absent ?_⟩
  rw [FileSystem.pathExists, FileSystem.locate, FileSystem.resolve_root loneName.checked home,
    loneName.partsAndSlash_eq, walk_linkToItself loneName link]
  rfl

/-! Settings of another drive. -/

def armSettings : Settings :=
  { Settings.initial with drive := { DriveSettings.initial with channel := "arm" } }

theorem validate_arm : armSettings.validate = .ok () := by
  decide +kernel

theorem temporaryPath_settings : temporaryPath "s.toml" = "s.toml.tmp" := by
  decide +kernel

theorem unended : ∀ name ∈ ["s.toml", "s.toml.tmp", "spare.toml"], name.endsWith "/" = false := by
  decide +kernel

theorem lone_settings : Lone "s.toml" :=
  ⟨⟨by decide, by decide, by decide⟩, by decide, unended _ (by simp), by decide⟩

theorem lone_temporary : Lone (temporaryPath "s.toml") := by
  rw [temporaryPath_settings]
  exact ⟨⟨by decide, by decide, by decide⟩, by decide, unended _ (by simp), by decide⟩

theorem lone_spare : Lone "spare.toml" :=
  ⟨⟨by decide, by decide, by decide⟩, by decide, unended _ (by simp), by decide⟩

theorem temporaryPath_ne_settings : temporaryPath "s.toml" ≠ "s.toml" := by
  rw [temporaryPath_settings]
  decide

theorem spare_ne_temporaryPath : "spare.toml" ≠ temporaryPath "s.toml" := by
  rw [temporaryPath_settings]
  decide

/-- By way of a link to another file. -/
theorem load_of_store_byLink :
    let world := World.ofFiles (withLink (temporaryPath "s.toml") "spare.toml") ""
    ((load "s.toml").exec World.answer
      ((store "s.toml" armSettings).exec World.answer world).2).1 = .value armSettings := by
  intro world
  exact load_of_store world (rooted_withLink _ _)
    (not_entangled_withLink lone_settings lone_temporary lone_spare spare_ne_temporaryPath
      temporaryPath_ne_settings (by decide))
    (store_withLink validate_arm lone_settings lone_temporary lone_spare spare_ne_temporaryPath
      temporaryPath_ne_settings).1

/-- The settings of the arm are lost by way of a link to the settings file itself. -/
theorem lost_of_store_linkToItself :
    let world := World.ofFiles (withLink "s.toml.tmp" "s.toml") ""
    let stored := (store "s.toml" armSettings).exec World.answer world
    armSettings.validate = .ok () ∧ stored.1 = .value () ∧
      ((load "s.toml").exec World.answer stored.2).1 = .value Settings.initial ∧
      Settings.initial ≠ armSettings := by
  have lost := lost_of_store_withLink validate_arm lone_settings lone_temporary
    temporaryPath_ne_settings
  rw [temporaryPath_settings] at lost
  refine ⟨validate_arm, lost.1, lost.2, ?_⟩
  intro same
  exact absurd (congrArg (fun settings => settings.drive.channel) same) (by decide)

end RobotRoutine.SettingsFile
