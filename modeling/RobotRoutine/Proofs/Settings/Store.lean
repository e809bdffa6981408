import RobotRoutine.Proofs.Files.Plain
import RobotRoutine.Proofs.Program.Settling
import RobotRoutine.Settings.Store
import RobotRoutine.Simulation.Session

/-!
Writing settings: all or nothing.

The settings file is replaced by one renaming, so among directories and files it holds what it held
before, or all of what was to be written.  Wherever the writing is cut off, nothing else has changed
but the file beside it and the directories above it that were missing.
-/

namespace RobotRoutine

namespace World

def withFiles (world : World) (files : FileSystem) : World :=
  { world with host := { world.host.wait Host.callTime with files } }

end World

namespace Task

variable {α : Type}

/-- What a task makes of the reply to an operation on files. -/
def systemOutcome (context : String) : Except SystemError α → Outcome Failure α
  | .ok value => .value value
  | .error error => .error (.context context (.plain error.text))

variable (context path text source target : String) (world : World)

theorem exec_ofSystem (reply : Except SystemError α) :
    (ofSystem context reply).exec World.answer world = (systemOutcome context reply, world) := by
  cases reply <;> rfl

theorem exec_pathExists {ε : Type} :
    (pathExists (ε := ε) path).exec World.answer world =
      (.value (world.host.files.pathExists path), world.withFiles world.host.files) := rfl

theorem exec_readText :
    (readText context path).exec World.answer world =
      (systemOutcome context (world.host.files.readText path),
        world.withFiles world.host.files) :=
  exec_ofSystem context _ (world.host.files.readText path)

theorem exec_makeDirectories :
    (makeDirectories context path).exec World.answer world =
      (systemOutcome context (world.host.files.makeDirectories path).1,
        world.withFiles (world.host.files.makeDirectories path).2) :=
  exec_ofSystem context _ (world.host.files.makeDirectories path).1

theorem exec_writeText :
    (writeText context path text).exec World.answer world =
      (systemOutcome context (world.host.files.writeText path text).1,
        world.withFiles (world.host.files.writeText path text).2) :=
  exec_ofSystem context _ (world.host.files.writeText path text).1

theorem exec_rename :
    (rename context source target).exec World.answer world =
      (systemOutcome context (world.host.files.rename source target).1,
        world.withFiles (world.host.files.rename source target).2) :=
  exec_ofSystem context _ (world.host.files.rename source target).1

variable {context world}

/-- A task on files ends it with the reply of an error, or what follows goes on behind it. -/
theorem exec_system_cases {β : Type} {task : Task Failure α} {next : α → Task Failure β}
    {reply : Except SystemError α} {middle after : World} {outcome : Outcome Failure β}
    (gives : task.exec World.answer world = (systemOutcome context reply, middle))
    (exec : (task.bind next).exec World.answer world = (outcome, after)) :
    (∃ error failure, reply = .error error ∧ outcome = .error failure ∧ after = middle) ∨
      ∃ value, reply = .ok value ∧ (next value).exec World.answer middle = (outcome, after) := by
  cases reply with
  | error error =>
      have same := (exec_bind_error gives).symm.trans exec
      cases same
      exact .inl ⟨error, _, rfl, rfl, rfl⟩
  | ok value => exact .inr ⟨value, rfl, (exec_bind_value gives).symm.trans exec⟩

end Task

namespace SettingsFile

/-- How the storing of settings goes on among files, and how it ends. -/
inductive Stores (path : String) (settings : Settings) (files : FileSystem) :
    Outcome Failure Unit → FileSystem → Prop where
  | refused {error} : settings.validate = .error error →
      Stores path settings files (.error (.plain error.text)) files
  | orphan {failure} : settings.validate = .ok () → Path.parent? path = none →
      Stores path settings files (.error failure) files
  | noDirectory {parent error made failure} : settings.validate = .ok () →
      Path.parent? path = some parent → files.makeDirectories parent = (.error error, made) →
      Stores path settings files (.error failure) made
  | notWritten {parent made error left failure} : settings.validate = .ok () →
      Path.parent? path = some parent → files.makeDirectories parent = (.ok (), made) →
      made.writeText (temporaryPath path) (write settings) = (.error error, left) →
      Stores path settings files (.error failure) left
  | notReplaced {parent made written error left failure} : settings.validate = .ok () →
      Path.parent? path = some parent → files.makeDirectories parent = (.ok (), made) →
      made.writeText (temporaryPath path) (write settings) = (.ok (), written) →
      written.rename (temporaryPath path) path = (.error error, left) →
      Stores path settings files (.error failure) left
  | replaced {parent made written left} : settings.validate = .ok () →
      Path.parent? path = some parent → files.makeDirectories parent = (.ok (), made) →
      made.writeText (temporaryPath path) (write settings) = (.ok (), written) →
      written.rename (temporaryPath path) path = (.ok (), left) →
      Stores path settings files (.value ()) left

variable {path : String} {settings : Settings} {world : World}

theorem stores_of_exec {outcome : Outcome Failure Unit} {after : World}
    (exec : (store path settings).exec World.answer world = (outcome, after)) :
    Stores path settings world.host.files outcome after.host.files := by
  cases valid : settings.validate with
  | error error =>
      rw [store, validated, valid] at exec
      cases exec
      exact .refused valid
  | ok _ =>
      rw [store, validated, valid] at exec
      replace exec := Eq.trans (Task.exec_bind_value rfl).symm exec
      cases given : Path.parent? path with
      | none =>
          rw [requireParent, given] at exec
          cases exec
          exact .orphan valid given
      | some parent =>
          rw [requireParent, given] at exec
          replace exec := Eq.trans (Task.exec_bind_value rfl).symm exec
          have makes := Task.exec_makeDirectories s!"create directory {parent}" parent world
          rcases Task.exec_system_cases makes exec with
            ⟨error, failure, reply, rfl, rfl⟩ | ⟨_, reply, exec⟩
          · exact .noDirectory valid given (Prod.ext reply rfl)
          · have writes := Task.exec_writeText s!"write temp settings {temporaryPath path}"
              (temporaryPath path) (write settings)
              (world.withFiles (world.host.files.makeDirectories parent).2)
            rcases Task.exec_system_cases writes exec with
              ⟨error, failure, replyToo, rfl, rfl⟩ | ⟨_, replyToo, exec⟩
            · exact .notWritten valid given (Prod.ext reply rfl) (Prod.ext replyToo rfl)
            · have renames := (Task.exec_rename s!"replace settings {path}" (temporaryPath path)
                path _).symm.trans exec
              cases renamed : FileSystem.rename _ (temporaryPath path) path with
              | mk replyLast left =>
                  rw [renamed] at renames
                  cases replyLast <;> cases renames
                  · exact .notReplaced valid given (Prod.ext reply rfl) (Prod.ext replyToo rfl)
                      renamed
                  · exact .replaced valid given (Prod.ext reply rfl) (Prod.ext replyToo rfl) renamed

/-! The places of the settings file and of the one beside it. -/

open FileSystem (Plain SameBut Straight placeOf)

theorem unslashed_extension : Path.Unslashed "toml.tmp".toList := by
  have slashless : "toml.tmp".toList.all (· != '/') = true := by decide
  exact fun c member => bne_iff_ne.mp (List.all_eq_true.mp slashless c member)

variable {files others : FileSystem} {location home : Location}

/-- The settings file stands in some directory, and the only place to which the temporary path can
lead is another one in there. -/
theorem exists_places (home : Location) (named : Path.HasName path) (straight : Straight path) :
    ∃ above name, placeOf home path = above ++ [name] ∧
      placeOf home (temporaryPath path) ≠ placeOf home path ∧
      ∀ {files : FileSystem} {location}, files.Rooted →
        files.LeadsTo (temporaryPath path) location → Straight (temporaryPath path) := by
  obtain ⟨before, part, tail, ends, notUp⟩ := named.exists_ends
  obtain ⟨last, rest, endsToo, extended⟩ :=
    Path.ends_withExtension ends notUp "toml.tmp" unslashed_extension
  have other : last ≠ part := extended.ne (by decide) notUp
  refine ⟨_, _, FileSystem.placeOf_of_ends home ends, ?_, ?_⟩
  · rw [FileSystem.placeOf_of_ends home ends, temporaryPath,
      FileSystem.placeOf_of_ends home endsToo]
    simpa [String.ofList_inj] using other
  · intro files location rooted leads
    rw [Straight, ends.names_eq, List.mem_append, not_or] at straight
    rw [Straight, temporaryPath, endsToo.names_eq, List.mem_append, not_or]
    refine ⟨straight.1, ?_⟩
    rw [List.mem_singleton]
    rintro rfl
    exact FileSystem.not_leadsTo_of_up rooted endsToo leads

/-- Files among which settings were to be written at a path, and the ending of it. -/
structure AllOrNothing (path : String) (settings : Settings) (files : FileSystem)
    (outcome : Outcome Failure Unit) (left : FileSystem) : Prop where
  ends : outcome = .value () ∨ ∃ failure, outcome = .error failure
  nothing : ∀ failure, outcome = .error failure →
    left.entry? (placeOf files.workingDirectory path) =
      files.entry? (placeOf files.workingDirectory path)
  all : outcome = .value () →
    left.entry? (placeOf files.workingDirectory path) = some (.file (write settings).toUTF8) ∧
      left.entry? (placeOf files.workingDirectory (temporaryPath path)) = none
  /-- Settings that are not valid leave all as it was. -/
  refused : ∀ error, settings.validate = .error error →
    outcome = .error (.plain error.text) ∧ left = files
  /-- Nothing else is changed but that directories are made above the path. -/
  rest : ∀ location, location ≠ placeOf files.workingDirectory path →
    location ≠ placeOf files.workingDirectory (temporaryPath path) →
    left.entry? location = files.entry? location ∨
      location <+: placeOf files.workingDirectory path ∧ files.entry? location = none ∧
        left.entry? location = some .directory

/-- Files that differ at one place at most, and in directories that were made above another. -/
structure Confined (temporary above : Location) (files left : FileSystem) : Prop where
  workingDirectory : left.workingDirectory = files.workingDirectory
  entries : ∀ location, location ≠ temporary →
    left.entry? location = files.entry? location ∨
      location <+: above ∧ files.entry? location = none ∧ left.entry? location = some .directory

/-- No directory is made for the working directory. -/
theorem makeDirectories_empty (files : FileSystem) :
    files.makeDirectories "" = (.ok (), files) := by
  rw [FileSystem.makeDirectories, FileSystem.makeAncestors, if_pos rfl, FileSystem.makeMissing]

theorem adds_parent (plain : files.Plain) (straight : Straight path) {above : Location}
    {name parent : String} (place : placeOf files.workingDirectory path = above ++ [name])
    (given : Path.parent? path = some parent) {reply : Except SystemError Unit}
    (makes : files.makeDirectories parent = (reply, others)) :
    FileSystem.Adds above files others := by
  by_cases empty : parent = ""
  · subst empty
    rw [makeDirectories_empty] at makes
    cases makes
    exact .of_sameBut plain (.refl files)
  · obtain ⟨straightParent, last, same⟩ :=
      FileSystem.placeOf_parent files.workingDirectory given empty straight
    have adds := FileSystem.adds_makeDirectories plain straightParent
    rw [makes] at adds
    obtain ⟨rfl, _⟩ := List.append_inj' (place.symm.trans same) rfl
    exact adds

namespace Confined

variable {temporary above : Location} {left : FileSystem}

theorem of_adds (adds : FileSystem.Adds above files left) :
    Confined temporary above files left where
  workingDirectory := adds.workingDirectory
  entries location _ := adds.entries location

theorem trans (confined : Confined temporary above files others)
    (same : SameBut (· = temporary) others left) : Confined temporary above files left where
  workingDirectory := same.workingDirectory.trans confined.workingDirectory
  entries location apart := by
    rw [same.entries location apart]
    exact confined.entries location apart

/-- The settings file is as before, since it is neither beside itself nor above itself. -/
theorem entry?_eq (confined : Confined temporary above files left) {name : String}
    (different : temporary ≠ above ++ [name]) :
    left.entry? (above ++ [name]) = files.entry? (above ++ [name]) := by
  refine (confined.entries _ different.symm).resolve_right ?_
  rintro ⟨inside, _⟩
  have short := inside.length_le
  rw [List.length_append] at short
  exact absurd short (Nat.not_succ_le_self _)

end Confined

/-- Writing a file into a plain file system leaves a plain one. -/
theorem plain_of_written (plain : files.Plain) (rooted : others.Rooted) {bytes : ByteArray}
    (same : SameBut (· = location) files others)
    (stands : others.entry? location = some (.file bytes)) : others.Plain := by
  refine ⟨rooted, ?_⟩
  intro place entry there
  by_cases here : place = location
  · rw [here, stands] at there
    cases there
    exact .inr ⟨bytes, rfl⟩
  · rw [same.entries place here] at there
    exact plain.kinds place entry there

theorem write_ne_empty (settings : Settings) : write settings ≠ "" := by
  rw [write, Ne, String.append_eq_empty_iff, not_and]
  exact fun _ ended => absurd ended (by decide)

/-- What a failed storing leaves: the settings file as it was. -/
theorem AllOrNothing.of_confined {above : Location} {name : String} {failure : Failure}
    {left : FileSystem} (valid : settings.validate = .ok ())
    (place : placeOf files.workingDirectory path = above ++ [name])
    (different : placeOf files.workingDirectory (temporaryPath path) ≠
      placeOf files.workingDirectory path)
    (confined : Confined (placeOf files.workingDirectory (temporaryPath path)) above files left) :
    AllOrNothing path settings files (.error failure) left where
  ends := .inr ⟨failure, rfl⟩
  nothing _ _ := by
    rw [place] at different ⊢
    exact confined.entry?_eq different
  all impossible := by cases impossible
  refused error invalid := by
    rw [valid] at invalid
    cases invalid
  rest location _ apart := by
    refine (confined.entries location apart).imp id ?_
    rintro ⟨inside, free, made⟩
    exact ⟨place ▸ inside.trans (List.prefix_append _ _), free, made⟩

/-- What a storing leaves that came to its end: the file beside was moved to the settings file. -/
theorem AllOrNothing.of_moved {above : Location} {name : String} {before left : FileSystem}
    (valid : settings.validate = .ok ())
    (place : placeOf files.workingDirectory path = above ++ [name])
    (confined : Confined (placeOf files.workingDirectory (temporaryPath path)) above files before)
    (stands : before.entry? (placeOf files.workingDirectory (temporaryPath path)) =
      some (.file (write settings).toUTF8))
    (moved : FileSystem.Moved before left (placeOf files.workingDirectory (temporaryPath path))
      (placeOf files.workingDirectory path)) :
    AllOrNothing path settings files (.value ()) left where
  ends := .inl rfl
  nothing _ impossible := by cases impossible
  all _ := ⟨moved.arrived.trans stands, moved.gone⟩
  refused _ invalid := by
    rw [valid] at invalid
    cases invalid
  rest location apart apartToo := by
    rw [moved.rest location apartToo apart]
    refine (confined.entries location apartToo).imp id ?_
    rintro ⟨inside, free, made⟩
    exact ⟨place ▸ inside.trans (List.prefix_append _ _), free, made⟩

/-- Writing a text beside the settings file, at a path that leads to one place only. -/
theorem confined_of_writeText {above : Location} (adds : FileSystem.Adds above files others)
    {beside text : String} (some : text ≠ "") {left : FileSystem} {reply : Except SystemError Unit}
    (straight : ∀ {files : FileSystem} {location}, files.Rooted →
      files.LeadsTo beside location → Straight beside)
    (written : others.writeText beside text = (reply, left)) :
    Confined (placeOf files.workingDirectory beside) above files left ∧
      (reply = .ok () → left.Plain ∧ Straight beside ∧
        left.entry? (placeOf files.workingDirectory beside) = .some (.file text.toUTF8)) := by
  obtain ⟨before, faulted, wrote⟩ := FileSystem.wrote_writeText adds.plain.toRooted some written
  have plain : before.Plain := adds.plain.of_sameBut faulted
  have home : before.workingDirectory = files.workingDirectory :=
    faulted.workingDirectory.trans adds.workingDirectory
  have leadsOnly (place : Location) (leads : before.LeadsTo beside place) :
      place = placeOf files.workingDirectory beside :=
    home ▸ FileSystem.placeOf_of_leadsTo plain (straight plain.toRooted leads) leads
  refine ⟨((Confined.of_adds adds).trans (faulted.mono fun _ => False.elim)).trans
    (wrote.same.mono leadsOnly), ?_⟩
  intro fine
  obtain ⟨place, leads, same, stands, rooted⟩ := wrote.stands fine
  refine ⟨plain_of_written plain rooted same stands, straight plain.toRooted leads, ?_⟩
  rw [← leadsOnly place leads]
  exact stands

/-- The file beside takes the place of the settings file. -/
theorem moved_of_rename (plain : files.Plain) {beside : String} {left : FileSystem}
    {bytes : ByteArray} (straight : Straight path) (straightToo : Straight beside)
    (different : placeOf files.workingDirectory beside ≠ placeOf files.workingDirectory path)
    (stands : files.entry? (placeOf files.workingDirectory beside) = some (.file bytes))
    (renamed : files.renameNow beside path = .ok left) :
    FileSystem.Moved files left (placeOf files.workingDirectory beside)
      (placeOf files.workingDirectory path) := by
  have atBeside (source : Location)
      (resolved : files.resolve .stay beside (FileSystem.parts beside) = .ok (.entry source)) :
      source = placeOf files.workingDirectory beside :=
    FileSystem.placeOf_of_resolve_stay plain straightToo resolved
  have ends := FileSystem.renamed_of_renameNow plain.toRooted renamed fun source resolved => by
    rw [atBeside source resolved, stands]
    simp
  obtain ⟨source, target, resolved, ⟨_, resolvedToo, rfl⟩, done⟩ := ends.moved
  rw [atBeside source resolved,
    FileSystem.placeOf_of_resolve_stay plain straight resolvedToo] at done
  exact done.resolve_left fun same => different same.1

theorem allOrNothing_of_stores (plain : files.Plain) (named : Path.HasName path)
    (straight : Straight path) {outcome : Outcome Failure Unit} {left : FileSystem}
    (stores : Stores path settings files outcome left) :
    AllOrNothing path settings files outcome left := by
  obtain ⟨above, name, place, different, straightToo⟩ :=
    exists_places files.workingDirectory named straight
  have confinedWritten {parent : String} {made written : FileSystem} {reply}
      (given : Path.parent? path = some parent)
      (makes : files.makeDirectories parent = (.ok (), made))
      (writes : made.writeText (temporaryPath path) (write settings) = (reply, written)) :=
    confined_of_writeText (adds_parent plain straight place given makes) (write_ne_empty settings)
      straightToo writes
  cases stores with
  | refused invalid =>
      exact
        { ends := .inr ⟨_, rfl⟩
          nothing := fun _ _ => rfl
          all := fun impossible => by cases impossible
          refused := fun error same => by
            rw [invalid] at same
            cases same
            exact ⟨rfl, rfl⟩
          rest := fun _ _ _ => .inl rfl }
  | orphan valid _ =>
      exact .of_confined valid place different (.of_adds (.of_sameBut plain (.refl files)))
  | noDirectory valid given makes =>
      exact .of_confined valid place different
        (.of_adds (adds_parent plain straight place given makes))
  | notWritten valid given makes writes =>
      exact .of_confined valid place different (confinedWritten given makes writes).1
  | notReplaced valid given makes writes renames =>
      obtain ⟨confined, _⟩ := confinedWritten given makes writes
      obtain ⟨before, faulted, ⟨_, _, rfl⟩ | ⟨impossible, _⟩⟩ := FileSystem.attempt_cases renames
      · exact .of_confined valid place different (confined.trans (faulted.mono fun _ => False.elim))
      · cases impossible
  | replaced valid given makes writes renames =>
      obtain ⟨confined, stands⟩ := confinedWritten given makes writes
      obtain ⟨plainWritten, straightBeside, stands⟩ := stands rfl
      obtain ⟨before, faulted, ⟨_, impossible, _⟩ | ⟨_, renamed⟩⟩ :=
        FileSystem.attempt_cases renames
      · cases impossible
      · replace confined := confined.trans (faulted.mono fun _ => False.elim)
        replace stands := (faulted.entries _ not_false).trans stands
        have home := confined.workingDirectory
        have moved := moved_of_rename (plainWritten.of_sameBut faulted) straight straightBeside
          (home ▸ different) (home ▸ stands) renamed
        rw [home] at moved
        exact .of_moved valid place confined stands moved

/-- Storing settings replaces the settings file as a whole, or it fails and leaves it alone. -/
theorem allOrNothing_of_exec (world : World) (plain : world.host.files.Plain)
    (named : Path.HasName path) (straight : Straight path) :
    AllOrNothing path settings world.host.files ((store path settings).exec World.answer world).1
      ((store path settings).exec World.answer world).2.host.files :=
  allOrNothing_of_stores plain named straight (stores_of_exec rfl)

/-- The directory of the settings file is missing, and the device is full after seven bytes of the
text. -/
theorem allOrNothing_of_exec_missingDirectory :
    let files : FileSystem :=
      { FileSystem.ofWorkingDirectory ["home"] with faults := [none, none, some ⟨7, .noSpace⟩] }
    AllOrNothing "etc/runner.toml" Settings.initial files
      ((store "etc/runner.toml" Settings.initial).exec World.answer (.ofFiles files "")).1
      ((store "etc/runner.toml" Settings.initial).exec World.answer
        (.ofFiles files "")).2.host.files := by
  intro files
  exact allOrNothing_of_exec (.ofFiles files "")
    ((FileSystem.plain_ofWorkingDirectory ["home"]).of_sameBut ⟨rfl, fun _ _ => rfl⟩)
    ⟨"etc/".toList, "runner.toml".toList, by decide +kernel⟩ (by unfold Straight; decide +kernel)

end SettingsFile

end RobotRoutine
