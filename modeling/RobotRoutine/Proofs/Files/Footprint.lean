import RobotRoutine.Proofs.Files.RunLog
import RobotRoutine.Proofs.Files.Trail

/-!
What a run log changes among the files.

Opening a log adds directories where nothing stood, and makes or empties one file; from then on the
log writes to that file alone, whether its writes succeed or not.  So an entry at any other location
stays what it was before the log was opened.
-/

namespace RobotRoutine

namespace FileSystem

variable {files others later : FileSystem} {location : Location}

/-- File systems in which the same stands at all locations but some. -/
structure SameBut (places : Location → Prop) (files others : FileSystem) : Prop where
  workingDirectory : others.workingDirectory = files.workingDirectory
  entries : ∀ location, ¬places location → others.entry? location = files.entry? location

theorem SameBut.refl {places : Location → Prop} (files : FileSystem) : SameBut places files files :=
  ⟨rfl, fun _ _ => rfl⟩

theorem SameBut.symm {places : Location → Prop} (same : SameBut places files others) :
    SameBut places others files where
  workingDirectory := same.workingDirectory.symm
  entries location apart := (same.entries location apart).symm

theorem SameBut.trans {places : Location → Prop} (first : SameBut places files others)
    (second : SameBut places others later) : SameBut places files later where
  workingDirectory := second.workingDirectory.trans first.workingDirectory
  entries location apart := (second.entries location apart).trans (first.entries location apart)

theorem SameBut.mono {places more : Location → Prop} (same : SameBut places files others)
    (covers : ∀ location, places location → more location) : SameBut more files others where
  workingDirectory := same.workingDirectory
  entries location apart := same.entries location fun place => apart (covers location place)

theorem lookup_filter_of_ne {entries : List (Location × FileEntry)} {known : Location}
    (different : location ≠ known) :
    (entries.filter fun (other, _) => other != known).lookup location =
      entries.lookup location := by
  induction entries with
  | nil => rfl
  | cons entry rest inductionHypothesis =>
      obtain ⟨other, stands⟩ := entry
      by_cases dropped : other = known
      · subst dropped
        rw [List.filter_cons_of_neg (by simp), inductionHypothesis, List.lookup_cons,
          beq_false_of_ne different]
      · rw [List.filter_cons_of_pos (by simpa using dropped), List.lookup_cons, List.lookup_cons,
          inductionHypothesis]

theorem entry?_put_of_ne {known : Location} (different : location ≠ known) (entry : FileEntry) :
    entry? (files.put known entry) location = files.entry? location := by
  cases location with
  | nil => rfl
  | cons name rest =>
      change List.lookup (name :: rest) ((known, entry) :: _) = _
      rw [List.lookup_cons, beq_false_of_ne different]
      exact lookup_filter_of_ne different

theorem sameBut_put (files : FileSystem) (location : Location) (entry : FileEntry) :
    SameBut (· = location) files (files.put location entry) :=
  ⟨rfl, fun _ different => entry?_put_of_ne different entry⟩

theorem sameBut_nextFault {places : Location → Prop} (files : FileSystem) :
    SameBut places files files.nextFault.2 := by
  unfold nextFault
  split <;> exact ⟨rfl, fun _ _ => rfl⟩

/-! Directories. -/

/-- File systems of which the second has at most some more directories, where nothing stood in the
first. -/
structure Grows (files others : FileSystem) : Prop where
  workingDirectory : others.workingDirectory = files.workingDirectory
  entries : ∀ location, others.entry? location = files.entry? location ∨
    (files.entry? location = none ∧ others.entry? location = some .directory)

theorem Grows.trans (first : Grows files others) (second : Grows others later) :
    Grows files later where
  workingDirectory := second.workingDirectory.trans first.workingDirectory
  entries location := by
    rcases second.entries location with same | ⟨free, made⟩
    · rw [same]
      exact first.entries location
    · rcases first.entries location with same | ⟨_, madeBefore⟩
      · exact .inr ⟨same.symm.trans free, made⟩
      · rw [free] at madeBefore
        cases madeBefore

theorem Grows.of_sameBut (same : SameBut (fun _ => False) files others) : Grows files others :=
  ⟨same.workingDirectory, fun location => .inl (same.entries location not_false)⟩

/-- A free name at the end of a walk is one at which nothing stands. -/
theorem entry?_of_walk {mode : WalkMode} {links : Nat} {parts : List String} {directory : Location}
    {name : String} (walks : files.walk mode links location parts = .ok (.free directory name)) :
    files.entry? (directory ++ [name]) = none := by
  fun_induction walk files mode links location parts with
  | case2 _ _ _ _ _ inductionHypothesis => exact inductionHypothesis walks
  | case3 _ _ _ _ inductionHypothesis => exact inductionHypothesis walks
  | case6 links location part _ _ _ inner free =>
      cases walks
      exact free
  | case8 _ _ _ _ _ _ _ _ _ _ inductionHypothesis => exact inductionHypothesis walks
  | case11 _ _ _ _ _ _ _ _ _ _ _ _ inductionHypothesis => exact inductionHypothesis walks
  | _ => cases walks

theorem grows_makeDirectoryNow {path : String} (made : files.makeDirectoryNow path = .ok others) :
    Grows files others := by
  unfold makeDirectoryNow at made
  split at made
  · obtain ⟨_, _, made⟩ := exists_of_bind_eq_ok made
    obtain ⟨_, _, made⟩ := exists_of_bind_eq_ok made
    cases made
  · obtain ⟨target, resolved, made⟩ := exists_of_bind_eq_ok made
    obtain ⟨_, _, walked⟩ := exists_of_bind_eq_ok resolved
    cases target with
    | entry location => cases made
    | free directory name =>
        cases made
        refine ⟨rfl, ?_⟩
        intro location
        by_cases here : location = directory ++ [name]
        · subst here
          exact .inr ⟨entry?_of_walk walked, entry?_put_self files (by simp) _⟩
        · exact .inl (entry?_put_of_ne here _)

theorem grows_makeDirectory (files : FileSystem) (path : String) :
    Grows files (files.makeDirectory path).2 := by
  have faulted : Grows files files.nextFault.2 := .of_sameBut (sameBut_nextFault files)
  unfold makeDirectory attempt
  split
  case h_1 _ _ next =>
    rw [next] at faulted
    exact faulted
  case h_2 _ next =>
    rw [next] at faulted
    split
    case h_1 made => exact faulted.trans (grows_makeDirectoryNow made)
    case h_2 => exact faulted

/-- A relation of files before and after that holds whenever a directory is made at an allowed
path; the paths above an allowed one are allowed. -/
structure KeptByMaking (allowed : String → Prop) (related : FileSystem → FileSystem → Prop) :
    Prop where
  refl : ∀ files, related files files
  trans : ∀ {files others later}, related files others → related others later →
    related files later
  step : ∀ files path, allowed path → related files (files.makeDirectory path).2
  above : ∀ {path parent}, allowed path → Path.parent? path = some parent → parent ≠ "" →
    allowed parent

namespace KeptByMaking

variable {allowed : String → Prop} {related : FileSystem → FileSystem → Prop}

theorem makeMissing (kept : KeptByMaking allowed related) (files : FileSystem)
    {missing : List String} (allows : ∀ path ∈ missing, allowed path) :
    related files (files.makeMissing missing).2 := by
  induction missing generalizing files with
  | nil => exact kept.refl files
  | cons path rest inductionHypothesis =>
      rw [List.forall_mem_cons] at allows
      have made := kept.step files path allows.1
      unfold FileSystem.makeMissing
      split
      case h_1 given =>
        rw [given] at made
        exact kept.trans made (inductionHypothesis _ allows.2)
      case h_2 given =>
        rw [given] at made
        split
        · exact kept.trans made (inductionHypothesis _ allows.2)
        · exact made

theorem makeAncestors (kept : KeptByMaking allowed related) (files : FileSystem)
    {missing : List String} (steps : Nat) {path : String}
    (allowsMissing : ∀ path ∈ missing, allowed path) (allows : path ≠ "" → allowed path) :
    related files (files.makeAncestors missing steps path).2 := by
  induction steps generalizing files missing path with
  | zero => exact kept.refl files
  | succ steps inductionHypothesis =>
      unfold FileSystem.makeAncestors
      split
      case isTrue => exact kept.makeMissing files allowsMissing
      case isFalse some =>
        have made := kept.step files path (allows some)
        split
        case h_1 given =>
          rw [given] at made
          exact kept.trans made (kept.makeMissing _ allowsMissing)
        case h_2 given =>
          rw [given] at made
          split
          · split
            case h_1 parent isParent =>
              refine kept.trans made (inductionHypothesis _ ?_ ?_)
              · rw [List.forall_mem_cons]
                exact ⟨allows some, allowsMissing⟩
              · exact kept.above (allows some) isParent
            case h_2 => exact made
          · split
            · exact kept.trans made (kept.makeMissing _ allowsMissing)
            · exact made

/-- So it holds of the making of a directory together with those above it. -/
theorem makeDirectories (kept : KeptByMaking allowed related) (files : FileSystem)
    {path : String} (allows : path ≠ "" → allowed path) :
    related files (files.makeDirectories path).2 :=
  kept.makeAncestors files (path.length + 1) (List.forall_mem_nil _) allows

end KeptByMaking

theorem keptByMaking_grows : KeptByMaking (fun _ => True) Grows where
  refl files := .of_sameBut (.refl files)
  trans first second := first.trans second
  step files path _ := grows_makeDirectory files path
  above _ _ _ := trivial

theorem grows_makeDirectories (files : FileSystem) (path : String) :
    Grows files (files.makeDirectories path).2 :=
  keptByMaking_grows.makeDirectories files fun _ => trivial

/-! The file of a log. -/

theorem sameBut_createNow {path : String} {handle : FileHandle}
    (created : files.createNow path = .ok (handle, others)) :
    SameBut (· = handle.location) files others := by
  obtain ⟨target, _, created⟩ := exists_of_bind_eq_ok created
  cases target with
  | free directory name =>
      cases created
      exact sameBut_put files _ _
  | entry location =>
      dsimp only at created
      split at created
      · cases created
      · cases created
        exact .refl _
      · cases created
        exact sameBut_put files _ _

/-- What creating a file changes: its location, or nothing if it fails. -/
theorem sameBut_create (files : FileSystem) (path : String) :
    SameBut (fun location => ∃ handle, (files.create path).1 = .ok handle ∧
      location = handle.location) files (files.create path).2 := by
  have faulted (places : Location → Prop) : SameBut places files files.nextFault.2 :=
    sameBut_nextFault files
  unfold create
  split
  case h_1 next =>
    rw [next] at faulted
    exact faulted _
  case h_2 next =>
    rw [next] at faulted
    split
    case h_1 handle _ created =>
      refine (faulted _).trans ((sameBut_createNow created).mono ?_)
      intro location here
      exact ⟨handle, rfl, here⟩
    case h_2 => exact faulted _

theorem sameBut_store (files : FileSystem) (handle : FileHandle) (bytes : ByteArray) :
    SameBut (· = handle.location) files (files.store handle bytes).2 ∧
      (files.store handle bytes).1.location = handle.location := by
  unfold store
  dsimp only
  split
  · exact ⟨sameBut_put files _ _, rfl⟩
  · exact ⟨.refl files, rfl⟩

theorem sameBut_write (files : FileSystem) (handle : FileHandle) (bytes : ByteArray) :
    SameBut (· = handle.location) files (files.write handle bytes).files ∧
      (files.write handle bytes).handle.location = handle.location := by
  have faulted : SameBut (· = handle.location) files files.nextFault.2 := sameBut_nextFault files
  unfold write
  split
  · exact ⟨.refl files, rfl⟩
  · split
    · exact ⟨.refl files, rfl⟩
    · split
      case h_1 fault later next =>
        rw [next] at faulted
        obtain ⟨stored, place⟩ := sameBut_store later handle (bytes.extract 0 fault.written)
        exact ⟨faulted.trans stored, place⟩
      case h_2 later next =>
        rw [next] at faulted
        obtain ⟨stored, place⟩ := sameBut_store later handle bytes
        exact ⟨faulted.trans stored, place⟩

end FileSystem

namespace LogWriter

open FileSystem (SameBut)

variable {location : Location}

/-- A writer that has changed the file of its handle at most. -/
structure Result.Confined (location : Location) (files : FileSystem) (result : Result) : Prop where
  same : SameBut (· = location) files result.files
  place : result.writer.handle.location = location

theorem confined_flush (writer : LogWriter) (files : FileSystem) :
    (writer.flush files).Confined writer.handle.location files := by
  obtain ⟨same, place⟩ := FileSystem.sameBut_write files writer.handle writer.pending
  exact ⟨same, place⟩

theorem confined_take (writer : LogWriter) (files : FileSystem) (bytes : ByteArray) :
    (writer.take files bytes).Confined writer.handle.location files := by
  unfold take
  split
  · exact ⟨.refl files, rfl⟩
  · obtain ⟨same, place⟩ := FileSystem.sameBut_write files writer.handle bytes
    exact ⟨same, place⟩

theorem Result.Confined.andThen {files : FileSystem} {first second : Result}
    (confined : first.Confined location files)
    (next : second.Confined first.writer.handle.location first.files) :
    second.Confined location files := by
  obtain ⟨same, place⟩ := confined
  rw [place] at next
  exact ⟨same.trans next.same, next.place⟩

theorem confined_add (writer : LogWriter) (files : FileSystem) (bytes : ByteArray) :
    (writer.add files bytes).Confined writer.handle.location files := by
  have flushed := confined_flush writer files
  unfold add
  split
  · exact confined_take writer files bytes
  · dsimp only
    split
    · exact flushed
    · exact flushed.andThen (confined_take _ _ bytes)

theorem confined_addLine (writer : LogWriter) (files : FileSystem) (line : String) :
    (writer.addLine files line).Confined writer.handle.location files := by
  have added := confined_add writer files line.toUTF8
  unfold addLine
  dsimp only
  split
  · exact added
  · exact added.andThen (confined_add _ _ _)

end LogWriter

namespace RunLog

open FileSystem (SameBut)

/-- The location of the file that a log writes to. -/
def IsFile (log : RunLog) (location : Location) : Prop :=
  ∃ writer, log.writer = some writer ∧ location = writer.handle.location

theorem sameBut_record (log : RunLog) (files : FileSystem) (now : Duration) (level : LogLevel)
    (tag text : String) : SameBut log.IsFile files (log.record files now level tag text).2 := by
  unfold record
  split
  case h_1 writer _ opened =>
    have here (location : Location) (same : location = writer.handle.location) :
        log.IsFile location := ⟨writer, opened, same⟩
    have confined := LogWriter.confined_addLine writer files
      (line (now - log.opened) level tag text)
    generalize writer.addLine files _ = added at confined ⊢
    have dropped := confined.andThen (LogWriter.confined_flush added.writer added.files)
    dsimp only
    split
    · exact confined.same.mono here
    · exact dropped.same.mono here
  case h_2 => exact .refl files

/-- The location of the file on which the log of a run is opened, if it can be opened. -/
def file? (files : FileSystem) (directory selector : String) : Option Location :=
  match files.makeDirectories directory with
  | (.error _, _) => none
  | (.ok _, files) =>
      match files.create (pathOf directory selector) with
      | (.error _, _) => none
      | (.ok handle, _) => some handle.location

/-- A place that the log of a run takes: its file, or a directory that is made for it. -/
def Takes (files : FileSystem) (directory selector : String) (location : Location) : Prop :=
  file? files directory selector = some location ∨
    (files.entry? location = none ∧
      FileSystem.entry? (files.makeDirectories directory).2 location = some .directory)

theorem sameBut_makeDirectories (files : FileSystem) (directory selector : String) :
    SameBut (Takes files directory selector) files (files.makeDirectories directory).2 := by
  obtain ⟨workingDirectory, entries⟩ := FileSystem.grows_makeDirectories files directory
  refine ⟨workingDirectory, ?_⟩
  intro location apart
  exact (entries location).resolve_right fun made => apart (.inr made)

theorem sameBut_openFile (files : FileSystem) (now : Duration) (directory selector : String) :
    SameBut (Takes files directory selector) files (openFile files now directory selector).2 := by
  have made := sameBut_makeDirectories files directory selector
  have isFile (location : Location) (same : file? files directory selector = some location) :
      Takes files directory selector location := .inl same
  unfold openFile
  unfold file? at isFile
  generalize files.makeDirectories directory = opening at made isFile ⊢
  obtain ⟨outcome, after⟩ := opening
  cases outcome with
  | error error => exact made
  | ok _ =>
      have created := FileSystem.sameBut_create after (pathOf directory selector)
      dsimp only at isFile ⊢
      generalize after.create (pathOf directory selector) = creating at created isFile ⊢
      obtain ⟨outcome, last⟩ := creating
      cases outcome with
      | error error =>
          refine made.trans (created.mono ?_)
          rintro location ⟨_, ⟨⟩, _⟩
      | ok handle =>
          refine made.trans (created.mono ?_)
          rintro location ⟨_, ⟨⟩, rfl⟩
          exact isFile _ rfl

theorem isFile_of_openFile {files : FileSystem} {now : Duration} {directory selector : String}
    {log : RunLog} {location : Location}
    (opened : (openFile files now directory selector).1 = .ok log) (isFile : log.IsFile location) :
    Takes files directory selector location := by
  left
  unfold openFile at opened
  unfold file?
  generalize files.makeDirectories directory = made at opened ⊢
  obtain ⟨outcome, after⟩ := made
  cases outcome with
  | error error => cases opened
  | ok _ =>
      dsimp only at opened ⊢
      generalize after.create (pathOf directory selector) = created at opened ⊢
      obtain ⟨outcome, last⟩ := created
      cases outcome with
      | error error => cases opened
      | ok handle =>
          cases opened
          obtain ⟨_, ⟨⟩, rfl⟩ := isFile
          rfl

end RunLog

namespace Host

open FileSystem (SameBut)

def atTime (host : Host) (now : Duration) : Host := { host with clock := now }

@[simp] theorem log_atTime (host : Host) (now : Duration) : (host.atTime now).log = host.log := rfl

@[simp] theorem files_atTime (host : Host) (now : Duration) :
    (host.atTime now).files = host.files := rfl

theorem reply_readText (host : Host) (path : String) :
    (host.answer (.readText path)).1 = host.files.readText path := rfl

theorem answer_openLog (host : Host) (directory selector : String) :
    (host.answer (.openLog directory selector)).2 = host.openLog directory selector := rfl

variable {host : Host} {directory selector : String}

theorem sameBut_openLog (closed : host.log.writer = none) (directory selector : String) :
    SameBut (RunLog.Takes host.files directory selector) host.files
      (host.openLog directory selector).files := by
  have opened := RunLog.sameBut_openFile host.files host.clock directory selector
  have dropped (files : FileSystem) : (dropLog { host with files }).files = files :=
    RunLog.drop_of_closed closed files
  unfold openLog
  split
  case h_1 next =>
    rw [next] at opened
    simpa only [dropped] using opened
  case h_2 next =>
    rw [next] at opened
    simpa only [dropped] using opened

theorem takes_of_isFile {location : Location}
    (isFile : (host.openLog directory selector).log.IsFile location) :
    RunLog.Takes host.files directory selector location := by
  unfold openLog at isFile
  split at isFile
  case h_1 next => exact RunLog.isFile_of_openFile (congrArg Prod.fst next) isFile
  case h_2 => nomatch isFile

/-- A log that has been opened and written to has changed the places that it takes at most. -/
theorem sameBut_record_openLog (closed : host.log.writer = none) (directory selector : String)
    (now : Duration) (level : LogLevel) (tag text : String) :
    let opened := host.openLog directory selector
    SameBut (RunLog.Takes host.files directory selector) host.files
      (opened.log.record opened.files now level tag text).2 :=
  (sameBut_openLog closed directory selector).trans
    ((RunLog.sameBut_record _ _ _ _ _ _).mono fun _ => takes_of_isFile)

end Host

/-! A log that is opened beside a document, in a directory that is made for it. -/

namespace FileSystem

variable (document : String)

def withDirectory : FileSystem := (withDocument document []).put ["logs"] .directory

def withLog : FileSystem := (withDirectory document).put ["logs", "T.log"] (.file ByteArray.empty)

theorem makeDirectories_withDocument :
    (withDocument document []).makeDirectories "logs" = (.ok (), withDirectory document) := by
  have path : parts "logs" = ["logs"] := by
    rw [parts_eq]
    decide +kernel
  have named : ((parts "logs").isEmpty || !endsInName "logs") = false := by
    rw [endsInName, path]
    decide +kernel
  have walks : (withDocument document []).walk .stay linkLimit [] ["logs"] =
      .ok (.free [] "logs") := by
    simp +decide [walk, withDocument, entry?, List.lookup_cons]
  have made : (withDocument document []).makeDirectoryNow "logs" =
      .ok (withDirectory document) := by
    rw [makeDirectoryNow, named, path, resolve_root (by decide +kernel) rfl, walks]
    rfl
  have faultless : (withDocument document []).nextFault = (none, withDocument document []) := rfl
  simp only [makeDirectories, makeAncestors, makeDirectory, attempt, faultless, made, makeMissing]
  rfl

theorem create_of_walk {files : FileSystem} {path : String} {directory : Location} {name : String}
    (checked : checkPath path = .ok ()) (root : files.workingDirectory = [])
    (faultless : files.faults = [])
    (walks : files.walk .create linkLimit [] (partsAndSlash path) = .ok (.free directory name)) :
    files.create path = (.ok ⟨directory ++ [name], 0⟩,
      files.put (directory ++ [name]) (.file ByteArray.empty)) := by
  have created : files.createNow path = .ok (⟨directory ++ [name], 0⟩,
      files.put (directory ++ [name]) (.file ByteArray.empty)) := by
    rw [createNow, resolve_root checked root, walks]
    rfl
  have next : files.nextFault = (none, files) := by
    rw [nextFault, faultless]
  simp only [create, next, created]

theorem create_withDirectory :
    (withDirectory document).create "logs/T.log" =
      (.ok ⟨["logs", "T.log"], 0⟩, withLog document) := by
  have path : partsAndSlash "logs/T.log" = ["logs", "T.log"] := by
    rw [partsAndSlash, parts_eq]
    decide +kernel
  have walks : (withDirectory document).walk .create linkLimit [] (partsAndSlash "logs/T.log") =
      .ok (.free ["logs"] "T.log") := by
    rw [path]
    simp +decide [walk, withDirectory, withDocument, put, erase, entry?, List.lookup_cons]
  exact create_of_walk (by decide +kernel) rfl rfl walks

theorem trail_withLog : (withLog document).trail "logs/../d.xml" = [["logs"], ["d.xml"]] := by
  rw [trail, parts_behind]
  simp +decide [trailFrom, withLog, withDirectory, withDocument, put, erase, entry?, start,
    List.lookup_cons]

/-- The way to the document through the directory is open now. -/
theorem readText_withLog : (withLog document).readText "logs/../d.xml" = .ok document := by
  have walks : (withLog document).walk .follow linkLimit [] (partsAndSlash "logs/../d.xml") =
      .ok (.entry ["d.xml"]) := by
    rw [parts_behind]
    simp +decide [walk, withLog, withDirectory, withDocument, put, erase, entry?,
      List.lookup_cons]
  exact readText_of_walk (by decide +kernel) rfl walks rfl

/-- The fault of a place where no directory can be made. -/
def refused : List (Option FileFault) := [some ⟨0, .permissionDenied⟩]

theorem makeDirectories_refused :
    (withDocument document refused).makeDirectories "logs" =
      (.error .permissionDenied, withDocument document []) := by
  have path : partsAndSlash "logs" = ["logs"] := by
    rw [partsAndSlash, parts_eq]
    decide +kernel
  have walks : (withDocument document []).walk .follow linkLimit [] ["logs"] =
      .ok (.free [] "logs") := by
    simp +decide [walk, withDocument, entry?, List.lookup_cons]
  have missing : (withDocument document []).isDirectory "logs" = false := by
    rw [isDirectory, locate, resolve_root (by decide +kernel) rfl, path, walks]
    rfl
  have refuses : (withDocument document refused).nextFault =
      (some ⟨0, .permissionDenied⟩, withDocument document []) := rfl
  simp only [makeDirectories, makeAncestors, makeDirectory, attempt, refuses, missing]
  rfl

end FileSystem

namespace RunLog

open FileSystem (withDocument refused)

variable (document : String)

theorem pathOf_log : pathOf "logs" "T" = "logs/T.log" := by
  decide +kernel

theorem file?_withDocument :
    file? (withDocument document []) "logs" "T" = some ["logs", "T.log"] := by
  simp only [file?, FileSystem.makeDirectories_withDocument, pathOf_log,
    FileSystem.create_withDirectory]

theorem openFile_log (now : Duration) :
    openFile (withDocument document []) now "logs" "T" =
      (.ok ⟨some ⟨⟨["logs", "T.log"], 0⟩, ByteArray.empty⟩, some "logs/T.log", .info, now⟩,
        FileSystem.withLog document) := by
  simp only [openFile, FileSystem.makeDirectories_withDocument, pathOf_log,
    FileSystem.create_withDirectory]

theorem file?_refused : file? (withDocument document refused) "logs" "T" = none := by
  simp only [file?, FileSystem.makeDirectories_refused]

end RunLog

namespace Host

open FileSystem (withDocument withLog refused)

variable (document : String) (now : Duration)

theorem openLog_withDocument :
    ((ofFiles (withDocument document [])).atTime now).openLog "logs" "T" =
      { ofFiles (withLog document) with
        log := ⟨some ⟨⟨["logs", "T.log"], 0⟩, ByteArray.empty⟩, some "logs/T.log", .info, now⟩
        clock := now } := by
  have clock : ((ofFiles (withDocument document [])).atTime now).clock = now := rfl
  have files : (ofFiles (withDocument document [])).files = withDocument document [] := rfl
  simp only [openLog, files_atTime, files, clock, RunLog.openFile_log]
  rfl

theorem openLog_refused :
    ((ofFiles (withDocument document refused)).atTime now).openLog "logs" "T" =
      { ofFiles (withDocument document []) with log := .detached now, clock := now } := by
  have files : (ofFiles (withDocument document refused)).files = withDocument document refused :=
    rfl
  simp only [openLog, RunLog.openFile, files_atTime, files, FileSystem.makeDirectories_refused]
  rfl

end Host

end RobotRoutine
