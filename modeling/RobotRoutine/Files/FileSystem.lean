import RobotRoutine.Failure.SystemError
import RobotRoutine.Files.Path

/-!
A file system of directories, files, links and a full device.

Every entry has a location, the names on the way to it from the root.  A path is walked part by part
from the working directory or the root, links are followed, and the walk ends at an entry, at a free
name in a directory, or with the error that the system gives.  Operations may also be refused by
faults that were planned beforehand.
-/

-- Bytes are compared by the core library's procedure, whichever others are in sight.
attribute [instance (2000)] ByteArray.instDecidableEq

namespace RobotRoutine

abbrev Location := List String

inductive FileEntry where
  | file (bytes : ByteArray)
  | directory
  /-- A link to the place that a path leads to. -/
  | link (target : String)
  /-- A device that has no room for a single byte. -/
  | fullDevice
  deriving DecidableEq

/-- A planned fault: how many bytes an operation still writes, and the error it ends with. -/
structure FileFault where
  written : Nat
  error : SystemError
  deriving DecidableEq

structure FileSystem where
  entries : List (Location × FileEntry)
  workingDirectory : Location
  /-- The faults of the operations to come, in their order. -/
  faults : List (Option FileFault)

inductive PathTarget where
  | entry (location : Location)
  | free (directory : Location) (name : String)
  deriving DecidableEq, Repr

/-- A file that is open for writing, and the position of the next byte. -/
structure FileHandle where
  location : Location
  offset : Nat
  deriving DecidableEq, Repr

namespace FileSystem

def entry? (files : FileSystem) : Location → Option FileEntry
  | [] => some .directory
  | location => files.entries.lookup location

def erase (files : FileSystem) (location : Location) : FileSystem :=
  { files with entries := files.entries.filter fun (known, _) => known != location }

/-- The file system with an entry at a location, in the place of what was there. -/
def put (files : FileSystem) (location : Location) (entry : FileEntry) : FileSystem :=
  let rest := files.erase location
  { rest with entries := (location, entry) :: rest.entries }

/-- A file system in which nothing but a working directory stands. -/
def ofWorkingDirectory (location : Location) : FileSystem where
  entries := (List.range location.length).map fun n => (location.take (n + 1), .directory)
  workingDirectory := location
  faults := []

/-- The fault planned for the next operation, and the file system after it. -/
def nextFault (files : FileSystem) : Option FileFault × FileSystem :=
  match files.faults with
  | [] => (none, files)
  | fault :: rest => (fault, { files with faults := rest })

/-! Walking. -/

/-- The longest name, in bytes. -/
def nameLimit : Nat := 255

/-- The longest path, in bytes. -/
def pathLimit : Nat := 4095

/-- The number of links that one walk may follow. -/
def linkLimit : Nat := 40

def parts (path : String) : List String := (path.splitOn "/").filter fun part => part != ""

/-- The parts of a path, and an empty one at the end if a slash stands there. -/
def partsAndSlash (path : String) : List String :=
  parts path ++ if path.endsWith "/" then [""] else []

inductive WalkMode where
  | stay
  | follow
  /-- Follows a link, to a place where a file may be created: a name with a slash behind it is none
  for a file. -/
  | create
  deriving DecidableEq, Repr

def start (location : Location) (path : String) : Location :=
  if path.startsWith "/" then [] else location

def walk (files : FileSystem) (mode : WalkMode) (links : Nat) (location : Location) :
    List String → Except SystemError PathTarget
  | [] => .ok (.entry location)
  | part :: rest =>
      if part = "." ∨ part = "" then walk files mode links location rest
      else if part = ".." then walk files mode links location.dropLast rest
      else if mode = .create ∧ rest = [""] then .error .isADirectory
      else if nameLimit < part.utf8ByteSize then .error .nameTooLong
      else
        let inner := location ++ [part]
        match files.entry? inner with
        | none => if rest = [] then .ok (.free location part) else .error .notFound
        | some .directory => walk files mode links inner rest
        | some (.link target) =>
            if rest = [] ∧ mode = .stay then .ok (.entry inner)
            else
              match links with
              | 0 => .error .tooManyLinks
              | links + 1 =>
                  walk files mode links (start location target) (partsAndSlash target ++ rest)
        | some _ => if rest = [] then .ok (.entry inner) else .error .notADirectory
  termination_by remaining => (links, remaining.length)

def checkPath (path : String) : Except SystemError Unit :=
  if path.toList.contains (Char.ofNat 0) then .error .nulInPath
  else if path = "" then .error .notFound
  else if pathLimit < path.utf8ByteSize then .error .nameTooLong
  else .ok ()

def resolve (files : FileSystem) (mode : WalkMode) (path : String) (parts : List String) :
    Except SystemError PathTarget := do
  checkPath path
  files.walk mode linkLimit (start files.workingDirectory path) parts

/-- The location that a path leads to.  With a slash at its end it must lead to a directory. -/
def locate (files : FileSystem) (path : String) : Except SystemError Location := do
  match ← files.resolve .follow path (partsAndSlash path) with
  | .entry location => .ok location
  | .free _ _ => .error .notFound

def endsInName (path : String) : Bool :=
  match (parts path).getLast? with
  | some part => part != "." && part != ".."
  | none => false

/-- Walks all but the last part of a path, which must lead to a directory. -/
def checkParent (files : FileSystem) (path : String) : Except SystemError Unit := do
  let _ ← files.resolve .follow path ((parts path).dropLast ++ ["."])

/-! Reading. -/

def pathExists (files : FileSystem) (path : String) : Bool :=
  match files.locate path with
  | .ok _ => true
  | .error _ => false

def isDirectory (files : FileSystem) (path : String) : Bool :=
  match files.locate path with
  | .ok location => files.entry? location == some .directory
  | .error _ => false

/-- The bytes of a file.  The full device has no end, so no memory holds what it gives. -/
def readBytes (files : FileSystem) (path : String) : Except SystemError ByteArray := do
  let location ← files.locate path
  match files.entry? location with
  | some (.file bytes) => .ok bytes
  | some .directory => .error .isADirectory
  | some (.link _) => .error .tooManyLinks
  | some .fullDevice => .error .noMemory
  | none => .error .notFound

def readText (files : FileSystem) (path : String) : Except SystemError String := do
  match String.fromUTF8? (← files.readBytes path) with
  | some text => .ok text
  | none => .error .invalidText

/-! Directories. -/

def makeDirectoryNow (files : FileSystem) (path : String) : Except SystemError FileSystem := do
  if (parts path).isEmpty || !endsInName path then
    checkPath path
    files.checkParent path
    .error .alreadyExists
  else
    match ← files.resolve .stay path (parts path) with
    | .entry _ => .error .alreadyExists
    | .free directory name => .ok (files.put (directory ++ [name]) .directory)

/-- The change of an operation that either succeeds or leaves all as it is. -/
def attempt (files : FileSystem)
    (operation : FileSystem → Except SystemError FileSystem) :
    Except SystemError Unit × FileSystem :=
  match files.nextFault with
  | (some fault, files) => (.error fault.error, files)
  | (none, files) =>
      match operation files with
      | .ok changed => (.ok (), changed)
      | .error error => (.error error, files)

def makeDirectory (files : FileSystem) (path : String) : Except SystemError Unit × FileSystem :=
  files.attempt fun files => files.makeDirectoryNow path

/-- Creates directories whose parents exist by now; one that exists already is as good. -/
def makeMissing (files : FileSystem) : List String → Except SystemError Unit × FileSystem
  | [] => (.ok (), files)
  | path :: rest =>
      match files.makeDirectory path with
      | (.ok _, files) => makeMissing files rest
      | (.error error, files) =>
          if files.isDirectory path then makeMissing files rest else (.error error, files)

/-- Looks for the innermost ancestor that can be created or exists; `missing` are the paths below
it, the outermost first. -/
def makeAncestors (files : FileSystem) (missing : List String) :
    Nat → String → Except SystemError Unit × FileSystem
  | 0, _ => (.error .notFound, files)
  | steps + 1, path =>
      if path = "" then files.makeMissing missing
      else
        match files.makeDirectory path with
        | (.ok _, files) => files.makeMissing missing
        | (.error error, files) =>
            if error = .notFound then
              match Path.parent? path with
              | some parent => makeAncestors files (path :: missing) steps parent
              | none => (.error error, files)
            else if files.isDirectory path then files.makeMissing missing
            else (.error error, files)

/-- Creates a directory together with those above it that are missing. -/
def makeDirectories (files : FileSystem) (path : String) : Except SystemError Unit × FileSystem :=
  files.makeAncestors [] (path.length + 1) path

/-! Writing. -/

/-- Creates or empties the file at a path, if no fault is planned. -/
def createNow (files : FileSystem) (path : String) :
    Except SystemError (FileHandle × FileSystem) := do
  match ← files.resolve .create path (partsAndSlash path) with
  | .free directory name =>
      let location := directory ++ [name]
      .ok (⟨location, 0⟩, files.put location (.file ByteArray.empty))
  | .entry location =>
      match files.entry? location with
      | some .directory => .error .isADirectory
      | some .fullDevice => .ok (⟨location, 0⟩, files)
      | _ => .ok (⟨location, 0⟩, files.put location (.file ByteArray.empty))

def create (files : FileSystem) (path : String) : Except SystemError FileHandle × FileSystem :=
  match files.nextFault with
  | (some fault, files) => (.error fault.error, files)
  | (none, files) =>
      match files.createNow path with
      | .ok (handle, files) => (.ok handle, files)
      | .error error => (.error error, files)

/-- Bytes with others laid over them from a position on; a gap before it is filled with zeros. -/
def overlay (old : ByteArray) (offset : Nat) (new : ByteArray) : ByteArray :=
  let gap : ByteArray := ⟨Array.replicate (offset - old.size) 0⟩
  old.extract 0 offset ++ gap ++ new ++ old.extract (offset + new.size) old.size

def store (files : FileSystem) (handle : FileHandle) (bytes : ByteArray) :
    FileHandle × FileSystem :=
  let moved := { handle with offset := handle.offset + bytes.size }
  match files.entry? handle.location with
  | some (.file old) =>
      (moved, files.put handle.location (.file (overlay old handle.offset bytes)))
  | _ => (moved, files)

/-- The outcome of a write: how many bytes were written and the error that ended it early. -/
structure Written where
  count : Nat
  error : Option SystemError
  handle : FileHandle
  files : FileSystem

def write (files : FileSystem) (handle : FileHandle) (bytes : ByteArray) : Written :=
  if bytes.isEmpty then ⟨0, none, handle, files⟩
  else if files.entry? handle.location = some .fullDevice then ⟨0, some .noSpace, handle, files⟩
  else
    match files.nextFault with
    | (some fault, files) =>
        let part := bytes.extract 0 fault.written
        let (handle, files) := files.store handle part
        ⟨part.size, some fault.error, handle, files⟩
    | (none, files) =>
        let (handle, files) := files.store handle bytes
        ⟨bytes.size, none, handle, files⟩

def writeText (files : FileSystem) (path text : String) : Except SystemError Unit × FileSystem :=
  match files.create path with
  | (.error error, files) => (.error error, files)
  | (.ok handle, files) =>
      let written := files.write handle text.toUTF8
      match written.error with
      | some error => (.error error, written.files)
      | none => (.ok (), written.files)

/-! Renaming. -/

/-- The file system in which all below one location stands below another. -/
def move (files : FileSystem) (source target : Location) : FileSystem :=
  { files with
    entries := files.entries.map fun (location, entry) =>
      if source.isPrefixOf location then (target ++ location.drop source.length, entry)
      else (location, entry) }

def replace (files : FileSystem) (source target : Location) (present : Option FileEntry) :
    Except SystemError FileSystem :=
  let isDirectory := files.entry? source = some .directory
  if source = target then .ok files
  else if isDirectory ∧ source.isPrefixOf target then .error .invalidArgument
  else
    match present with
    | none => .ok (files.move source target)
    | some .directory =>
        if !isDirectory then .error .isADirectory
        else if files.entries.any fun (location, _) =>
            target.isPrefixOf location && location != target then .error .directoryNotEmpty
        else .ok ((files.erase target).move source target)
    | some _ =>
        if isDirectory then .error .notADirectory
        else .ok ((files.erase target).move source target)

/-- Renames the entry at a path, if no fault is planned.  What stands at the target is replaced in
one step. -/
def renameNow (files : FileSystem) (source target : String) : Except SystemError FileSystem := do
  checkPath source
  checkPath target
  files.checkParent source
  files.checkParent target
  if !endsInName source || !endsInName target then .error .busy
  else
    match ← files.resolve .stay source (parts source) with
    | .free _ _ => .error .notFound
    | .entry origin =>
        let isDirectory := files.entry? origin = some .directory
        if !isDirectory && (source.endsWith "/" || target.endsWith "/") then .error .notADirectory
        else
          match ← files.resolve .stay target (parts target) with
          | .free directory name => files.replace origin (directory ++ [name]) none
          | .entry location => files.replace origin location (files.entry? location)

def rename (files : FileSystem) (source target : String) : Except SystemError Unit × FileSystem :=
  files.attempt fun files => files.renameNow source target

end FileSystem

end RobotRoutine
