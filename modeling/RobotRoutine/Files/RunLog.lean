import RobotRoutine.Files.FileSystem
import RobotRoutine.Program.Call

/-!
The run log.

A log writes a line for each record that its threshold lets in to the file of a run, by way of a
buffer.  A log without a file takes records and writes nothing; a log whose file fails loses the
file and goes on.  The buffer is written out when it is full, when the log is closed and when it is
dropped.
-/

namespace RobotRoutine

structure LogWriter where
  handle : FileHandle
  pending : ByteArray

namespace LogWriter

def capacity : Nat := 8192

structure Result where
  writer : LogWriter
  files : FileSystem
  error : Option SystemError

/-- Writes the buffer out.  Bytes that could not be written stay in it. -/
def flush (writer : LogWriter) (files : FileSystem) : Result :=
  let written := files.write writer.handle writer.pending
  let left := writer.pending.extract written.count writer.pending.size
  ⟨⟨written.handle, left⟩, written.files, written.error⟩

/-- Takes bytes that fit into a buffer which has room, and writes longer ones straight away. -/
def take (writer : LogWriter) (files : FileSystem) (bytes : ByteArray) : Result :=
  if bytes.size < capacity then ⟨{ writer with pending := writer.pending ++ bytes }, files, none⟩
  else
    let written := files.write writer.handle bytes
    ⟨{ writer with handle := written.handle }, written.files, written.error⟩

/-- Adds bytes, after the buffer has been written out if they do not fit. -/
def add (writer : LogWriter) (files : FileSystem) (bytes : ByteArray) : Result :=
  if writer.pending.size + bytes.size ≤ capacity then writer.take files bytes
  else
    let flushed := writer.flush files
    match flushed.error with
    | some _ => flushed
    | none => flushed.writer.take flushed.files bytes

def addLine (writer : LogWriter) (files : FileSystem) (line : String) : Result :=
  let added := writer.add files line.toUTF8
  match added.error with
  | some _ => added
  | none => added.writer.add added.files "\n".toUTF8

/-- Lets go of the file; what is in the buffer is written if it can be. -/
def drop (writer : LogWriter) (files : FileSystem) : FileSystem := (writer.flush files).files

end LogWriter

structure RunLog where
  writer : Option LogWriter
  path : Option String
  threshold : LogLevel
  /-- The moment that time stamps count from. -/
  opened : Duration

namespace RunLog

/-- A log without a file. -/
def detached (opened : Duration) : RunLog := ⟨none, none, .info, opened⟩

def pathOf (directory selector : String) : String := Path.join directory (selector ++ ".log")

/-- Opens the log of a run, for which directories may be made; what the file held is gone. -/
def openFile (files : FileSystem) (now : Duration) (directory selector : String) :
    Except Failure RunLog × FileSystem :=
  match files.makeDirectories directory with
  | (.error error, files) =>
      (.error (.context s!"create log dir {directory}" (.plain error.text)), files)
  | (.ok _, files) =>
      let path := pathOf directory selector
      match files.create path with
      | (.error error, files) => (.error (.context s!"create {path}" (.plain error.text)), files)
      | (.ok handle, files) =>
          (.ok ⟨some ⟨handle, ByteArray.empty⟩, some path, .info, now⟩, files)

def setThreshold (log : RunLog) (threshold : Option LogThreshold) : RunLog :=
  { log with threshold := LogLevel.ofThreshold threshold }

def padLeft (width : Nat) (text : String) : String :=
  String.ofList (List.replicate (width - text.length) ' ') ++ text

def line (elapsed : Duration) (level : LogLevel) (tag text : String) : String :=
  s!"{padLeft 8 (toString elapsed.millis)} {level.label} [{tag}] {text}"

def admits (log : RunLog) (level : LogLevel) : Bool := level.rank ≤ log.threshold.rank

def record (log : RunLog) (files : FileSystem) (now : Duration) (level : LogLevel)
    (tag text : String) : RunLog × FileSystem :=
  match log.admits level, log.writer with
  | true, some writer =>
      let added := writer.addLine files (line (now - log.opened) level tag text)
      match added.error with
      | none => ({ log with writer := some added.writer }, added.files)
      | some _ => ({ log with writer := none }, added.writer.drop added.files)
  | _, _ => (log, files)

def close (log : RunLog) (files : FileSystem) : Except Failure Unit × RunLog × FileSystem :=
  match log.writer with
  | none => (.ok (), log, files)
  | some writer =>
      let flushed := writer.flush files
      let closed := { log with writer := none }
      match flushed.error with
      | none => (.ok (), closed, flushed.files)
      | some error =>
          (.error (.context "flush run log" (.plain error.text)), closed,
            flushed.writer.drop flushed.files)

def drop (log : RunLog) (files : FileSystem) : FileSystem :=
  match log.writer with
  | none => files
  | some writer => writer.drop files

end RunLog

end RobotRoutine
