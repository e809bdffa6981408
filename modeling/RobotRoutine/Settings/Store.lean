import RobotRoutine.Files.Path
import RobotRoutine.Program.HostTask
import RobotRoutine.Settings.Format

/-!
Loading and writing settings.

A settings file that is not there stands for the initial settings.  Writing goes by way of a
temporary file beside the settings file, which then takes its place in one step, so the settings
file is replaced as a whole or not at all.

Settings always have a text: the paths among them are texts, and every number can be written.  So
writing has no failure for settings that cannot be put into words, as it would need for paths that
are no texts.
-/

namespace RobotRoutine

namespace SettingsFile

def validated (settings : Settings) : Except Failure Settings :=
  match settings.validate with
  | .ok _ => .ok settings
  | .error error => .error (.plain error.text)

def parse (path text : String) : Except Failure Settings :=
  match read text with
  | .ok settings => validated settings
  | .error error => .error (.context s!"parse {path}" (.plain error.text))

def load (path : String) : Task Failure Settings := do
  if ← Task.pathExists path then
    let text ← Task.readText s!"read {path}" path
    Task.ofExcept (parse path text)
  else Task.ofExcept (validated Settings.initial)

def temporaryPath (path : String) : String := Path.withExtension path "toml.tmp"

def requireParent (path : String) : Except Failure String :=
  match Path.parent? path with
  | some parent => .ok parent
  | none => .error (.plain s!"settings path missing parent {path}")

def store (path : String) (settings : Settings) : Task Failure Unit := do
  let settings ← Task.ofExcept (validated settings)
  let parent ← Task.ofExcept (requireParent path)
  let temporary := temporaryPath path
  Task.makeDirectories s!"create directory {parent}" parent
  Task.writeText s!"write temp settings {temporary}" temporary (write settings)
  Task.rename s!"replace settings {path}" temporary path

end SettingsFile

end RobotRoutine
