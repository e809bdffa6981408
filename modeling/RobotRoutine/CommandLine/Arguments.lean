import RobotRoutine.Configuration
import RobotRoutine.Number.Integer

/-!
The arguments of the command line.

The first argument names a command; its options follow in any order, each at most once.  A value
stands in the argument of its option behind an equals sign, or is the next argument, which must not
look like an option.
-/

namespace RobotRoutine.CommandLine

inductive Command where
  | check (selector : String) (document : Option String) (settings : String) (json : Bool)
  | run (selector : String) (alliance : Alliance) (zone : Zone) (settings : String)
      (document : Option String) (maxRunSecs : Nat)
  /-- Writes the initial settings. -/
  | initSettings (force : Bool) (settings : String)
  deriving DecidableEq, Repr

/-- The options of a command: those with a value, those without, and their short forms. -/
structure OptionTable where
  valued : List String
  flags : List String
  short : List (String × String)

structure Given where
  values : List (String × String)
  flags : List String
  deriving DecidableEq, Repr

namespace Given

def none : Given := ⟨[], []⟩

def addValue? (given : Given) (name value : String) : Option Given :=
  if (given.values.lookup name).isSome then Option.none
  else some { given with values := (name, value) :: given.values }

def addFlag? (given : Given) (name : String) : Option Given :=
  if given.flags.contains name then Option.none
  else some { given with flags := name :: given.flags }

def value? (given : Given) (name : String) : Option String := given.values.lookup name

def hasFlag (given : Given) (name : String) : Bool := given.flags.contains name

end Given

/-- The name of a long option and the value in the same argument. -/
def splitLong? (argument : String) : Option (String × Option String) :=
  match argument.toList with
  | '-' :: '-' :: name =>
      let value := match name.dropWhile (· != '=') with
        | [] => none
        | _ :: value => some (String.ofList value)
      some (String.ofList (name.takeWhile (· != '=')), value)
  | _ => none

/-- True of arguments that may be the value of the option before them. -/
def isSeparateValue (argument : String) : Bool :=
  argument == "-" || !argument.startsWith "-"

def collect? (table : OptionTable) (given : Given) : List String → Option Given
  | [] => some given
  | argument :: rest =>
      if argument = "--" then if rest = [] then some given else none
      else
        match splitLong? argument with
        | some (name, inline) =>
            if table.valued.contains name then
              match inline, rest with
              | some value, rest =>
                  (given.addValue? name value).bind fun given => collect? table given rest
              | none, value :: rest =>
                  if isSeparateValue value then
                    (given.addValue? name value).bind fun given => collect? table given rest
                  else none
              | none, [] => none
            else if table.flags.contains name ∧ inline = none then
              (given.addFlag? name).bind fun given => collect? table given rest
            else none
        | none =>
            match table.short.lookup argument with
            | some name => (given.addFlag? name).bind fun given => collect? table given rest
            | none => none

def pathValue? (given : Given) (name : String) : Option (Option String) :=
  match given.value? name with
  | none => some none
  | some "" => none
  | some path => some (some path)

def defaultSettingsPath : String := "settings.toml"

def defaultRunSecs : Nat := 30

def alliance? (name : String) : Option Alliance :=
  if name = "red" then some .red
  else if name = "blue" then some .blue
  else if name = "unknown" then some .unknown
  else none

def zone? : Option String → Option Zone
  | none => some .center
  | some name =>
      if name = "left" then some .left
      else if name = "center" then some .center
      else if name = "right" then some .right
      else none

def runSecs? : Option String → Option Nat
  | none => some defaultRunSecs
  | some text => Number.unsigned? (2 ^ 64) text

def checkOptions : OptionTable := ⟨["run", "document", "settings"], ["json"], []⟩

def runOptions : OptionTable :=
  ⟨["run", "alliance", "zone", "settings", "document", "max-run-secs"], [], []⟩

def initSettingsOptions : OptionTable := ⟨["settings"], ["force"], [("-f", "force")]⟩

/-- The command that arguments ask for; none if they are not understood. -/
def parse? : List String → Option Command
  | [] => none
  | name :: arguments =>
      if name = "check" then do
        let given ← collect? checkOptions Given.none arguments
        let selector ← given.value? "run"
        let document ← pathValue? given "document"
        let settings ← pathValue? given "settings"
        some (.check selector document (settings.getD defaultSettingsPath) (given.hasFlag "json"))
      else if name = "run" then do
        let given ← collect? runOptions Given.none arguments
        let selector ← given.value? "run"
        let alliance ← (given.value? "alliance").bind alliance?
        let zone ← zone? (given.value? "zone")
        let settings ← pathValue? given "settings"
        let document ← pathValue? given "document"
        let maxRunSecs ← runSecs? (given.value? "max-run-secs")
        some (.run selector alliance zone (settings.getD defaultSettingsPath) document maxRunSecs)
      else if name = "init-settings" then do
        let given ← collect? initSettingsOptions Given.none arguments
        let settings ← pathValue? given "settings"
        some (.initSettings (given.hasFlag "force") (settings.getD defaultSettingsPath))
      else none

def usage : String :=
  "usage: check --run RUN [--document PATH] [--settings PATH] [--json]\n" ++
  "       run --run RUN --alliance red|blue|unknown [--zone left|center|right]\n" ++
  "           [--settings PATH] [--document PATH] [--max-run-secs SECS]\n" ++
  "       init-settings [--force] [--settings PATH]\n"

end RobotRoutine.CommandLine
