import RobotRoutine.Number.Binary64

/-!
What a run is configured with.

A configuration comes from one section of an action document: what the camera looks at, where the
robot starts, the steps of the run and, if a step stands for a choice, the steps for each zone.
-/

namespace RobotRoutine

inductive Zone where
  | left
  | center
  | right
  deriving DecidableEq, Repr

namespace Zone

def all : List Zone := [left, center, right]

def name : Zone → String
  | left => "LEFT"
  | center => "CENTER"
  | right => "RIGHT"

def ofName? (text : String) : Option Zone :=
  all.find? fun zone => zone.name == text

theorem mem_all (zone : Zone) : zone ∈ all := by
  cases zone <;> simp [all]

theorem ofName?_name (zone : Zone) : ofName? zone.name = some zone := by
  cases zone <;> decide

end Zone

inductive TagId where
  | blueTowerGoal
  | redTowerGoal
  | redAlliance
  | blueAlliance
  | frontWall
  deriving DecidableEq, Repr

namespace TagId

def all : List TagId := [blueTowerGoal, redTowerGoal, redAlliance, blueAlliance, frontWall]

def name : TagId → String
  | blueTowerGoal => "BLUE_TOWER_GOAL"
  | redTowerGoal => "RED_TOWER_GOAL"
  | redAlliance => "RED_ALLIANCE"
  | blueAlliance => "BLUE_ALLIANCE"
  | frontWall => "FRONT_WALL"

def ofName? (text : String) : Option TagId :=
  all.find? fun tag => tag.name == text

theorem ofName?_name (tag : TagId) : ofName? tag.name = some tag := by
  cases tag <;> decide

end TagId

inductive LogThreshold where
  | debug
  | verbose
  | veryVerbose
  deriving DecidableEq, Repr

namespace LogThreshold

def all : List LogThreshold := [debug, verbose, veryVerbose]

def code : LogThreshold → String
  | debug => "d"
  | verbose => "v"
  | veryVerbose => "vv"

def ofCode? (text : String) : Option LogThreshold :=
  all.find? fun threshold => threshold.code == text

def name : LogThreshold → String
  | debug => "debug"
  | verbose => "verbose"
  | veryVerbose => "very-verbose"

end LogThreshold

inductive Alliance where
  | red
  | blue
  | unknown
  deriving DecidableEq, Repr

def Alliance.name : Alliance → String
  | red => "RED"
  | blue => "BLUE"
  | unknown => "UNKNOWN"

structure Region where
  x : Int
  y : Int
  width : Int
  height : Int
  deriving DecidableEq, Repr

namespace Region

def empty : Region := ⟨0, 0, 0, 0⟩

def isEmpty (r : Region) : Bool := r.width == 0 || r.height == 0

end Region

structure Pose where
  x : Binary64
  y : Binary64
  heading : Binary64
  deriving DecidableEq

namespace Pose

/-- Equal in each of the three numbers. -/
def equals (p q : Pose) : Bool :=
  p.x.equals q.x && p.y.equals q.y && p.heading.equals q.heading

def equalsIfAny : Option Pose → Option Pose → Bool
  | none, none => true
  | some p, some q => p.equals q
  | _, _ => false

end Pose

/-- One element of an action sequence.  Attributes are kept in the order of their keys, one value
for each key. -/
structure ActionStep where
  name : String
  attributes : List (String × String)
  deriving DecidableEq, Repr

structure BranchTable where
  left : List ActionStep
  center : List ActionStep
  right : List ActionStep
  deriving DecidableEq, Repr

namespace BranchTable

def empty : BranchTable := ⟨[], [], []⟩

def get (table : BranchTable) : Zone → List ActionStep
  | .left => table.left
  | .center => table.center
  | .right => table.right

def set (table : BranchTable) (zone : Zone) (steps : List ActionStep) : BranchTable :=
  match zone with
  | .left => { table with left := steps }
  | .center => { table with center := steps }
  | .right => { table with right := steps }

theorem get_set_self (table : BranchTable) (zone : Zone) (steps : List ActionStep) :
    (table.set zone steps).get zone = steps := by
  cases zone <;> rfl

theorem get_set_of_ne {table : BranchTable} {zone other : Zone} {steps : List ActionStep}
    (different : other ≠ zone) : (table.set zone steps).get other = table.get other := by
  cases zone <;> cases other <;> first | rfl | exact absurd rfl different

end BranchTable

structure Configuration where
  loggingThreshold : Option LogThreshold
  regionOfInterest : Region
  tagsOfInterest : List TagId
  startingPose : Option Pose
  actions : List ActionStep
  branchTable : Option BranchTable
  deriving DecidableEq

/-- Equal in each part, where the numbers of a pose are compared as numbers. -/
def Configuration.equals (c d : Configuration) : Bool :=
  c.loggingThreshold == d.loggingThreshold && c.regionOfInterest == d.regionOfInterest &&
    c.tagsOfInterest == d.tagsOfInterest && Pose.equalsIfAny c.startingPose d.startingPose &&
    c.actions == d.actions && c.branchTable == d.branchTable

end RobotRoutine
