import RobotRoutine.Toml.Value

/-!
Tables under construction.

A settings file builds its tables piece by piece: by headers, by dotted keys and, in passing, on the
way to either.  Where a table came from decides who may add to it.  A header opens a table once,
dotted keys add only to tables that dotted keys made, and a value written in one piece is closed.
-/

namespace RobotRoutine.Toml

/-- How a table came to be. -/
inductive Origin where
  /-- In passing, on the way to a header's table. -/
  | passing
  /-- By a dotted key. -/
  | dotted
  /-- By a header of its own, or as the table that all others are in. -/
  | explicit
  deriving DecidableEq, Repr

inductive Node where
  | closed (value : Value)
  | table (origin : Origin) (members : List (String × Node))
  /-- Tables in a row, each opened by a header; only the last is open. -/
  | tables (earlier : List (List (String × Node))) (last : List (String × Node))

/-- The members of an open table, in the order of their first appearance. -/
abbrev Members := List (String × Node)

/-- The keys from a table to a member of it or of a table inside. -/
structure KeyPath where
  parents : List String
  key : String
  deriving DecidableEq, Repr

def KeyPath.keys (path : KeyPath) : List String := path.parents ++ [path.key]

namespace Members

/-- Puts a node under a key, in the place of the one that is there. -/
def put (key : String) (node : Node) : Members → Members
  | [] => [(key, node)]
  | (known, old) :: rest =>
      if known = key then (key, node) :: rest else (known, old) :: put key node rest

/-- Changes the table that a path of keys leads to; missing tables on the way are made. -/
def within? (dotted : Bool) (change : Origin → Members → Option Members) :
    List String → Origin → Members → Option Members
  | [], origin, members => change origin members
  | key :: path, _, members =>
      match members.lookup key with
      | none =>
          let made := if dotted then .dotted else .passing
          (within? dotted change path made []).map fun inner =>
            members ++ [(key, .table made inner)]
      | some (.closed _) => none
      | some (.table origin inner) =>
          if dotted && origin == .explicit then none
          else
            (within? dotted change path origin inner).map fun inner =>
              put key (.table origin inner) members
      | some (.tables earlier last) =>
          (within? dotted change path .explicit last).map fun last =>
            put key (.tables earlier last) members

def addValue? (path : KeyPath) (value : Value) (origin : Origin) (members : Members) :
    Option Members :=
  if (origin == .dotted) == path.parents.isEmpty then none
  else
    match members.lookup path.key with
    | some _ => none
    | none => some (members ++ [(path.key, .closed value)])

def insert? (path : KeyPath) (value : Value) (origin : Origin) (members : Members) :
    Option Members :=
  within? true (addValue? path value) path.parents origin members

/-- Opens the table with a key: a new one, or one that was made in passing. -/
def openTable? (key : String) (members : Members) : Option Members :=
  match members.lookup key with
  | none => some (members ++ [(key, .table .explicit [])])
  | some (.table .passing inner) => some (put key (.table .explicit inner) members)
  | some _ => none

def openItem? (key : String) (members : Members) : Option Members :=
  match members.lookup key with
  | none => some (members ++ [(key, .tables [] [])])
  | some (.tables earlier last) => some (put key (.tables (earlier ++ [last]) []) members)
  | some _ => none

end Members

mutual

def Node.value : Node → Value
  | .closed value => value
  | .table _ members => .table (memberValues members)
  | .tables earlier last => .array (rowValues earlier ++ [.table (memberValues last)])

def memberValues : List (String × Node) → List (String × Value)
  | [] => []
  | (key, node) :: rest => (key, node.value) :: memberValues rest

def rowValues : List (List (String × Node)) → List Value
  | [] => []
  | members :: rest => .table (memberValues members) :: rowValues rest

end

end RobotRoutine.Toml
