import RobotRoutine.Toml.Grammar

/-!
Reading settings files.

The statements of a file are carried out one after the other: a header opens a table, and what
follows goes into that table.
-/

namespace RobotRoutine.Toml

/-- The tables read so far, and the keys to the one that is open. -/
structure ReaderState where
  root : Members
  current : List String

def ReaderState.initial : ReaderState := ⟨[], []⟩

def Statement.carryOut? (state : ReaderState) : Statement → Option ReaderState
  | .openTable path =>
      (Members.within? false (fun _ => Members.openTable? path.key) path.parents .explicit
        state.root).map fun root => ⟨root, path.keys⟩
  | .openItem path =>
      (Members.within? false (fun _ => Members.openItem? path.key) path.parents .explicit
        state.root).map fun root => ⟨root, path.keys⟩
  | .assign path value =>
      (Members.within? false (Members.insert? path value) state.current .explicit
        state.root).map fun root => { state with root }

def carryOutAll? (state : ReaderState) : List Statement → Option ReaderState
  | [] => some state
  | statement :: rest => (statement.carryOut? state).bind fun state => carryOutAll? state rest

def dropMark : List Char → List Char
  | c :: rest => if c.toNat == 0xFEFF then rest else c :: rest
  | [] => []

def read? (text : String) : Option (List (String × Value)) := do
  let cs := dropMark text.toList
  let statements ← readStatements (cs.length + 1) cs
  let state ← carryOutAll? ReaderState.initial statements
  some (memberValues state.root)

end RobotRoutine.Toml
