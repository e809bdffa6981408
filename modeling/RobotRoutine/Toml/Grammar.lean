import RobotRoutine.Toml.Scalar
import RobotRoutine.Toml.Table

/-!
The grammar of settings files.

Blanks never end a line; within arrays and inline tables line ends and comments count as blanks.
Every loop is granted as many turns as there are characters, and each turn takes at least one.
-/

namespace RobotRoutine.Toml

def isBlankInLine (c : Char) : Bool := c == ' ' || c == '\t'

def skipBlanks (cs : List Char) : List Char := cs.dropWhile isBlankInLine

/-- What follows a line end, if one comes first; the end of the file ends the last line. -/
def afterLineEnd? : List Char → Option (List Char)
  | [] => some []
  | '\n' :: rest => some rest
  | '\r' :: '\n' :: rest => some rest
  | _ => none

/-- What follows the rest of a line that holds nothing but blanks and a comment. -/
def endLine? (cs : List Char) : Option (List Char) :=
  match skipBlanks cs with
  | '#' :: rest => afterLineEnd? (rest.dropWhile isPlain)
  | rest => afterLineEnd? rest

def skipLayout (inComment : Bool) : List Char → Option (List Char)
  | [] => some []
  | c :: rest =>
      if c == '\n' then skipLayout false rest
      else if c == '\r' then if rest.head? = some '\n' then skipLayout inComment rest else none
      else if inComment then if isPlain c then skipLayout true rest else none
      else if isBlankInLine c then skipLayout false rest
      else if c == '#' then skipLayout true rest
      else some (c :: rest)

/-! Keys. -/

def isBareChar (c : Char) : Bool := c.isAlphanum || c == '_' || c == '-'

def readKey (cs : List Char) : Option (String × List Char) :=
  match cs with
  | [] => none
  | c :: _ =>
      if c == doubleQuote || c == singleQuote then
        if startsClosing doubleQuote cs || startsClosing singleQuote cs then none
        else readQuoted cs
      else if isBareChar c then
        some (String.ofList (cs.takeWhile isBareChar), cs.dropWhile isBareChar)
      else none

def readKeysOnto (parents : List String) : Nat → List Char → Option (KeyPath × List Char)
  | 0, _ => none
  | turns + 1, cs => do
      let (key, rest) ← readKey cs
      match skipBlanks rest with
      | '.' :: rest => readKeysOnto (parents ++ [key]) turns (skipBlanks rest)
      | rest => some (⟨parents, key⟩, rest)

/-- How deep arrays and inline tables may be nested, and how many keys may stand in a path. -/
def nestingLimit : Nat := 80

/-- Keys with points between them, and what follows the blanks behind them. -/
def readKeys (cs : List Char) : Option (KeyPath × List Char) :=
  (readKeysOnto [] (cs.length + 1) cs).filter fun (path, _) => path.parents.length < nestingLimit

def readAssigned (cs : List Char) : Option (KeyPath × List Char) := do
  let (path, rest) ← readKeys cs
  match rest with
  | '=' :: rest => some (path, skipBlanks rest)
  | _ => none

/-! Values. -/

mutual

/-- A value, and what follows it.  `depth` more arrays and tables may be nested. -/
def readValue (depth : Nat) : Nat → List Char → Option (Value × List Char)
  | 0, _ => none
  | turns + 1, cs =>
      match cs with
      | '[' :: rest =>
          match depth with
          | 0 => none
          | depth + 1 => readItems depth [] turns rest
      | '\x7b' :: rest =>
          match depth with
          | 0 => none
          | depth + 1 => readMembers depth [] turns rest
      | c :: rest =>
          if c == doubleQuote || c == singleQuote then
            (readQuoted (c :: rest)).map fun (text, rest) => (.string text, rest)
          else
            let (token, rest) := spanScalar (c :: rest)
            (scalar? token).map fun value => (value, rest)
      | [] => none

/-- The items of an array behind those already read, and what follows its end. -/
def readItems (depth : Nat) (items : List Value) : Nat → List Char → Option (Value × List Char)
  | 0, _ => none
  | turns + 1, cs => do
      let cs ← skipLayout false cs
      match cs with
      | ']' :: rest => some (.array items, rest)
      | cs =>
          let (item, rest) ← readValue depth turns cs
          let rest ← skipLayout false rest
          match rest with
          | ',' :: rest => readItems depth (items ++ [item]) turns rest
          | ']' :: rest => some (.array (items ++ [item]), rest)
          | _ => none

/-- The members of an inline table behind those already read, and what follows its end. -/
def readMembers (depth : Nat) (members : Members) : Nat → List Char → Option (Value × List Char)
  | 0, _ => none
  | turns + 1, cs => do
      let cs ← skipLayout false cs
      match cs with
      | '\x7d' :: rest => some (.table (memberValues members), rest)
      | cs =>
          let (path, rest) ← readAssigned cs
          let (value, rest) ← readValue depth turns rest
          let members ← Members.insert? path value .explicit members
          let rest ← skipLayout false rest
          match rest with
          | ',' :: rest => readMembers depth members turns rest
          | '\x7d' :: rest => some (.table (memberValues members), rest)
          | _ => none

end

/-! Lines. -/

inductive Statement where
  | openTable (path : KeyPath)
  | openItem (path : KeyPath)
  | assign (path : KeyPath) (value : Value)

def readHeader (isItem : Bool) (cs : List Char) : Option (Statement × List Char) := do
  let (path, rest) ← readKeys (skipBlanks cs)
  match isItem, rest with
  | false, ']' :: rest => some (.openTable path, rest)
  | true, ']' :: ']' :: rest => some (.openItem path, rest)
  | _, _ => none

def readStatement (cs : List Char) : Option (Statement × List Char) :=
  match cs with
  | '[' :: '[' :: rest => readHeader true rest
  | '[' :: rest => readHeader false rest
  | cs => do
      let (path, rest) ← readAssigned cs
      let (value, rest) ← readValue nestingLimit (2 * rest.length + 2) rest
      some (.assign path value, rest)

def readStatements : Nat → List Char → Option (List Statement)
  | 0, _ => none
  | turns + 1, cs => do
      match cs with
      | [] => some []
      | cs =>
          match endLine? cs with
          | some rest => readStatements turns rest
          | none =>
              let (statement, rest) ← readStatement (skipBlanks cs)
              let rest ← endLine? rest
              (readStatements turns rest).map (statement :: ·)

end RobotRoutine.Toml
