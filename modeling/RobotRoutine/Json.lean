import RobotRoutine.Number.Layout

/-!
JSON values and their written form.

Values are written over several lines, two blanks for each level; an empty array or object stays on
its line.  Members of an object keep their order.
-/

namespace RobotRoutine

inductive Json where
  | null
  | integer (value : Int)
  | number (value : Binary64)
  | string (value : String)
  | array (items : List Json)
  | object (members : List (String × Json))

namespace Json

def hexDigit (n : Nat) : Char := Nat.digitChar (n % 16)

/-- A character as it stands in a string: quote, backslash and control characters are escaped, the
common ones by a letter. -/
def escape (c : Char) : String :=
  if c == Char.ofNat 0x22 then "\\\""
  else if c == Char.ofNat 0x5C then "\\\\"
  else if c == '\n' then "\\n"
  else if c == '\r' then "\\r"
  else if c == '\t' then "\\t"
  else if c == Char.ofNat 0x08 then "\\b"
  else if c == Char.ofNat 0x0C then "\\f"
  else if c.toNat < 0x20 then
    "\\u00" ++ String.ofList [hexDigit (c.toNat / 16), hexDigit c.toNat]
  else String.singleton c

def quoted (text : String) : String :=
  "\"" ++ String.join (text.toList.map escape) ++ "\""

def newLine (level : Nat) : String :=
  "\n" ++ String.ofList (List.replicate (2 * level) ' ')

mutual

/-- The written form of a value whose first line stands at a level. -/
def render (level : Nat) : Json → String
  | null => "null"
  | integer value => toString value
  | number value => value.jsonText
  | string value => quoted value
  | array [] => "[]"
  | array (first :: rest) =>
      "[" ++ newLine (level + 1) ++ render (level + 1) first ++ renderItems level rest
  | object [] => "\x7b\x7d"
  | object ((key, first) :: rest) =>
      "\x7b" ++ newLine (level + 1) ++ quoted key ++ ": " ++ render (level + 1) first ++
        renderMembers level rest

def renderItems (level : Nat) : List Json → String
  | [] => newLine level ++ "]"
  | item :: rest =>
      "," ++ newLine (level + 1) ++ render (level + 1) item ++ renderItems level rest

def renderMembers (level : Nat) : List (String × Json) → String
  | [] => newLine level ++ "\x7d"
  | (key, value) :: rest =>
      "," ++ newLine (level + 1) ++ quoted key ++ ": " ++ render (level + 1) value ++
        renderMembers level rest

end

def pretty (value : Json) : String := value.render 0

end Json

end RobotRoutine
