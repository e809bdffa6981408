import RobotRoutine.Xml.Token

/-!
Character references and line ends.

A text is resolved to pieces: characters that were written and characters that a reference stands
for.  Only written line ends and blanks are normalised, so a reference is the way to keep one.
-/

namespace RobotRoutine.Xml

/-- A character, and whether it was written or referred to. -/
inductive Piece where
  | written (c : Char)
  | referred (c : Char)
  deriving DecidableEq, Repr

def digitInBase? (base : Nat) (c : Char) : Option Nat :=
  let n := c.toNat
  let value? :=
    if c.isDigit then some (n - 48)
    else if 'a'.toNat ≤ n && n ≤ 'f'.toNat then some (n - 'a'.toNat + 10)
    else if 'A'.toNat ≤ n && n ≤ 'F'.toNat then some (n - 'A'.toNat + 10)
    else none
  value?.filter (· < base)

/-- The character with a number, as a reference gives it: numbers that belong to no character give
the replacement character, numbers beyond 32 bits and characters that are not allowed give none. -/
def numberedChar? (n : Nat) : Option Char :=
  if UInt32.size ≤ n then none
  else
    let c := if n.isValidChar then Char.ofNat n else Char.ofNat 0xFFFD
    if isAllowed c then some c else none

/-- The character that a number in a base refers to, and what is left after its semicolon. -/
def numberReference? (base : Nat) (cs : List Char) : Option (Char × List Char) :=
  let isDigit (c : Char) := (digitInBase? base c).isSome
  let digits := cs.takeWhile isDigit
  match cs.dropWhile isDigit with
  | ';' :: rest =>
      if digits.isEmpty then none
      else
        let n := digits.foldl (fun n c => n * base + (digitInBase? base c).getD 0) 0
        (numberedChar? n).map fun c => (c, rest)
  | _ => none

def namedReferences : List (String × Char) :=
  [("amp", '&'), ("lt", '<'), ("gt", '>'), ("quot", Char.ofNat 0x22), ("apos", Char.ofNat 0x27)]

/-- The character that a name refers to, and what is left after its semicolon. -/
def namedReference (cs : List Char) : Except Flaw (Char × List Char) :=
  match name? cs with
  | some (name, ';' :: rest) =>
      match namedReferences.lookup name with
      | some c => .ok (c, rest)
      | none => .error (.unknownReference name)
  | _ => .error .malformedReference

/-- The character that a reference stands for, after its ampersand. -/
def reference (cs : List Char) : Except Flaw (Char × List Char) :=
  let numbered (found : Option (Char × List Char)) : Except Flaw (Char × List Char) :=
    match found with
    | some found => .ok found
    | none => .error .malformedReference
  match cs with
  | '#' :: 'x' :: rest => numbered (numberReference? 16 rest)
  | '#' :: rest => numbered (numberReference? 10 rest)
  | _ => namedReference cs

/-- The pieces of a text that has so many characters behind it, with a bound on their number. -/
def pieces (behind : Nat) : Nat → List Char → Attempt (List Piece)
  | _, [] => .ok []
  | 0, _ :: _ => .ok []
  | bound + 1, c :: cs =>
      if c == '&' then
        match reference cs with
        | .error flaw => .error (.flaw flaw (cs.length + 1 + behind))
        | .ok (referred, rest) => (pieces behind bound rest).map (.referred referred :: ·)
      else (pieces behind bound cs).map (.written c :: ·)

/-- The characters of an attribute value: every written line end or tabulator is a blank, a carriage
return together with the line feed after it. -/
def valueChars : List Piece → List Char
  | [] => []
  | .referred c :: rest => c :: valueChars rest
  | .written c :: rest =>
      if c == '\r' && rest.head? == some (.written '\n') then valueChars rest
      else if c == '\r' || c == '\n' || c == '\t' then ' ' :: valueChars rest
      else c :: valueChars rest

def heldReturn (held : Bool) : List Char := if held then ['\r'] else []

/-- The characters of a text.  A carriage return is held back until the next written character turns
it, and a line feed after it, into one line feed; beside a reference it stays as it is. -/
def textChars (held besideReference : Bool) : List Piece → List Char
  | [] => heldReturn held
  | .referred c :: rest =>
      heldReturn held ++
        if c == '\r' then textChars true true rest else c :: textChars false true rest
  | .written c :: rest =>
      if besideReference then
        heldReturn held ++
          if c == '\r' then textChars true false rest else c :: textChars false false rest
      else
        (if held then ['\n'] else []) ++
          if c == '\r' then
            if rest.isEmpty then ['\n'] else textChars true false rest
          else if held && c == '\n' then textChars false false rest
          else c :: textChars false false rest

def RawAttribute.resolved (a : RawAttribute) : Attempt String :=
  (pieces a.behind a.value.length a.value).map fun pieces => String.ofList (valueChars pieces)

/-- The text between two pieces of markup, as it is written, with so many characters behind it. -/
def resolvedText (behind : Nat) (cs : List Char) : Attempt String :=
  (pieces behind cs.length cs).map fun pieces => String.ofList (textChars false false pieces)

def characterText (cs : List Char) : String :=
  String.ofList (textChars false false (cs.map .written))

end RobotRoutine.Xml
