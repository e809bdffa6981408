import RobotRoutine.Xml.Malformed
import RobotRoutine.Xml.Name

/-!
The markup of a document as tokens.

Each scanner takes the characters that are left and gives what it has read and the characters after
it, or the first flaw.  The start of a tag is a token of its own; its attributes are read one by
one.
-/

namespace RobotRoutine.Xml

/-- What a reader gives: its result, or why there is none.  The result of a scanner is what it has
read and what is left. -/
abbrev Attempt (α : Type) := Except (Malformed Nat) α

def flawAt {α : Type} (flaw : Flaw) (left : List Char) : Attempt α :=
  .error (.flaw flaw left.length)

/-- A name with the part before its colon; the part is empty if there is none. -/
structure QualifiedName where
  space : String
  name : String
  deriving DecidableEq, Repr

def QualifiedName.text (name : QualifiedName) : String :=
  if name.space.isEmpty then name.name else name.space ++ ":" ++ name.name

/-- An attribute as it is written, its references not yet resolved. -/
structure RawAttribute where
  name : QualifiedName
  value : List Char
  /-- The number of characters from the name on. -/
  place : Nat
  /-- The number of characters behind the value. -/
  behind : Nat

inductive Token where
  | tagName (name : QualifiedName)
  | endTag (name : QualifiedName)
  | text (content : List Char)
  | characterData (content : List Char)
  | comment (content : List Char)
  | instruction (content : List Char)

def expect? : List Char → List Char → Option (List Char)
  | [], cs => some cs
  | e :: es, c :: cs => if e == c then expect? es cs else none
  | _ :: _, [] => none

def demand (mark : List Char) (cs : List Char) : Attempt (List Char) :=
  match expect? mark cs with
  | some rest => .ok rest
  | none => flawAt (.missing (String.ofList mark)) cs

def demandChar (expected : Char) : List Char → Attempt (List Char)
  | [] => .error .endOfText
  | c :: rest => if c == expected then .ok rest else flawAt (.mismatch expected c) (c :: rest)

def skipSpaces (cs : List Char) : List Char := cs.dropWhile isSpace

/-- The characters up to a closing mark and what is left after it; all must be allowed. -/
def upTo (close : List Char) : List Char → Attempt (List Char × List Char)
  | [] => flawAt (.missing (String.ofList close)) []
  | c :: cs =>
      match expect? close (c :: cs) with
      | some rest => .ok ([], rest)
      | none =>
          if isAllowed c then (upTo close cs).map fun (taken, rest) => (c :: taken, rest)
          else flawAt (.forbidden c) (c :: cs)

/-- The characters up to the first one that stops, which is left; all must be allowed. -/
def spanUntil (stops : Char → Bool) : List Char → Attempt (List Char × List Char)
  | [] => .ok ([], [])
  | c :: cs =>
      if !isAllowed c then flawAt (.forbidden c) (c :: cs)
      else if stops c then .ok ([], c :: cs)
      else (spanUntil stops cs).map fun (taken, rest) => (c :: taken, rest)

def occursIn (part : List Char) : List Char → Bool
  | [] => part.isEmpty
  | c :: cs => part.isPrefixOf (c :: cs) || occursIn part cs

def name? (cs : List Char) : Option (String × List Char) :=
  match cs with
  | c :: _ =>
      if isNameStart c then some (String.ofList (cs.takeWhile isNameChar), cs.dropWhile isNameChar)
      else none
  | [] => none

/-- A name of at most two parts with a colon between them.  Each part starts as a name does; only
the first may be empty. -/
def qualifiedName? (cs : List Char) : Option (QualifiedName × List Char) :=
  let written := cs.takeWhile isNameChar
  let rest := cs.dropWhile isNameChar
  let before := written.takeWhile (· != ':')
  let startsWell (part : List Char) := part.head?.all isNameStart
  match written.dropWhile (· != ':') with
  | [] =>
      if before.isEmpty || !startsWell before then none
      else some (⟨"", String.ofList before⟩, rest)
  | _ :: after =>
      if after.isEmpty || after.contains ':' || !startsWell before || !startsWell after then none
      else some (⟨String.ofList before, String.ofList after⟩, rest)

def demandName {α : Type} (name? : List Char → Option (α × List Char)) (cs : List Char) :
    Attempt (α × List Char) :=
  match name? cs with
  | some found => .ok found
  | none => flawAt .invalidName cs

/-- An equals sign, which may have blanks around it, and a quoted value without a less-than sign. -/
def scanQuotedValue (cs : List Char) : Attempt (List Char × List Char) := do
  let rest ← demandChar '=' (skipSpaces cs)
  match skipSpaces rest with
  | [] => .error .endOfText
  | quote :: rest =>
      if quote.toNat == 0x22 || quote.toNat == 0x27 then
        let (value, rest) ← spanUntil (fun c => c == quote || c == '<') rest
        let rest ← demandChar quote rest
        pure (value, rest)
      else flawAt (.otherKind "a quote" quote) (quote :: rest)

def scanAttribute (cs : List Char) : Attempt (RawAttribute × List Char) := do
  let (name, rest) ← demandName qualifiedName? cs
  let (value, rest) ← scanQuotedValue rest
  pure (⟨name, value, cs.length, rest.length + 1⟩, rest)

/-- The tag that closes an element, after its less-than sign and slash. -/
def scanEndTag (cs : List Char) : Attempt (Token × List Char) := do
  let (name, rest) ← demandName qualifiedName? cs
  let rest ← demandChar '>' (skipSpaces rest)
  pure (.endTag name, rest)

def commentMark : List Char := ['<', '!', '-', '-']

def instructionMark : List Char := ['<', '?']

/-- A comment, which begins at `start`, after its opening mark: no two hyphens may meet inside it or
at its end. -/
def scanComment (start cs : List Char) : Attempt (Token × List Char) := do
  let (content, rest) ← upTo ['-', '-', '>'] cs
  if occursIn ['-', '-'] content || content.getLast? == some '-' then flawAt .hyphens start
  else pure (.comment content, rest)

/-- A processing instruction, which begins at `start`, after its opening mark.  A declaration is
none. -/
def scanInstruction (start cs : List Char) : Attempt (Token × List Char) := do
  if (expect? "xml ".toList cs).isSome then flawAt .lateDeclaration start
  else
    let (_, rest) ← demandName name? cs
    let (content, rest) ← upTo ['?', '>'] (skipSpaces rest)
    pure (.instruction content, rest)

def scanCharacterData (cs : List Char) : Attempt (Token × List Char) := do
  let (content, rest) ← upTo "]]>".toList cs
  pure (.characterData content, rest)

/-- Text up to the next markup; it may not hold the mark that ends character data. -/
def scanText (cs : List Char) : Attempt (Token × List Char) := do
  let (content, rest) ← spanUntil (· == '<') cs
  if occursIn "]]>".toList content then flawAt .strayEnd rest else pure (.text content, rest)

/-- The next token within an element, whose text is not at its end. -/
def scanToken (cs : List Char) : Attempt (Token × List Char) :=
  match cs with
  | ['<'] => flawAt .unknownToken cs
  | '<' :: '!' :: rest =>
      match expect? ['-', '-'] rest, expect? "[CDATA[".toList rest with
      | some rest, _ => scanComment cs rest
      | none, some rest => scanCharacterData rest
      | none, none => flawAt .unknownToken cs
  | '<' :: '?' :: rest => scanInstruction cs rest
  | '<' :: '/' :: rest => scanEndTag rest
  | '<' :: rest => (demandName qualifiedName? rest).map fun (name, rest) => (.tagName name, rest)
  | _ => scanText cs

/-- What is left after the blanks, comments and instructions outside the root, of which there are
at most `bound`. -/
def skipMiscellany : Nat → List Char → Attempt (List Char)
  | 0, cs => .ok cs
  | bound + 1, cs => do
      let here := skipSpaces cs
      match expect? commentMark here, expect? instructionMark here with
      | some content, _ =>
          let (_, rest) ← scanComment here content
          skipMiscellany bound rest
      | none, some content =>
          let (_, rest) ← scanInstruction here content
          skipMiscellany bound rest
      | none, none => .ok here

/-- What is left after the blanks that set one part of a declaration apart from the next. -/
def skipPartEnd (cs : List Char) : Attempt (List Char) :=
  match cs with
  | [] => .ok []
  | c :: _ =>
      if isSpace c || (expect? ['?', '>'] cs).isSome then .ok (skipSpaces cs)
      else flawAt (.otherKind "a whitespace" c) cs

/-- What is left after a part of a declaration that begins with this name and after the blanks
behind it, or all if another name stands there. -/
def declarationPart (name : List Char) (cs : List Char) : Attempt (List Char) :=
  if (expect? name cs).isSome then do
    let (_, rest) ← scanAttribute cs
    skipPartEnd rest
  else .ok cs

/-- What is left after the declaration at the start of a document, if there is one: a version, and
perhaps an encoding and a word on other files. -/
def declaration (cs : List Char) : Attempt (List Char) :=
  match expect? "<?xml ".toList cs with
  | none => .ok cs
  | some rest => do
      let rest := skipSpaces rest
      let _ ← demand "version".toList rest
      let rest ← declarationPart "version".toList rest
      let rest ← declarationPart "encoding".toList rest
      let rest ←
        if (expect? "standalone".toList rest).isSome then (scanAttribute rest).map (·.2)
        else .ok rest
      demand ['?', '>'] (skipSpaces rest)

/-- What is left after the mark of the byte order, if it comes first. -/
def skipByteOrderMark : List Char → List Char
  | c :: cs => if c.toNat == 0xFEFF then cs else c :: cs
  | [] => []

end RobotRoutine.Xml
