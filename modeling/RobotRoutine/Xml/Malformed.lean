/-!
What is wrong with a document that is not well formed.

Reading ends at the first flaw.  Readers know the place of a flaw as the number of characters from
there to the end of the document, since all they hold is what is left of it; in the end a place is
told as a line and a column.
-/

namespace RobotRoutine.Xml

structure Position where
  line : Nat
  column : Nat
  deriving DecidableEq, Repr

namespace Position

/-- The position just behind characters that start a text. -/
def after (characters : List Char) : Position where
  line := characters.count '\n' + 1
  column := (characters.reverse.takeWhile (· != '\n')).length + 1

def text (position : Position) : String := s!"{position.line}:{position.column}"

end Position

inductive Flaw where
  | invalidName
  | forbidden (c : Char)
  | mismatch (expected actual : Char)
  /-- A character that is none of a kind. -/
  | otherKind (expected : String) (actual : Char)
  | missing (mark : String)
  | lateDeclaration
  | hyphens
  | strayEnd
  | unknownToken
  | malformedReference
  | unknownReference (name : String)
  /-- A closing tag that does not belong to the innermost open element. -/
  | closingTag (expected actual : String)
  | unknownSpace (space : String)
  /-- The space of namespace declarations before the name of an element. -/
  | declarationSpace
  /-- A declaration that gives `xml` another namespace. -/
  | xmlSpace
  /-- A declaration that gives the namespace of `xml` another name. -/
  | xmlNamespace
  /-- A declaration that gives a name to the namespace of declarations. -/
  | declarationNamespace
  | repeatedSpace (space : String)
  | repeatedAttribute (name : String)
  deriving DecidableEq, Repr

/-- The character whose number is the first byte of the UTF-8 form of a character: that much is
shown of a character that was met in the place of another. -/
def leadingByte (c : Char) : Char :=
  let n := c.toNat
  if n < 0x80 then c
  else if n < 0x800 then Char.ofNat (0xC0 + n / 0x40)
  else if n < 0x10000 then Char.ofNat (0xE0 + n / 0x1000)
  else Char.ofNat (0xF0 + n / 0x40000)

/-- A forbidden character by its number; the number zero is written as a digit alone. -/
def forbiddenText (c : Char) : String :=
  if c.toNat = 0 then "\\0"
  else "\\u\x7b" ++ String.ofList (Nat.toDigits 16 c.toNat) ++ "\x7d"

def Flaw.text (position : Position) : Flaw → String
  | .invalidName => s!"invalid name token at {position.text}"
  | .forbidden c => s!"a non-XML character '{forbiddenText c}' found at {position.text}"
  | .mismatch expected actual =>
      s!"expected '{expected}' not '{leadingByte actual}' at {position.text}"
  | .otherKind expected actual =>
      s!"expected {expected} not '{leadingByte actual}' at {position.text}"
  | .missing mark => s!"expected '{mark}' at {position.text}"
  | .lateDeclaration => s!"unexpected XML declaration at {position.text}"
  | .hyphens => s!"comment at {position.text} contains '--'"
  | .strayEnd => s!"']]>' is not allowed inside a character data at {position.text}"
  | .unknownToken => s!"unknown token at {position.text}"
  | .malformedReference => s!"malformed entity reference at {position.text}"
  | .unknownReference name => s!"unknown entity reference '{name}' at {position.text}"
  | .closingTag expected actual =>
      s!"expected '{expected}' tag, not '{actual}' at {position.text}"
  | .unknownSpace space => s!"an unknown namespace prefix '{space}' at {position.text}"
  | .declarationSpace =>
      s!"the 'xmlns' prefix is used at {position.text}, but it must not be"
  | .xmlSpace => s!"'xml' namespace prefix mapped to wrong URI at {position.text}"
  | .xmlNamespace =>
      s!"the 'xml' namespace URI is used for not 'xml' prefix at {position.text}"
  | .declarationNamespace =>
      s!"the 'xmlns' URI is used at {position.text}, but it must not be declared"
  | .repeatedSpace space => s!"namespace '{space}' at {position.text} is already defined"
  | .repeatedAttribute name => s!"attribute '{name}' at {position.text} is already defined"

/-- Why a document is not well formed, with the places of flaws in a form of the reader's choice. -/
inductive Malformed (Place : Type) where
  | endOfText
  | documentType
  | noRoot
  | unclosedRoot
  | flaw (flaw : Flaw) (place : Place)
  deriving DecidableEq, Repr

namespace Malformed

/-- Turns numbers of characters up to the end of a document into positions. -/
def locate (document : List Char) : Malformed Nat → Malformed Position
  | endOfText => endOfText
  | documentType => documentType
  | noRoot => noRoot
  | unclosedRoot => unclosedRoot
  | flaw kind left => flaw kind (Position.after (document.take (document.length - left)))

def text : Malformed Position → String
  | endOfText => "unexpected end of stream"
  | documentType => "XML with DTD detected"
  | noRoot => "the document does not have a root node"
  | unclosedRoot => "the root node was opened but never closed"
  | flaw kind position => kind.text position

end Malformed

end RobotRoutine.Xml
