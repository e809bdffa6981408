import RobotRoutine.Xml.Reference
import RobotRoutine.Xml.Tree

/-!
Reading a document as an element tree.

The tokens are taken one by one while the elements that are still open wait on a stack.  A document
is well formed if every tag is closed by its own name, there is one root, every namespace that is
used has been declared and no element has two attributes of one name.
-/

namespace RobotRoutine.Xml

/-- The namespace that the space `xml` always stands for. -/
def xmlNamespace : String := "http://www.w3.org/XML/1998/namespace"

/-- The namespace of namespace declarations, which nothing may be bound to. -/
def declarationNamespace : String := "http://www.w3.org/2000/xmlns/"

/-- The names that namespaces go by, the innermost first; the empty name is the default. -/
abbrev Scope := List (String × String)

/-- The declarations and the other attributes of a tag, with their values. -/
structure Declared where
  scope : Scope
  others : List (RawAttribute × String)

def Declared.add (declared : Declared) (a : RawAttribute) (value : String) : Attempt Declared :=
  let refuse (flaw : Flaw) : Attempt Declared := .error (.flaw flaw a.place)
  if a.name.space == "xmlns" then
    if value == declarationNamespace then refuse .declarationNamespace
    else if a.name.name == "xml" then
      if value == xmlNamespace then .ok declared else refuse .xmlSpace
    else if value == xmlNamespace then refuse .xmlNamespace
    else if (declared.scope.lookup a.name.name).isSome then refuse (.repeatedSpace a.name.name)
    else .ok { declared with scope := declared.scope ++ [(a.name.name, value)] }
  else if a.name.name == "xmlns" then
    if value == xmlNamespace then refuse .xmlNamespace
    else if value == declarationNamespace then refuse .declarationNamespace
    else .ok { declared with scope := declared.scope ++ [("", value)] }
  else .ok { declared with others := declared.others ++ [(a, value)] }

/-- The rest of a tag behind its name, with a bound on the number of its attributes: at least one
blank stands before each.  The flag tells an empty element from an opened one.  A document may end
just behind the name or an attribute; then the tag comes to nothing. -/
def readTag (declared : Declared) :
    Nat → List Char → Attempt (Option (Declared × Bool) × List Char)
  | _, [] => .ok (none, [])
  | 0, cs => .ok (none, cs)
  | bound + 1, cs =>
      match skipSpaces cs with
      | [] => .error .endOfText
      | '>' :: rest => .ok (some (declared, false), rest)
      | '/' :: rest => (demandChar '>' rest).map fun rest => (some (declared, true), rest)
      | c :: here =>
          if cs.head?.any isSpace then do
            let (a, rest) ← scanAttribute (c :: here)
            let declared ← declared.add a (← a.resolved)
            readTag declared bound rest
          else flawAt (.otherKind "a whitespace" c) (c :: here)

def attributeSpace (scope : Scope) (a : RawAttribute) : Attempt (Option String) :=
  if a.name.space == "xml" then .ok (some xmlNamespace)
  else if a.name.space.isEmpty then .ok none
  else
    match scope.lookup a.name.space with
    | some space => .ok (some space)
    | none => .error (.flaw (.unknownSpace a.name.space) a.place)

/-- The attributes of a tag, each in its namespace, no two of them alike. -/
def resolveAttributes (scope : Scope) (others : List (RawAttribute × String)) :
    Attempt (List Attribute) :=
  others.foldlM (fun resolved (a, value) => do
    let space ← attributeSpace scope a
    if resolved.any fun known => known.space == space && known.name == a.name.name then
      .error (.flaw (.repeatedAttribute a.name.name) a.place)
    else pure (resolved ++ [⟨space, a.name.name, value⟩])) []

/-- True of an element name whose namespace is declared, or that has none. -/
def isDeclared (scope : Scope) (space : String) : Bool :=
  space.isEmpty || (scope.lookup space).isSome

/-- An element that is still open, its children so far in reverse. -/
structure OpenElement where
  name : QualifiedName
  attributes : List Attribute
  scope : Scope
  children : List Node

/-- The open elements, the innermost first, and the root once it is closed. -/
structure Builder where
  opened : List OpenElement
  root : Option Element

namespace Builder

def empty : Builder := ⟨[], none⟩

def addNode (builder : Builder) (node : Node) : Builder :=
  match builder.opened with
  | [] => builder
  | innermost :: outer =>
      { builder with opened := { innermost with children := node :: innermost.children } :: outer }

/-- Puts a closed element into the one around it, or makes it the root. -/
def addElement (builder : Builder) (element : Element) : Builder :=
  if builder.opened.isEmpty then { builder with root := some element }
  else builder.addNode (.element element.name element.attributes element.children)

/-- Opens the element whose name stands at a place, with what its tag declares. -/
def openElement (builder : Builder) (name : QualifiedName) (place : Nat) (declared : Declared)
    (isEmpty : Bool) : Attempt Builder := do
  let outer := (builder.opened.head?.map (·.scope)).getD []
  let scope := declared.scope ++ outer
  let attributes ← resolveAttributes scope declared.others
  if !isDeclared scope name.space then .error (.flaw (.unknownSpace name.space) place)
  else if isEmpty then pure (builder.addElement ⟨name.name, attributes, []⟩)
  else pure { builder with opened := ⟨name, attributes, scope, []⟩ :: builder.opened }

/-- Reads the tag of an element, whose name stands at a place, from behind its name. -/
def readElement (builder : Builder) (name : QualifiedName) (place : Nat) (cs : List Char) :
    Attempt (Builder × List Char) :=
  if name.space == "xmlns" then .error (.flaw .declarationSpace place)
  else do
    match ← readTag ⟨[], []⟩ (cs.length + 1) cs with
    | (some (declared, isEmpty), rest) =>
        let builder ← builder.openElement name place declared isEmpty
        pure (builder, rest)
    | (none, rest) => pure (builder, rest)

/-- Closes the innermost element, which must have the name of the closing tag at a place. -/
def closeTag (builder : Builder) (name : QualifiedName) (place : Nat) : Attempt Builder :=
  match builder.opened with
  | innermost :: outer =>
      if innermost.name == name then
        .ok ({ builder with opened := outer }.addElement
          ⟨name.name, innermost.attributes, innermost.children.reverse⟩)
      else .error (.flaw (.closingTag innermost.name.text name.text) place)
  | [] => .ok builder

/-- Takes the token that begins at a place, and what more of its tag is left. -/
def take (builder : Builder) (token : Token) (place : Nat) (rest : List Char) :
    Attempt (Builder × List Char) :=
  match token with
  | .tagName name => builder.readElement name (place - 1) rest
  | .endTag name => (builder.closeTag name place).map (·, rest)
  | .text content =>
      (resolvedText rest.length content).map fun text => (builder.addNode (.text text), rest)
  | .characterData content => .ok (builder.addNode (.text (characterText content)), rest)
  | .comment content => .ok (builder.addNode (.comment (String.ofList content)), rest)
  | .instruction content => .ok (builder.addNode (.instruction (String.ofList content)), rest)

/-- Takes tokens until no element is open or nothing is left, with a bound on their number. -/
def readContent (builder : Builder) : Nat → List Char → Attempt (Builder × List Char)
  | 0, cs => .ok (builder, cs)
  | bound + 1, cs =>
      if builder.opened.isEmpty || cs.isEmpty then .ok (builder, cs)
      else do
        let (token, rest) ← scanToken cs
        let (builder, rest) ← builder.take token cs.length rest
        readContent builder bound rest

end Builder

/-- The root of a document with all that it holds, if a tag comes next. -/
def readRoot (cs : List Char) : Attempt (Builder × List Char) :=
  match cs with
  | '<' :: rest => do
      let (name, tag) ← demandName qualifiedName? rest
      let (builder, rest) ← Builder.empty.readElement name rest.length tag
      builder.readContent (rest.length + 1) rest
  | _ => .ok (Builder.empty, cs)

/-- The root element of a document, which stands between blanks, comments and instructions. -/
def readDocument (cs : List Char) : Attempt Element := do
  let rest ← declaration (skipByteOrderMark cs)
  let rest ← skipMiscellany (rest.length + 1) rest
  if (expect? "<!DOCTYPE".toList rest).isSome then .error .documentType
  else
    let (builder, rest) ← readRoot rest
    let rest ← skipMiscellany (rest.length + 1) rest
    if !rest.isEmpty then flawAt .unknownToken rest
    else if !builder.opened.isEmpty then .error .unclosedRoot
    else
      match builder.root with
      | some root => pure root
      | none => .error .noRoot

/-- The root element of a document, or why the document is not well formed. -/
def read (text : String) : Except (Malformed Position) Element :=
  (readDocument text.toList).mapError (Malformed.locate text.toList)

end RobotRoutine.Xml
