/-!
Element trees.

A document is read as a tree of elements with their attributes.  Text, comments and processing
instructions stay in the tree as nodes of their own.
-/

namespace RobotRoutine.Xml

/-- An attribute: the name of its namespace, if it is in one, its local name and its value. -/
structure Attribute where
  space : Option String
  name : String
  value : String
  deriving DecidableEq, Repr

/-- A node of an element tree.  An element is known by its local name. -/
inductive Node where
  | element (name : String) (attributes : List Attribute) (children : List Node)
  | text (content : String)
  | comment (content : String)
  | instruction (content : String)

structure Element where
  name : String
  attributes : List Attribute
  children : List Node

namespace Node

def element? : Node → Option Element
  | element name attributes children => some ⟨name, attributes, children⟩
  | _ => none

mutual

def textContent : Node → String
  | .element _ _ children => textContents children
  | .text content => content
  | .comment _ => ""
  | .instruction _ => ""

def textContents : List Node → String
  | [] => ""
  | node :: rest => node.textContent ++ textContents rest

end

end Node

namespace Element

/-- The children of an element that are elements, in document order. -/
def elements (e : Element) : List Element := e.children.filterMap Node.element?

def text (e : Element) : String := Node.textContents e.children

/-- The value of the first attribute with this name that is in no namespace. -/
def attribute? (e : Element) (name : String) : Option String :=
  (e.attributes.find? fun a => a.space.isNone && a.name == name).map (·.value)

end Element

end RobotRoutine.Xml
