/-!
Paths as texts.

A path is a text whose parts are set apart by slashes; empty parts and dots between them do not
count, so `a//b/.` ends with the part `b`.  A slash or a lone dot at the very beginning is the head
of a path, all else is its body.
-/

namespace RobotRoutine.Path

def splitHead : List Char → List Char × List Char
  | '/' :: rest => (['/'], rest)
  | ['.'] => (['.'], [])
  | '.' :: '/' :: rest => (['.'], '/' :: rest)
  | cs => ([], cs)

def lastPiece (backward : List Char) : List Char := backward.takeWhile (· != '/')

/-- Drops slashes and dots that do not count from the front of a backward body. -/
def skipBlankPieces : List Char → List Char
  | [] => []
  | c :: rest =>
      let piece := lastPiece (c :: rest)
      if piece = [] ∨ piece = ['.'] then skipBlankPieces ((c :: rest).drop (piece.length + 1))
      else c :: rest
  termination_by backward => backward.length
  decreasing_by simp only [List.length_drop, List.length_cons]; omega

/-- The last part of a path.  A part of the body comes with the text before it. -/
inductive LastPart where
  | none
  | root
  | current
  | up (before : List Char)
  | name (before part : List Char)
  deriving DecidableEq, Repr

def lastPart (path : String) : LastPart :=
  let (head, body) := splitHead path.toList
  match skipBlankPieces body.reverse with
  | [] =>
      match head with
      | [] => .none
      | '/' :: _ => .root
      | _ => .current
  | backward =>
      let piece := lastPiece backward
      let before := head ++ (backward.drop piece.length).reverse
      if piece = ['.', '.'] then .up before else .name before piece.reverse

def trimBefore (before : List Char) : String :=
  let (head, body) := splitHead before
  String.ofList (head ++ (skipBlankPieces body.reverse).reverse)

def parent? (path : String) : Option String :=
  match lastPart path with
  | .none => none
  | .root => none
  | .current => some ""
  | .up before => some (trimBefore before)
  | .name before _ => some (trimBefore before)

/-- The stem and the extension of a file name.  A dot at the beginning starts no extension. -/
def splitExtension (name : List Char) : List Char × Option (List Char) :=
  let extension := (name.reverse.takeWhile (· != '.')).reverse
  let stem := name.take (name.length - extension.length - 1)
  if extension.length = name.length ∨ stem = [] then (name, none) else (stem, some extension)

/-- Cuts a path behind the stem of its file name and puts an extension there. -/
def setExtension (path extension : String) : String :=
  match lastPart path with
  | .name before name =>
      String.ofList (before ++ (splitExtension name).1) ++ "." ++ extension
  | _ => path

/-- The length of the extension of a file name, zero if there is none. -/
def extensionLength (path : String) : Nat :=
  match lastPart path with
  | .name _ name => ((splitExtension name).2.getD []).length
  | _ => 0

/-- The path with another extension.  As much as the old one takes is cut off the end of the path
before the new one is set. -/
def withExtension (path extension : String) : String :=
  setExtension (String.ofList (path.toList.take (path.length - extensionLength path))) extension

/-- A path taken from a base; an absolute path stands for itself. -/
def join (base path : String) : String :=
  match path.toList with
  | '/' :: _ => path
  | _ =>
      if base.isEmpty || base.endsWith "/" then base ++ path else base ++ "/" ++ path

end RobotRoutine.Path
