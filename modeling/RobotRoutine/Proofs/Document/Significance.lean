import Mathlib.Logic.Relation
import RobotRoutine.Proofs.Document.Outline

/-!
What of a document is read.

A document pruned of comments, instructions and the text of elements that are not read as values has
the outline of the whole document.  So a selector reads the same from two documents whose chosen
sections agree, pruned, on the first child and on the first actions.  An edit that puts a comment,
an instruction or blanks into a document leaves the outline as it is; only blanks between the
characters of a value are read.
-/

namespace RobotRoutine.Document

open Xml (Element Node)

variable {place : Place} {nodes more : List Node}

/-! Pruning. -/

/-- Puts nodes before others; two texts that meet become one. -/
def joinNodes : List Node → List Node → List Node
  | [.text content], .text next :: rest => .text (content ++ next) :: rest
  | first, rest => first ++ rest

mutual

def prunedNode (place : Place) : Node → List Node
  | .element name attributes children =>
      [.element name attributes (prunedNodes (place.below name) children)]
  | .text content => if place = .value then [.text content] else []
  | .comment _ => []
  | .instruction _ => []

/-- Nodes at a place without comments and instructions, and without text unless it is read. -/
def prunedNodes (place : Place) : List Node → List Node
  | [] => []
  | node :: rest => joinNodes (prunedNode place node) (prunedNodes place rest)

end

/-- An element at a place, pruned. -/
def pruned (place : Place) (element : Element) : Element :=
  { element with children := prunedNodes (place.below element.name) element.children }

theorem textContents_append :
    Node.textContents (nodes ++ more) = Node.textContents nodes ++ Node.textContents more := by
  induction nodes with
  | nil => exact (String.empty_append).symm
  | cons node rest inductionHypothesis =>
      rw [List.cons_append, Node.textContents, Node.textContents, inductionHypothesis,
        String.append_assoc]

theorem outlineNodes_append :
    outlineNodes place (nodes ++ more) = outlineNodes place nodes ++ outlineNodes place more := by
  induction nodes with
  | nil => rfl
  | cons node rest inductionHypothesis =>
      rw [List.cons_append, outlineNodes, outlineNodes, inductionHypothesis, List.append_assoc]

theorem textContents_joinNodes :
    Node.textContents (joinNodes nodes more) =
      Node.textContents nodes ++ Node.textContents more := by
  unfold joinNodes
  split
  case h_1 content next rest =>
    change content ++ next ++ Node.textContents rest =
      content ++ "" ++ (next ++ Node.textContents rest)
    rw [String.append_empty, String.append_assoc]
  case h_2 => exact textContents_append

theorem outlineNodes_joinNodes :
    outlineNodes place (joinNodes nodes more) =
      outlineNodes place nodes ++ outlineNodes place more := by
  unfold joinNodes
  split
  case h_1 => rfl
  case h_2 => exact outlineNodes_append

mutual

theorem textContents_prunedNode : (node : Node) →
    Node.textContents (prunedNode .value node) = node.textContent
  | .element name attributes children => by
      change Node.textContents (prunedNodes .value children) ++ "" = Node.textContents children
      rw [String.append_empty, textContents_prunedNodes children]
  | .text content => String.append_empty
  | .comment _ => rfl
  | .instruction _ => rfl

theorem textContents_prunedNodes : (nodes : List Node) →
    Node.textContents (prunedNodes .value nodes) = Node.textContents nodes
  | [] => rfl
  | node :: rest => by
      rw [prunedNodes, textContents_joinNodes, textContents_prunedNode node,
        textContents_prunedNodes rest, Node.textContents]

end

mutual

theorem outlineNodes_prunedNode {place : Place} (noValue : place ≠ .value) : (node : Node) →
    outlineNodes place (prunedNode place node) = outlineNode place node
  | .element name attributes children => by
      rw [prunedNode, outlineNodes, outlineNodes, List.append_nil, outlineNode, outlineNode]
      by_cases within : place.below name = .value
      · simp only [within, if_true, textContents_prunedNodes]
      · simp only [if_neg within, outlineNodes_prunedNodes within children]
  | .text content => by
      rw [prunedNode, if_neg noValue]
      rfl
  | .comment _ => rfl
  | .instruction _ => rfl

theorem outlineNodes_prunedNodes {place : Place} (noValue : place ≠ .value) :
    (nodes : List Node) → outlineNodes place (prunedNodes place nodes) = outlineNodes place nodes
  | [] => rfl
  | node :: rest => by
      rw [prunedNodes, outlineNodes_joinNodes, outlineNodes_prunedNode noValue node,
        outlineNodes_prunedNodes noValue rest, outlineNodes]

end

theorem outlineAt_pruned (element : Element) :
    outlineAt place (pruned place element) = outlineAt place element := by
  rw [outlineAt, outlineAt, pruned, outline, outline]
  by_cases within : place.below element.name = .value
  · simp only [within, if_true, Element.text, textContents_prunedNodes]
  · simp only [if_neg within, outlineNodes_prunedNodes within]

/-- Sections that agree, once pruned, on the two children that are read. -/
structure SameParts (candidate rival : Element) : Prop where
  first : (firstPart candidate).map (pruned .run) = (firstPart rival).map (pruned .run)
  actions : (actionsPart candidate).map (pruned .run) = (actionsPart rival).map (pruned .run)

theorem map_outlineAt_of_pruned {part other : Option Element}
    (same : part.map (pruned place) = other.map (pruned place)) :
    part.map (outlineAt place) = other.map (outlineAt place) := by
  have after : outlineAt place ∘ pruned place = outlineAt place := funext outlineAt_pruned
  rw [← after, ← Option.map_map, ← Option.map_map, same]

theorem readSection_of_sameParts {candidate rival : Element} (same : SameParts candidate rival) :
    readSection candidate = readSection rival :=
  readSection_congr (map_outlineAt_of_pruned same.first) (map_outlineAt_of_pruned same.actions)

/-! Edits. -/

/-- One edit of the nodes at a place: a comment, an instruction or a cut is put anywhere, and blanks
anywhere but between the characters of a value, however its content is laid out. -/
inductive Edit : Place → List Node → List Node → Prop where
  | comment {place : Place} (before : List Node) (content : String) (after : List Node) :
      Edit place (before ++ after) (before ++ .comment content :: after)
  | instruction {place : Place} (before : List Node) (content : String) (after : List Node) :
      Edit place (before ++ after) (before ++ .instruction content :: after)
  | cut {place : Place} (before : List Node) (left right : String) (after : List Node) :
      Edit place (before ++ .text (left ++ right) :: after)
        (before ++ .text left :: .text right :: after)
  | blank {place : Place} (noValue : place ≠ .value) (before : List Node) {blanks : String}
      (isBlank : Text.isAllBlank blanks = true) (after : List Node) :
      Edit place (before ++ after) (before ++ .text blanks :: after)
  | border {place : Place} (noValue : place ≠ .value) (before : List Node) {name : String}
      (isValue : place.below name = .value) (attributes : List Xml.Attribute)
      {left right : String} (isBlankLeft : Text.isAllBlank left = true)
      (isBlankRight : Text.isAllBlank right = true) {children changed : List Node}
      (text : Node.textContents changed = left ++ (Node.textContents children ++ right))
      (after : List Node) :
      Edit place (before ++ .element name attributes children :: after)
        (before ++ .element name attributes changed :: after)
  | inside {place : Place} (before : List Node) (name : String) (attributes : List Xml.Attribute)
      {children changed : List Node} (edit : Edit (place.below name) children changed)
      (after : List Node) :
      Edit place (before ++ .element name attributes children :: after)
        (before ++ .element name attributes changed :: after)

/-- Nodes at a place of which the same is read. -/
structure ReadAlike (place : Place) (nodes changed : List Node) : Prop where
  text : place = .value → Node.textContents nodes = Node.textContents changed
  outline : place ≠ .value → outlineNodes place nodes = outlineNodes place changed

theorem ReadAlike.around {changed : List Node} (alike : ReadAlike place nodes changed)
    (before after : List Node) :
    ReadAlike place (before ++ (nodes ++ after)) (before ++ (changed ++ after)) where
  text value := by simp only [textContents_append, alike.text value]
  outline noValue := by simp only [outlineNodes_append, alike.outline noValue]

theorem ReadAlike.inside {name : String} {attributes : List Xml.Attribute}
    {children changed : List Node} (alike : ReadAlike (place.below name) children changed) :
    ReadAlike place [.element name attributes children] [.element name attributes changed] where
  text value := by
    subst value
    exact congrArg (· ++ "") (alike.text rfl)
  outline noValue := by
    simp only [outlineNodes, outlineNode, List.append_nil]
    by_cases within : place.below name = .value
    · simp only [within, if_true, alike.text within]
    · simp only [if_neg within, alike.outline within]

/-- Only the trimmed text of a value is read from where the value stands. -/
theorem readAlike_value {name : String} {attributes : List Xml.Attribute}
    {children changed : List Node} (noValue : place ≠ .value) (isValue : place.below name = .value)
    (same : Text.trim (Node.textContents children) = Text.trim (Node.textContents changed)) :
    ReadAlike place [.element name attributes children] [.element name attributes changed] where
  text value := absurd value noValue
  outline _ := by
    simp only [outlineNodes, outlineNode, isValue, if_true, same]

theorem Edit.readAlike {changed : List Node} (edit : Edit place nodes changed) :
    ReadAlike place nodes changed := by
  induction edit with
  | @comment place before content after =>
      have gone : ReadAlike place [] [.comment content] := ⟨fun _ => rfl, fun _ => rfl⟩
      exact gone.around before after
  | @instruction place before content after =>
      have gone : ReadAlike place [] [.instruction content] := ⟨fun _ => rfl, fun _ => rfl⟩
      exact gone.around before after
  | @cut place before left right after =>
      have whole : ReadAlike place [.text (left ++ right)] [.text left, .text right] :=
        ⟨fun _ => String.append_assoc, fun _ => rfl⟩
      exact whole.around before after
  | @blank place noValue before blanks _ after =>
      have gone : ReadAlike place [] [.text blanks] :=
        ⟨fun value => absurd value noValue, fun _ => rfl⟩
      exact gone.around before after
  | @border _ noValue before _ isValue _ left right isBlankLeft isBlankRight children _ text
      after =>
      have trimmed := Text.trim_append_left isBlankLeft (Node.textContents children ++ right)
      rw [← text, Text.trim_append_right isBlankRight] at trimmed
      exact (readAlike_value noValue isValue trimmed.symm).around before after
  | inside before name attributes _ after inductionHypothesis =>
      exact inductionHypothesis.inside.around before after

theorem outlineNodes_of_edits (noValue : place ≠ .value) {changed : List Node}
    (edits : Relation.EqvGen (Edit place) nodes changed) :
    outlineNodes place nodes = outlineNodes place changed := by
  induction edits with
  | rel _ _ edit => exact edit.readAlike.outline noValue
  | refl => rfl
  | symm _ _ _ inductionHypothesis => exact inductionHypothesis.symm
  | trans _ _ _ _ _ first second => exact first.trans second

/-- A selector reads the same from documents whose chosen sections agree on what is read of them,
and from a document after any edits. -/
theorem ofRoot_of_sameParts {root other chosen rival : Element} {selector : String}
    (rootNamed : root.name = rootName) (otherNamed : other.name = rootName)
    (found : section? root selector = some chosen)
    (otherFound : section? other selector = some rival) (same : SameParts chosen rival) :
    ofRoot root selector = ofRoot other selector ∧
      (∀ text otherText, Xml.read text = .ok root → Xml.read otherText = .ok other →
        read text selector = read otherText selector) ∧
      ∀ nodes, Relation.EqvGen (Edit .document) root.children nodes →
        ofRoot { root with children := nodes } selector = ofRoot root selector := by
  have sameResult : ofRoot root selector = ofRoot other selector := by
    simp only [ofRoot, rootNamed, otherNamed, if_true, found, otherFound,
      readSection_of_sameParts same]
  refine ⟨sameResult, fun text otherText tree otherTree => ?_, fun nodes edits => ?_⟩
  · rw [read, tree, read, otherTree]
    exact sameResult
  · have outlines : outline .document { root with children := nodes } = outline .document root := by
      simp only [outline, if_neg (by decide : Place.document ≠ .value),
        outlineNodes_of_edits (by decide) edits]
    rw [← ofRoot_outline, outlines, ofRoot_outline]

/-- A section whose region begins at the number with this text. -/
def regionSection (x : List Node) : Element :=
  let region : Node := .element "image_roi" [] [.element "x" [] x, .element "y" [] [.text "2"],
    .element "width" [] [.text "3"], .element "height" [] [.text "4"]]
  ⟨sectionName, [⟨none, "id", "T"⟩],
    [.element "parameters" [] [region], .element "actions" [] []]⟩

def regionRoot (x : List Node) : Element :=
  let chosen := regionSection x
  ⟨rootName, [], [.element chosen.name chosen.attributes chosen.children]⟩

theorem edit_regionRoot {x changed : List Node} (edit : Edit .value x changed) :
    Edit .document (regionRoot x).children (regionRoot changed).children := by
  have field := @Edit.inside .region [] "x" [] x changed edit
  have region := fun after => @Edit.inside .parameters [] "image_roi" [] _ _ (field after)
  have parameters := fun after => @Edit.inside .run [] "parameters" [] _ _ (region after [])
  exact @Edit.inside .document [] sectionName _ _ _ (parameters _ _) []

/-- The same region, with stray nodes and more elements in the section. -/
def straySection : Element :=
  let region : Node := .element "image_roi" []
    [.element "x" [] [.text "1", .instruction "", .text "2"], .text "stray",
      .element "y" [] [.text "2"], .element "width" [] [.text "3"],
      .element "height" [] [.text "4"]]
  ⟨sectionName, [⟨none, "id", "T"⟩],
    [.text " ", .element "parameters" [] [region], .element "more" [] [],
      .element "actions" [] [.comment "none"], .element "actions" [] [.element "sleep" [] []]]⟩

/-- A malformed section before the stray one, and one for the same selector behind it. -/
def strayRoot : Element :=
  ⟨rootName, [],
    [.element sectionName [⟨none, "id", "U"⟩] [.element "actions" [] []],
      .element straySection.name straySection.attributes straySection.children,
      .element sectionName [⟨none, "id", "T"⟩] []]⟩

theorem ofRoot_of_sameParts_stray :
    SameParts (regionSection [.text "12"]) straySection ∧
      ofRoot (regionRoot [.text "12"]) "T" = ofRoot strayRoot "T" ∧
      ofRoot (regionRoot [.text "1", .comment "", .text "2"]) "T" =
        ofRoot (regionRoot [.text "12"]) "T" := by
  have same : SameParts (regionSection [.text "12"]) straySection := ⟨rfl, rfl⟩
  have found : section? (regionRoot [.text "12"]) "T" = some (regionSection [.text "12"]) := rfl
  have strayFound : section? strayRoot "T" = some straySection := rfl
  obtain ⟨stray, -, edited⟩ := ofRoot_of_sameParts rfl rfl found strayFound same
  have cut := edit_regionRoot (.cut [] "1" "2" [])
  have comment := edit_regionRoot (.comment [.text "1"] "" [.text "2"])
  exact ⟨same, stray, edited _ (.trans _ _ _ (.rel _ _ cut) (.rel _ _ comment))⟩

/-- A blank between two digits is read. -/
theorem ofRoot_blank_between_digits :
    ofRoot (regionRoot [.text "12"]) "T" = .ok ⟨none, ⟨12, 2, 3, 4⟩, [], none, [], none⟩ ∧
      ofRoot (regionRoot [.text "1 2"]) "T" = .error (.invalidValue "x" "1 2") := by
  decide +kernel

end RobotRoutine.Document
