import Mathlib.Data.List.DropRight
import RobotRoutine.Document.Reader

/-!
The outline of a document.

Where a node stands decides whether its text may be read.  The outline of a document keeps the
elements, and below the elements that are read as values the trimmed text; comments, instructions
and all other text are gone.  Every reader of a part gives the same for the part and for its
outline, on errors too.
-/

namespace RobotRoutine

namespace Text

variable {blanks cs : List Char}

theorem trimChars_append_left (blank : blanks.all isBlank = true) :
    trimChars (blanks ++ cs) = trimChars cs := by
  rw [List.all_eq_true] at blank
  rw [trimChars, trimChars, List.dropWhile_append_of_pos blank]

theorem trimChars_append_right (blank : blanks.all isBlank = true) :
    trimChars (cs ++ blanks) = trimChars cs := by
  rw [List.all_eq_true] at blank
  have blankToo : ∀ c ∈ blanks.reverse, isBlank c = true := by simpa using blank
  rw [trimChars, trimChars, List.dropWhile_append]
  split
  case isTrue nothing =>
    rw [List.isEmpty_iff] at nothing
    rw [nothing, List.dropWhile_eq_nil_iff.mpr blank]
  case isFalse =>
    rw [List.reverse_append, List.dropWhile_append_of_pos blankToo]

/-- Characters are blanks, those that are left after trimming, and blanks again. -/
theorem exists_blanks_around (cs : List Char) :
    ∃ before after, cs = before ++ (trimChars cs ++ after) ∧ before.all isBlank = true ∧
      after.all isBlank = true := by
  refine ⟨cs.takeWhile isBlank, (cs.dropWhile isBlank).rtakeWhile isBlank, ?_, ?_, ?_⟩
  · have back : trimChars cs = (cs.dropWhile isBlank).rdropWhile isBlank := rfl
    rw [back, List.rdropWhile_append_rtakeWhile, List.takeWhile_append_dropWhile]
  · exact List.all_takeWhile
  · exact List.all_eq_true.mpr fun c => List.mem_rtakeWhile_imp

theorem trimChars_trimChars (cs : List Char) : trimChars (trimChars cs) = trimChars cs := by
  obtain ⟨before, after, whole, blankBefore, blankAfter⟩ := exists_blanks_around cs
  conv_rhs => rw [whole, trimChars_append_left blankBefore, trimChars_append_right blankAfter]

theorem trim_trim (text : String) : trim (trim text) = trim text := by
  rw [trim, trim, String.toList_ofList, trimChars_trimChars]

theorem trim_append_left {blank : String} (isBlank : isAllBlank blank = true) (text : String) :
    trim (blank ++ text) = trim text := by
  rw [trim, trim, String.toList_append, trimChars_append_left isBlank]

theorem trim_append_right {blank : String} (isBlank : isAllBlank blank = true) (text : String) :
    trim (text ++ blank) = trim text := by
  rw [trim, trim, String.toList_append, trimChars_append_right isBlank]

end Text

namespace Document

open Xml (Element Node)

/-- Where the content of an element stands in a document. -/
inductive Place where
  /-- Below the root. -/
  | document
  /-- Below a section of a run. -/
  | run
  | parameters
  | pose
  | region
  /-- Below an element whose text is read, at any depth. -/
  | value
  | elsewhere
  deriving DecidableEq, Repr

/-- Where the content of an element with this name stands. -/
def Place.below : Place → String → Place
  | document, name => if name = sectionName then run else elsewhere
  | run, name => if name = "parameters" then parameters else elsewhere
  | parameters, name =>
      if name = ParameterPlace.threshold.name then value
      else if name = ParameterPlace.pose.name then pose
      else if name = ParameterPlace.region.name then region
      else elsewhere
  | pose, name => if name ∈ ["x", "y", "angle"] then value else elsewhere
  | region, name => if name ∈ ["x", "y", "width", "height"] then value else elsewhere
  | value, _ => value
  | elsewhere, _ => elsewhere

mutual

def outlineNode (place : Place) : Node → List Node
  | .element name attributes children =>
      let within := place.below name
      [.element name attributes
        (if within = .value then [.text (Text.trim (Node.textContents children))]
        else outlineNodes within children)]
  | .text _ => []
  | .comment _ => []
  | .instruction _ => []

/-- The outline of nodes at a place whose text is not read. -/
def outlineNodes (place : Place) : List Node → List Node
  | [] => []
  | node :: rest => outlineNode place node ++ outlineNodes place rest

end

/-- The outline of an element whose content stands at a place. -/
def outline (place : Place) (element : Element) : Element :=
  { element with
    children :=
      if place = .value then [.text (Text.trim element.text)]
      else outlineNodes place element.children }

/-- The outline of an element that itself stands at a place. -/
def outlineAt (place : Place) (element : Element) : Element :=
  outline (place.below element.name) element

variable {place : Place} {element : Element}

@[simp] theorem name_outline : (outline place element).name = element.name := rfl

@[simp] theorem name_outlineAt : (outlineAt place element).name = element.name := rfl

theorem elements_outlineNodes (nodes : List Node) :
    (outlineNodes place nodes).filterMap Node.element? =
      (nodes.filterMap Node.element?).map (outlineAt place) := by
  induction nodes with
  | nil => rfl
  | cons node rest inductionHypothesis =>
      rw [outlineNodes, List.filterMap_append, inductionHypothesis]
      cases node <;> rfl

theorem elements_outline (noValue : place ≠ .value) :
    (outline place element).elements = element.elements.map (outlineAt place) := by
  rw [outline, Element.elements, if_neg noValue]
  exact elements_outlineNodes element.children

/-! Values. -/

theorem fieldText_outline : fieldText (outline .value element) = fieldText element := by
  change Text.trim (Text.trim element.text ++ "") = Text.trim element.text
  rw [String.append_empty, Text.trim_trim]

/-- A field is read from the outline of the next element if it is a value where that stands. -/
theorem readField_outlineAt {α : Type} (parse : String → Option α) {name : String}
    (isValue : place.below name = .value) (next : Option Element) :
    readField parse name (next.map (outlineAt place)) = readField parse name next := by
  cases next with
  | none => rfl
  | some element =>
      rw [Option.map_some, readField, readField, name_outlineAt]
      by_cases same : element.name = name
      · subst same
        have text : fieldText (outlineAt place element) = fieldText element := by
          rw [outlineAt, isValue, fieldText_outline]
        rw [text]
      · rw [if_neg same, if_neg same]

/-! Parameters. -/

theorem readThreshold_outline : readThreshold (outline .value element) = readThreshold element := by
  rw [readThreshold, readThreshold, fieldText_outline]

theorem getElem?_elements_outline (noValue : place ≠ .value) (index : Nat) :
    (outline place element).elements[index]? = element.elements[index]?.map (outlineAt place) := by
  rw [elements_outline noValue, List.getElem?_map]

theorem readPose_outline : readPose (outline .pose element) = readPose element := by
  simp only [readPose, getElem?_elements_outline (by decide : Place.pose ≠ .value)]
  rw [readField_outlineAt _ (by decide), readField_outlineAt _ (by decide),
    readField_outlineAt _ (by decide)]

theorem readRegion_outline : readRegion (outline .region element) = readRegion element := by
  simp only [readRegion, readInteger, getElem?_elements_outline (by decide : Place.region ≠ .value)]
  rw [readField_outlineAt _ (by decide), readField_outlineAt _ (by decide),
    readField_outlineAt _ (by decide), readField_outlineAt _ (by decide)]

theorem readTagsOnto_outlineAt (known : List TagId) (elements : List Element) :
    readTagsOnto known (elements.map (outlineAt place)) = readTagsOnto known elements := by
  induction elements generalizing known with
  | nil => rfl
  | cons element rest inductionHypothesis =>
      rw [List.map_cons, readTagsOnto, readTagsOnto, name_outlineAt]
      cases TagId.ofName? element.name with
      | none => rfl
      | some tag => exact inductionHypothesis _

theorem readTags_outline (noValue : place ≠ .value) :
    readTags (outline place element) = readTags element := by
  rw [readTags, readTags, elements_outline noValue, readTagsOnto_outlineAt]

theorem read_outlineAt (parameters : Parameters) (which : ParameterPlace)
    (same : element.name = which.name) :
    which.read parameters (outlineAt .parameters element) = which.read parameters element := by
  rw [outlineAt, same]
  cases which with
  | threshold =>
      have here : Place.parameters.below ParameterPlace.threshold.name = .value := by decide
      rw [here, ParameterPlace.read, readThreshold_outline, ParameterPlace.read]
  | pose =>
      have here : Place.parameters.below ParameterPlace.pose.name = .pose := by decide
      rw [here, ParameterPlace.read, readPose_outline, ParameterPlace.read]
  | region =>
      have here : Place.parameters.below ParameterPlace.region.name = .region := by decide
      rw [here, ParameterPlace.read, readRegion_outline, ParameterPlace.read]
  | tags =>
      have here : Place.parameters.below ParameterPlace.tags.name = .elsewhere := by decide
      rw [here, ParameterPlace.read, readTags_outline (by decide), ParameterPlace.read]

theorem readPlaces_outlineAt (places : List ParameterPlace) (elements : List Element)
    (parameters : Parameters) :
    readPlaces places (elements.map (outlineAt .parameters)) parameters =
      readPlaces places elements parameters := by
  induction places generalizing elements parameters with
  | nil => cases elements <;> rfl
  | cons which places inductionHypothesis =>
      cases elements with
      | nil => rfl
      | cons element rest =>
          rw [List.map_cons, readPlaces, readPlaces, name_outlineAt]
          by_cases same : element.name = which.name
          · rw [if_pos same, if_pos same, read_outlineAt parameters which same]
            congr 1
            funext parameters
            exact inductionHypothesis rest parameters
          · rw [if_neg same, if_neg same, ← List.map_cons]
            exact inductionHypothesis (element :: rest) parameters

theorem readParameters_outline :
    readParameters (outline .parameters element) = readParameters element := by
  rw [readParameters, elements_outline (by decide), readPlaces_outlineAt, readParameters]

/-! Actions. -/

theorem markersOfNodes_append (parent : String) (nodes more : List Node) :
    markersOfNodes parent (nodes ++ more) =
      markersOfNodes parent nodes ++ markersOfNodes parent more := by
  induction nodes with
  | nil => rfl
  | cons node rest inductionHypothesis =>
      rw [List.cons_append, markersOfNodes, markersOfNodes, inductionHypothesis,
        List.append_assoc]

mutual

theorem markersOfNodes_outlineNode (parent : String) : (node : Node) →
    markersOfNodes parent (outlineNode .elsewhere node) = markersOfNode parent node
  | .element name attributes children => by
      have inside := markersOfNodes_outlineNodes name children
      change markersOfNode parent (.element name attributes (outlineNodes .elsewhere children)) ++
        [] = _
      rw [List.append_nil, markersOfNode, markersOfNode, inside]
  | .text _ => rfl
  | .comment _ => rfl
  | .instruction _ => rfl

theorem markersOfNodes_outlineNodes (parent : String) : (nodes : List Node) →
    markersOfNodes parent (outlineNodes .elsewhere nodes) = markersOfNodes parent nodes
  | [] => rfl
  | node :: rest => by
      rw [outlineNodes, markersOfNodes, ← markersOfNodes_outlineNode parent node,
        ← markersOfNodes_outlineNodes parent rest]
      exact markersOfNodes_append parent _ _

end

theorem markers_outline : markers (outline .elsewhere element) = markers element := by
  rw [markers, markers, outline, if_neg (by decide)]
  exact markersOfNodes_outlineNodes element.name element.children

theorem markerChild?_outline :
    markerChild? (outline .elsewhere element) =
      (markerChild? element).map (outlineAt .elsewhere) := by
  have same : isMarkerElement ∘ outlineAt .elsewhere = isMarkerElement := rfl
  rw [markerChild?, markerChild?, elements_outline (by decide), List.find?_map, same]

theorem checkMarkers_outline :
    checkMarkers (outline .elsewhere element) = checkMarkers element := by
  rw [checkMarkers, checkMarkers, markers_outline, markerChild?_outline, Option.isSome_map]

theorem readSteps_outline (noValue : place ≠ .value) :
    readSteps (outline place element) = readSteps element := by
  rw [readSteps, readSteps, elements_outline noValue, List.map_map]
  rfl

theorem readZonesOnto_outlineAt (table : BranchTable) (seen : List Zone)
    (elements : List Element) :
    readZonesOnto table seen (elements.map (outlineAt .elsewhere)) =
      readZonesOnto table seen elements := by
  induction elements generalizing table seen with
  | nil => rfl
  | cons element rest inductionHypothesis =>
      have steps : readSteps (outlineAt .elsewhere element) = readSteps element :=
        readSteps_outline (by decide : Place.elsewhere ≠ .value)
      rw [List.map_cons, readZonesOnto, readZonesOnto, name_outlineAt, steps]
      cases Zone.ofName? element.name with
      | none => rfl
      | some zone =>
          simp only [inductionHypothesis]

theorem readBranchTable_outline :
    readBranchTable (outlineAt .elsewhere element) = readBranchTable element := by
  have elements : (outlineAt .elsewhere element).elements =
      element.elements.map (outlineAt .elsewhere) :=
    elements_outline (by decide : Place.elsewhere ≠ .value)
  simp only [readBranchTable, elements, List.length_map, readZonesOnto_outlineAt]

theorem readActions_outline : readActions (outline .elsewhere element) = readActions element := by
  rw [readActions, readActions, checkMarkers_outline, markerChild?_outline,
    readSteps_outline (by decide)]
  cases markerChild? element with
  | none => rfl
  | some marker =>
      simp only [Option.map_some, readBranchTable_outline]

/-! Sections.  Only two of the children of a section are read. -/

def firstPart (candidate : Element) : Option Element := candidate.elements.head?

def actionsPart (candidate : Element) : Option Element :=
  candidate.elements.find? fun element => element.name == "actions"

/-- What the first child of a section gives. -/
def parametersOf : Option Element → Except DocumentError Parameters
  | some element =>
      if element.name = "parameters" then readParameters element
      else .error (.malformed "missing required <parameters> element")
  | none => .error (.malformed "missing required <parameters> element")

/-- What the first actions of a section give. -/
def actionsOf :
    Option Element → Except DocumentError (List ActionStep × Option BranchTable)
  | some element => readActions element
  | none => .error (.missingField "actions")

theorem requireParameters_bind (candidate : Element) :
    requireParameters candidate >>= readParameters = parametersOf (firstPart candidate) := by
  rw [requireParameters, firstPart]
  cases candidate.elements with
  | nil => rfl
  | cons first rest =>
      rw [List.head?_cons, parametersOf]
      by_cases named : first.name = "parameters"
      · simp only [if_pos named]
        rfl
      · simp only [if_neg named]
        rfl

theorem requireActions_bind (candidate : Element) :
    requireActions candidate >>= readActions = actionsOf (actionsPart candidate) := by
  rw [requireActions, actionsPart]
  cases candidate.elements.find? fun element => element.name == "actions" <;> rfl

theorem readSection_eq (candidate : Element) :
    readSection candidate = (do
      let parameters ← parametersOf (firstPart candidate)
      let (actions, branchTable) ← actionsOf (actionsPart candidate)
      pure
        { loggingThreshold := parameters.loggingThreshold
          regionOfInterest := parameters.regionOfInterest
          tagsOfInterest := parameters.tagsOfInterest
          startingPose := parameters.startingPose
          actions, branchTable }) := by
  rw [readSection, ← requireParameters_bind, ← requireActions_bind]
  simp only [bind_assoc]

theorem parametersOf_outlineAt (first : Option Element) :
    parametersOf (first.map (outlineAt .run)) = parametersOf first := by
  cases first with
  | none => rfl
  | some element =>
      rw [Option.map_some, parametersOf, parametersOf, name_outlineAt]
      by_cases named : element.name = "parameters"
      · have here : Place.run.below "parameters" = .parameters := by decide
        rw [if_pos named, if_pos named, outlineAt, named, here, readParameters_outline]
      · rw [if_neg named, if_neg named]

theorem actionsOf_outlineAt {actions : Option Element}
    (named : ∀ element ∈ actions, element.name = "actions") :
    actionsOf (actions.map (outlineAt .run)) = actionsOf actions := by
  cases actions with
  | none => rfl
  | some element =>
      have here : Place.run.below "actions" = .elsewhere := by decide
      rw [Option.map_some, actionsOf, actionsOf, outlineAt, named element rfl, here,
        readActions_outline]

theorem name_actionsPart {candidate element : Element}
    (here : element ∈ actionsPart candidate) : element.name = "actions" := by
  have found := List.find?_some here
  exact eq_of_beq found

/-- Sections whose parts have the same outlines read the same. -/
theorem readSection_congr {candidate rival : Element}
    (first : (firstPart candidate).map (outlineAt .run) = (firstPart rival).map (outlineAt .run))
    (actions : (actionsPart candidate).map (outlineAt .run) =
      (actionsPart rival).map (outlineAt .run)) :
    readSection candidate = readSection rival := by
  have sameParameters : parametersOf (firstPart candidate) = parametersOf (firstPart rival) := by
    rw [← parametersOf_outlineAt, first, parametersOf_outlineAt]
  have sameActions : actionsOf (actionsPart candidate) = actionsOf (actionsPart rival) := by
    rw [← actionsOf_outlineAt fun _ => name_actionsPart, actions,
      actionsOf_outlineAt fun _ => name_actionsPart]
  rw [readSection_eq, readSection_eq, sameParameters, sameActions]

/-! Documents. -/

theorem section?_outline (root : Element) (selector : String) : section?
    (outline .document root) selector = (section? root selector).map (outlineAt .document) := by
  rw [section?, section?, elements_outline (by decide), List.find?_map]
  rfl

theorem readSection_outlineAt {candidate : Element} (named : candidate.name = sectionName) :
    readSection (outlineAt .document candidate) = readSection candidate := by
  have here : Place.document.below sectionName = .run := by decide
  have elements : (outlineAt .document candidate).elements =
      candidate.elements.map (outlineAt .run) := by
    rw [outlineAt, named, here, elements_outline (by decide)]
  have first : firstPart (outlineAt .document candidate) =
      (firstPart candidate).map (outlineAt .run) := by
    rw [firstPart, elements, List.head?_map, firstPart]
  have actions : actionsPart (outlineAt .document candidate) =
      (actionsPart candidate).map (outlineAt .run) := by
    rw [actionsPart, elements, List.find?_map]
    rfl
  rw [readSection_eq, first, actions, parametersOf_outlineAt,
    actionsOf_outlineAt fun _ => name_actionsPart, ← readSection_eq]

theorem ofRoot_outline (root : Element) (selector : String) :
    ofRoot (outline .document root) selector = ofRoot root selector := by
  rw [ofRoot, ofRoot, name_outline, section?_outline]
  cases found : section? root selector with
  | none => rfl
  | some candidate =>
      have named : candidate.name = sectionName := by
        have asked := List.find?_some found
        exact eq_of_beq (Bool.and_eq_true_iff.mp asked).1
      simp only [Option.map_some, readSection_outlineAt named]

end Document

end RobotRoutine
