import Mathlib.Data.List.Perm.Subperm
import RobotRoutine.Proofs.Document.Markers
import RobotRoutine.Proofs.Document.Translation

/-!
The grammar of an action sequence.

A sequence is read if no choice stands below it, or one that is a step of it and holds the three
zones, in any order.  Where the choices stand decides what is refused: a second one before one that
stands too deep, and that before a number of zones that is not three.
-/

namespace RobotRoutine

namespace Xml

mutual

/-- The elements at and below a node, in document order. -/
def Node.descendants : Node → List Element
  | .element name attributes children => ⟨name, attributes, children⟩ :: descendantsOf children
  | .text _ => []
  | .comment _ => []
  | .instruction _ => []

def descendantsOf : List Node → List Element
  | [] => []
  | node :: rest => node.descendants ++ descendantsOf rest

end

/-- The elements below an element, at any depth. -/
def Element.descendants (element : Element) : List Element := descendantsOf element.children

theorem descendantsOf_eq_flatMap (nodes : List Node) :
    descendantsOf nodes =
      (nodes.filterMap Node.element?).flatMap fun element => element :: element.descendants := by
  induction nodes with
  | nil => rfl
  | cons node rest inductionHypothesis =>
      rw [descendantsOf, inductionHypothesis]
      cases node <;> rfl

theorem Element.mem_descendants_of_mem_elements {element child : Element}
    (isChild : child ∈ element.elements) : child ∈ element.descendants := by
  rw [descendants, descendantsOf_eq_flatMap]
  exact List.mem_flatMap.mpr ⟨child, isChild, List.mem_cons_self⟩

mutual

theorem Node.mem_descendants_trans {holder below : Element} (inside : below ∈ holder.descendants) :
    (node : Node) → holder ∈ node.descendants → below ∈ node.descendants
  | .element name attributes children, member => by
      rw [Node.descendants, List.mem_cons] at member
      rcases member with rfl | deeper
      · exact List.mem_cons_of_mem _ inside
      · exact List.mem_cons_of_mem _ (mem_descendantsOf_trans inside children deeper)

theorem mem_descendantsOf_trans {holder below : Element} (inside : below ∈ holder.descendants) :
    (nodes : List Node) → holder ∈ descendantsOf nodes → below ∈ descendantsOf nodes
  | node :: rest, member => by
      rw [descendantsOf, List.mem_append] at member ⊢
      exact member.imp (node.mem_descendants_trans inside) (mem_descendantsOf_trans inside rest)

end

end Xml

theorem Zone.ofName?_eq_some_iff {text : String} {zone : Zone} :
    Zone.ofName? text = some zone ↔ text = zone.name := by
  constructor
  · exact eq_name_of_find?
  · rintro rfl
    exact zone.ofName?_name

theorem Zone.name_inj {zone other : Zone} : zone.name = other.name ↔ zone = other := by
  constructor
  · intro same
    have found := Zone.ofName?_eq_some_iff.mpr same
    rw [zone.ofName?_name] at found
    exact Option.some.inj found
  · rintro rfl
    rfl

namespace Document

open Xml (Element Node)

/-- The choices below an element, at any depth. -/
def choices (element : Element) : List Element := element.descendants.filter isMarkerElement

mutual

theorem names_markersOfNode (parent : String) :
    (node : Node) → (markersOfNode parent node).map MarkerPlace.name =
      (node.descendants.filter isMarkerElement).map Element.name
  | .element name attributes children => by
      rw [markersOfNode, Node.descendants, List.map_append, names_markersOfNodes name children,
        List.filter_cons]
      change _ = List.map Element.name (if isBranchMarker name then _ else _)
      split <;> rfl
  | .text _ => rfl
  | .comment _ => rfl
  | .instruction _ => rfl

theorem names_markersOfNodes (parent : String) :
    (nodes : List Node) → (markersOfNodes parent nodes).map MarkerPlace.name =
      ((Xml.descendantsOf nodes).filter isMarkerElement).map Element.name
  | [] => rfl
  | node :: rest => by
      rw [markersOfNodes, Xml.descendantsOf, List.map_append, names_markersOfNode parent node,
        names_markersOfNodes parent rest, List.filter_append, List.map_append]

end

theorem names_markers (element : Element) :
    (markers element).map MarkerPlace.name = (choices element).map Element.name :=
  names_markersOfNodes element.name element.children

mutual

/-- A marker stands in the element that its place tells. -/
theorem exists_holder_of_node {parent : String} {place : MarkerPlace} :
    (node : Node) → place ∈ markersOfNode parent node →
      ∃ marker, isMarkerElement marker = true ∧ place.name = marker.name ∧
        (place.parent = parent ∧ node.element? = some marker ∨
          ∃ holder ∈ node.descendants, place.parent = holder.name ∧ marker ∈ holder.elements)
  | .element name attributes children, member => by
      rw [markersOfNode, List.mem_append] at member
      rcases member with here | below
      · split at here
        case isTrue isMarker =>
          obtain rfl := List.mem_singleton.mp here
          exact ⟨⟨name, attributes, children⟩, isMarker, rfl, .inl ⟨rfl, rfl⟩⟩
        case isFalse => cases here
      · obtain ⟨marker, isMarker, named, ⟨same, isChild⟩ | ⟨holder, deeper, same, isChild⟩⟩ :=
          exists_holder_of_nodes children below
        · exact ⟨marker, isMarker, named, .inr
            ⟨⟨name, attributes, children⟩, List.mem_cons_self, same, isChild⟩⟩
        · exact ⟨marker, isMarker, named, .inr
            ⟨holder, List.mem_cons_of_mem _ deeper, same, isChild⟩⟩

theorem exists_holder_of_nodes {parent : String} {place : MarkerPlace} :
    (nodes : List Node) → place ∈ markersOfNodes parent nodes →
      ∃ marker, isMarkerElement marker = true ∧ place.name = marker.name ∧
        (place.parent = parent ∧ marker ∈ nodes.filterMap Node.element? ∨
          ∃ holder ∈ Xml.descendantsOf nodes,
            place.parent = holder.name ∧ marker ∈ holder.elements)
  | node :: rest, member => by
      rw [markersOfNodes, List.mem_append] at member
      rw [Xml.descendantsOf]
      rcases member with here | later
      · obtain ⟨marker, isMarker, named, ⟨same, isHere⟩ | ⟨holder, inside, same, isChild⟩⟩ :=
          exists_holder_of_node node here
        · exact ⟨marker, isMarker, named, .inl
            ⟨same, List.mem_filterMap.mpr ⟨node, List.mem_cons_self, isHere⟩⟩⟩
        · exact ⟨marker, isMarker, named, .inr
            ⟨holder, List.mem_append_left _ inside, same, isChild⟩⟩
      · obtain ⟨marker, isMarker, named, ⟨same, isThere⟩ | ⟨holder, inside, same, isChild⟩⟩ :=
          exists_holder_of_nodes rest later
        · obtain ⟨other, inRest, isThere⟩ := List.mem_filterMap.mp isThere
          exact ⟨marker, isMarker, named, .inl
            ⟨same, List.mem_filterMap.mpr ⟨other, List.mem_cons_of_mem node inRest, isThere⟩⟩⟩
        · exact ⟨marker, isMarker, named, .inr
            ⟨holder, List.mem_append_right _ inside, same, isChild⟩⟩

end

section Sequence

variable {element marker : Element}

theorem length_markers (element : Element) :
    (markers element).length = (choices element).length := by
  have lengths := congrArg List.length (names_markers element)
  simpa using lengths

theorem mem_choices_of_markerChild? (found : markerChild? element = some marker) :
    marker ∈ element.elements ∧ marker ∈ choices element := by
  have isChild := List.mem_of_find?_eq_some found
  have below := Element.mem_descendants_of_mem_elements isChild
  exact ⟨isChild, List.mem_filter.mpr ⟨below, List.find?_some found⟩⟩

/-- The only choice is found among the children if it is one. -/
theorem markerChild?_of_alone (alone : choices element = [marker])
    (isChild : marker ∈ element.elements) : markerChild? element = some marker := by
  have isMarker : isMarkerElement marker = true := by
    have member : marker ∈ choices element := by simp [alone]
    exact (List.mem_filter.mp member).2
  cases found : markerChild? element with
  | none => exact absurd isMarker (List.find?_eq_none.mp found marker isChild)
  | some other =>
      have inChoices := (mem_choices_of_markerChild? found).2
      rw [alone] at inChoices
      rw [List.mem_singleton.mp inChoices]

theorem exists_place_of_alone (alone : choices element = [marker]) :
    ∃ place, markers element = [place] ∧ place.name = marker.name ∧
      (marker ∈ element.elements ∨
        ∃ holder ∈ element.descendants, place.parent = holder.name ∧
          marker ∈ holder.elements) := by
  have one : (markers element).length = 1 := by rw [length_markers, alone, List.length_singleton]
  obtain ⟨place, placed⟩ := List.length_eq_one_iff.mp one
  have member : place ∈ markers element := by simp [placed]
  obtain ⟨other, isMarker, named, stands⟩ := exists_holder_of_nodes element.children member
  have only : other ∈ element.descendants → other = marker := by
    intro below
    have inChoices : other ∈ choices element := List.mem_filter.mpr ⟨below, isMarker⟩
    rw [alone] at inChoices
    exact List.mem_singleton.mp inChoices
  rcases stands with ⟨_, isChild⟩ | ⟨holder, inside, same, isChild⟩
  · obtain rfl := only (Element.mem_descendants_of_mem_elements isChild)
    exact ⟨place, placed, named, .inl isChild⟩
  · obtain rfl := only (Xml.mem_descendantsOf_trans
      (Element.mem_descendants_of_mem_elements isChild) element.children inside)
    exact ⟨place, placed, named, .inr ⟨holder, inside, same, isChild⟩⟩

theorem readActions_of_none (none : choices element = []) :
    readActions element = .ok (readSteps element, .none) := by
  have unmarked : markers element = [] :=
    List.length_eq_zero_iff.mp (by rw [length_markers, none, List.length_nil])
  have noChild : markerChild? element = .none := by
    cases found : markerChild? element with
    | none => rfl
    | some marker =>
        have member := (mem_choices_of_markerChild? found).2
        rw [none] at member
        cases member
  rw [readActions, checkMarkers, unmarked, noChild]
  rfl

theorem readActions_of_child (alone : choices element = [marker])
    (isChild : marker ∈ element.elements) :
    readActions element =
      (readBranchTable marker).map fun table => (readSteps element, some table) := by
  obtain ⟨place, placed, _⟩ := exists_place_of_alone alone
  have found := markerChild?_of_alone alone isChild
  have checked : checkMarkers element = .ok () := by
    rw [checkMarkers, placed, found]
    rfl
  rw [readActions, checked, found]
  change (readBranchTable marker).bind (fun table => .ok (readSteps element, some table)) = _
  cases readBranchTable marker <;> rfl

theorem readActions_of_deeper (alone : choices element = [marker])
    (deeper : marker ∉ element.elements) :
    ∃ holder ∈ element.descendants, marker ∈ holder.elements ∧
      readActions element = .error (.unexpectedElement holder.name marker.name) := by
  obtain ⟨place, placed, named, isChild | ⟨holder, inside, same, isChild⟩⟩ :=
    exists_place_of_alone alone
  · exact absurd isChild deeper
  · have noChild : markerChild? element = none := by
      cases found : markerChild? element with
      | none => rfl
      | some other =>
          obtain ⟨isChild, member⟩ := mem_choices_of_markerChild? found
          rw [alone] at member
          rw [List.mem_singleton.mp member] at isChild
          exact absurd isChild deeper
    refine ⟨holder, inside, isChild, ?_⟩
    rw [readActions, checkMarkers, placed, noChild, ← same, ← named]
    rfl

/-- A second choice is refused whatever else there is. -/
theorem readActions_of_many (many : 2 ≤ (choices element).length) :
    readActions element = .error .duplicateBranch := by
  rw [← length_markers] at many
  have refused : checkMarkers element = .error .duplicateBranch := by
    unfold checkMarkers
    split
    case h_1 none => simp [none] at many
    case h_2 one => simp [one] at many
    case h_3 => rfl
  rw [readActions, refused]
  rfl

end Sequence

section Zones

variable {elements : List Element} {seen : List Zone} {table final : BranchTable} {zone : Zone}

theorem get_readZonesOnto_of_seen (read : readZonesOnto table seen elements = .ok final)
    (isSeen : zone ∈ seen) : final.get zone = table.get zone := by
  induction elements generalizing table seen with
  | nil =>
      cases read
      rfl
  | cons element rest inductionHypothesis =>
      obtain ⟨here, _, fresh, read⟩ := readZonesOnto_cons_eq_ok_iff.mp read
      have different : zone ≠ here := fun same => fresh (same ▸ isSeen)
      rw [inductionHypothesis read (List.mem_cons_of_mem here isSeen),
        BranchTable.get_set_of_ne different]

theorem get_readZonesOnto_of_mem {child : Element}
    (read : readZonesOnto table seen elements = .ok final) (isChild : child ∈ elements)
    (named : child.name = zone.name) : final.get zone = readSteps child := by
  induction elements generalizing table seen with
  | nil => cases isChild
  | cons element rest inductionHypothesis =>
      obtain ⟨here, found, _, read⟩ := readZonesOnto_cons_eq_ok_iff.mp read
      rcases List.mem_cons.mp isChild with rfl | later
      · rw [named, Zone.ofName?_name] at found
        cases found
        rw [get_readZonesOnto_of_seen read List.mem_cons_self, BranchTable.get_set_self]
      · exact inductionHypothesis read later

/-- A zone is not seen behind another one if it is not that one and was not seen before. -/
theorem exists_fresh_cons_iff {here : Zone} {name : String} :
    (∃ zone : Zone, zone.name = name ∧ zone ∉ here :: seen) ↔
      name ≠ here.name ∧ ∃ zone : Zone, zone.name = name ∧ zone ∉ seen := by
  constructor
  · rintro ⟨zone, rfl, fresh⟩
    rw [List.mem_cons, not_or] at fresh
    exact ⟨mt Zone.name_inj.mp fresh.1, zone, rfl, fresh.2⟩
  · rintro ⟨other, zone, rfl, fresh⟩
    refine ⟨zone, rfl, ?_⟩
    rw [List.mem_cons, not_or]
    exact ⟨mt Zone.name_inj.mpr other, fresh⟩

/-- Zones are read if their names are told apart and each is that of a zone not read before. -/
theorem exists_readZonesOnto_iff :
    (∃ final, readZonesOnto table seen elements = .ok final) ↔
      (elements.map Element.name).Nodup ∧
        ∀ name ∈ elements.map Element.name, ∃ zone : Zone, zone.name = name ∧ zone ∉ seen := by
  induction elements generalizing table seen with
  | nil => simp [readZonesOnto]
  | cons element rest inductionHypothesis =>
      rw [List.map_cons, List.nodup_cons, List.forall_mem_cons]
      constructor
      · rintro ⟨final, read⟩
        obtain ⟨here, found, fresh, read⟩ := readZonesOnto_cons_eq_ok_iff.mp read
        obtain ⟨nodup, each⟩ := inductionHypothesis.mp ⟨final, read⟩
        have named := Zone.ofName?_eq_some_iff.mp found
        simp only [exists_fresh_cons_iff, ← named] at each
        exact ⟨⟨fun member => (each _ member).1 rfl, nodup⟩, ⟨here, named.symm, fresh⟩,
          fun name member => (each name member).2⟩
      · rintro ⟨⟨different, nodup⟩, ⟨here, named, fresh⟩, each⟩
        have goesOn : ∀ name ∈ rest.map Element.name,
            ∃ zone : Zone, zone.name = name ∧ zone ∉ here :: seen := by
          intro name member
          refine exists_fresh_cons_iff.mpr ⟨?_, each name member⟩
          rintro rfl
          exact different (named ▸ member)
        obtain ⟨final, read⟩ := inductionHypothesis.mpr ⟨nodup, goesOn⟩
        exact ⟨final, readZonesOnto_cons_eq_ok_iff.mpr
          ⟨here, Zone.ofName?_eq_some_iff.mpr named.symm, fresh, read⟩⟩

theorem readBranchTable_of_length {marker : Element} (other : marker.elements.length ≠ 3) :
    readBranchTable marker = .error (.incompleteBranchTable marker.elements.length) :=
  if_neg other

theorem readZonesOnto_of_readBranchTable {marker : Element}
    (read : readBranchTable marker = .ok final) :
    readZonesOnto BranchTable.empty [] marker.elements = .ok final := by
  unfold readBranchTable at read
  simp only at read
  split at read
  · exact read
  · cases read

/-- A choice is read if it holds the three zones, in any order. -/
theorem exists_readBranchTable_iff {marker : Element} :
    (∃ table, readBranchTable marker = .ok table) ↔
      (marker.elements.map Element.name).Perm ["LEFT", "CENTER", "RIGHT"] := by
  constructor
  · rintro ⟨table, read⟩
    have three : marker.elements.length = 3 := by
      by_contra other
      rw [readBranchTable_of_length other] at read
      cases read
    obtain ⟨nodup, each⟩ :=
      exists_readZonesOnto_iff.mp ⟨table, readZonesOnto_of_readBranchTable read⟩
    refine (List.subperm_of_subset nodup ?_).perm_of_length_le ?_
    · intro name member
      obtain ⟨zone, rfl, _⟩ := each name member
      cases zone <;> simp [Zone.name]
    · rw [List.length_map, three]
      rfl
  · intro permuted
    have three : marker.elements.length = Zone.all.length :=
      (List.length_map _).symm.trans permuted.length_eq
    obtain ⟨table, read⟩ : ∃ table,
        readZonesOnto BranchTable.empty [] marker.elements = .ok table := by
      refine exists_readZonesOnto_iff.mpr ⟨permuted.nodup_iff.mpr (by decide), ?_⟩
      intro name member
      have isName : name ∈ Zone.all.map Zone.name := permuted.mem_iff.mp member
      obtain ⟨zone, _, named⟩ := List.mem_map.mp isName
      exact ⟨zone, named, List.not_mem_nil⟩
    exact ⟨table, (if_pos three).trans read⟩

/-- The steps of a zone are those of the child that names it. -/
theorem exists_child_of_zone {marker : Element} (read : readBranchTable marker = .ok final)
    (zone : Zone) :
    ∃ child ∈ marker.elements, child.name = zone.name ∧ final.get zone = readSteps child := by
  have permuted := exists_readBranchTable_iff.mp ⟨final, read⟩
  have named : zone.name ∈ marker.elements.map Element.name := by
    rw [permuted.mem_iff]
    cases zone <;> simp [Zone.name]
  obtain ⟨child, isChild, named⟩ := List.mem_map.mp named
  exact ⟨child, isChild, named,
    get_readZonesOnto_of_mem (readZonesOnto_of_readBranchTable read) isChild named⟩

end Zones

/-- What was read without a choice, or from a block with its only choice as a step. -/
theorem readActions_ok_cases {element : Element} {actions : List ActionStep}
    {table : Option BranchTable} (read : readActions element = .ok (actions, table)) :
    actions = readSteps element ∧
      ((choices element = [] ∧ table = none) ∨
        ∃ marker given, choices element = [marker] ∧ marker ∈ element.elements ∧
          readBranchTable marker = .ok given ∧ table = some given) := by
  match found : choices element with
  | [] =>
      rw [readActions_of_none found] at read
      cases read
      exact ⟨rfl, .inl ⟨rfl, rfl⟩⟩
  | [marker] =>
      by_cases isChild : marker ∈ element.elements
      · rw [readActions_of_child found isChild] at read
        cases given : readBranchTable marker with
        | error error =>
            rw [given] at read
            cases read
        | ok table =>
            rw [given] at read
            cases read
            exact ⟨rfl, .inr ⟨marker, table, rfl, isChild, given, rfl⟩⟩
      · obtain ⟨_, _, _, refused⟩ := readActions_of_deeper found isChild
        rw [refused] at read
        cases read
  | first :: second :: rest =>
      rw [readActions_of_many (by simp [found])] at read
      cases read

/-- The blocks of actions that are read: without a choice, or with one choice of the three zones as
a step. -/
def Grammatical (element : Element) : Prop :=
  choices element = [] ∨ ∃ marker, choices element = [marker] ∧ marker ∈ element.elements ∧
    (marker.elements.map Element.name).Perm ["LEFT", "CENTER", "RIGHT"]

/-- Steps that stand for the children of an element, one for each and in their order. -/
def TranslatesAll (element : Element) (steps : List ActionStep) : Prop :=
  List.Forall₂ Translates element.elements steps

theorem translatesAll_readSteps (element : Element) : TranslatesAll element (readSteps element) :=
  List.forall₂_map_right_iff.mpr (List.forall₂_same.mpr fun child _ => translates_readStep child)

/-- What a block of actions is read as, and why it is refused. -/
structure ReadAs (element : Element)
    (result : Except DocumentError (List ActionStep × Option BranchTable)) : Prop where
  accepted : (∃ read, result = .ok read) ↔ Grammatical element
  steps : ∀ actions table, result = .ok (actions, table) → TranslatesAll element actions
  plain : ∀ actions table, result = .ok (actions, table) →
    (table = none ↔ choices element = [])
  /-- Each zone has the steps of the child of the choice that has its name. -/
  zones : ∀ actions table marker, result = .ok (actions, some table) →
    choices element = [marker] → ∀ zone, ∃ child ∈ marker.elements,
      child.name = zone.name ∧ TranslatesAll child (table.get zone)
  duplicate : 2 ≤ (choices element).length → result = .error .duplicateBranch
  misplaced : ∀ marker, choices element = [marker] → marker ∉ element.elements →
    ∃ holder ∈ element.descendants, marker ∈ holder.elements ∧
      result = .error (.unexpectedElement holder.name marker.name)
  miscounted : ∀ marker, choices element = [marker] → marker ∈ element.elements →
    marker.elements.length ≠ 3 → result = .error (.incompleteBranchTable marker.elements.length)

theorem exists_readActions_of_grammatical {element : Element} (grammatical : Grammatical element) :
    ∃ read, readActions element = .ok read := by
  rcases grammatical with none | ⟨marker, alone, isChild, permuted⟩
  · exact ⟨_, readActions_of_none none⟩
  · obtain ⟨table, read⟩ := exists_readBranchTable_iff.mpr permuted
    rw [readActions_of_child alone isChild, read]
    exact ⟨_, rfl⟩

/-- The reader of a block of actions accepts its grammar, translates what it accepts, and names the
first thing that is wrong with the choices otherwise. -/
theorem readAs_readActions (element : Element) : ReadAs element (readActions element) where
  accepted := by
    refine ⟨?_, exists_readActions_of_grammatical⟩
    rintro ⟨⟨actions, table⟩, read⟩
    obtain ⟨_, ⟨none, _⟩ | ⟨marker, given, alone, isChild, readTable, _⟩⟩ :=
      readActions_ok_cases read
    · exact .inl none
    · exact .inr ⟨marker, alone, isChild, exists_readBranchTable_iff.mp ⟨given, readTable⟩⟩
  steps actions table read := by
    obtain ⟨rfl, _⟩ := readActions_ok_cases read
    exact translatesAll_readSteps element
  plain actions table read := by
    obtain ⟨_, ⟨none, rfl⟩ | ⟨marker, given, alone, _, _, rfl⟩⟩ := readActions_ok_cases read
    · simp [none]
    · simp [alone]
  zones actions table marker read alone zone := by
    obtain ⟨_, ⟨none, _⟩ | ⟨other, given, aloneToo, _, readTable, same⟩⟩ :=
      readActions_ok_cases read
    · rw [none] at alone
      cases alone
    · cases alone.symm.trans aloneToo
      cases same
      obtain ⟨child, isChild, named, steps⟩ := exists_child_of_zone readTable zone
      refine ⟨child, isChild, named, ?_⟩
      rw [steps]
      exact translatesAll_readSteps child
  duplicate := readActions_of_many
  misplaced _ := readActions_of_deeper
  miscounted marker alone isChild other := by
    rw [readActions_of_child alone isChild, readBranchTable_of_length other]
    rfl

end Document

end RobotRoutine
