import RobotRoutine.Document.Reader
import RobotRoutine.Proofs.Document.Parameters

/-!
The marker and the table of zone sequences in a document that was read.

At most one marker stands anywhere below the actions.  So a marker among the steps leaves none for
the sequences that it holds, and the table is there if and only if the marker is.
-/

namespace RobotRoutine

/-- The steps and the table of zone sequences fit together. -/
structure Configuration.Branches (configuration : Configuration) : Prop where
  present : configuration.branchTable.isSome = true ↔
    configuration.actions.countP ActionStep.isMarker = 1
  absent : configuration.branchTable = none ↔
    configuration.actions.countP ActionStep.isMarker = 0
  plain : ∀ table, configuration.branchTable = some table → ∀ zone, ∀ step ∈ table.get zone,
    step.isMarker = false

namespace Document

open Xml (Element Node)

theorem length_markers_le_of_nodes {parent : String} {nodes : List Node} {element : Element}
    (child : element ∈ nodes.filterMap Node.element?) :
    (if isMarkerElement element then 1 else 0) + (markers element).length ≤
      (markersOfNodes parent nodes).length := by
  induction nodes with
  | nil => cases child
  | cons node rest inductionHypothesis =>
      rw [markersOfNodes, List.length_append]
      cases node with
      | element name attributes children =>
          change element ∈ ⟨name, attributes, children⟩ :: rest.filterMap Node.element? at child
          rcases List.mem_cons.mp child with rfl | later
          · have here : (markersOfNode parent (.element name attributes children)).length =
                (if isBranchMarker name then 1 else 0) +
                  (markersOfNodes name children).length := by
              rw [markersOfNode, List.length_append]
              split <;> rfl
            rw [here]
            exact Nat.le_add_right _ _
          · have := inductionHypothesis later
            omega
      | _ =>
          have := inductionHypothesis child
          omega

theorem countP_isMarkerElement_le_of_nodes {parent : String} {nodes : List Node} :
    (nodes.filterMap Node.element?).countP isMarkerElement ≤
      (markersOfNodes parent nodes).length := by
  induction nodes with
  | nil => exact Nat.le_refl 0
  | cons node rest inductionHypothesis =>
      rw [markersOfNodes, List.length_append]
      cases node with
      | element name attributes children =>
          change List.countP _ (⟨name, attributes, children⟩ :: rest.filterMap Node.element?) ≤ _
          rw [List.countP_cons, markersOfNode, List.length_append]
          have here : (if isMarkerElement ⟨name, attributes, children⟩ then 1 else 0) =
              (if isBranchMarker name then [(⟨parent, name⟩ : MarkerPlace)] else []).length := by
            change (if isBranchMarker name then 1 else 0) = _
            split <;> rfl
          omega
      | _ =>
          change List.countP _ (rest.filterMap Node.element?) ≤ _
          omega

/-- A child is a marker or not, and holds no more markers than its parent does beside it. -/
theorem length_markers_le {parent child : Element} (isChild : child ∈ parent.elements) :
    (if isMarkerElement child then 1 else 0) + (markers child).length ≤
      (markers parent).length :=
  length_markers_le_of_nodes isChild

theorem countP_isMarkerElement_le (element : Element) :
    element.elements.countP isMarkerElement ≤ (markers element).length :=
  countP_isMarkerElement_le_of_nodes

theorem countP_readSteps (element : Element) :
    (readSteps element).countP ActionStep.isMarker =
      element.elements.countP isMarkerElement := by
  rw [readSteps, List.countP_map]
  rfl

theorem length_markers_le_one {element : Element} (checked : checkMarkers element = .ok ()) :
    (markers element).length ≤ 1 := by
  unfold checkMarkers at checked
  split at checked
  case h_1 none => simp [none]
  case h_2 one => simp [one]
  case h_3 => cases checked

section Zones

variable {table final : BranchTable} {seen : List Zone} {element : Element}
  {elements rest : List Element}

/-- What is read goes on behind a zone that was not seen before. -/
theorem readZonesOnto_cons_eq_ok_iff :
    readZonesOnto table seen (element :: rest) = .ok final ↔
      ∃ here, Zone.ofName? element.name = some here ∧ here ∉ seen ∧
        readZonesOnto (table.set here (readSteps element)) (here :: seen) rest = .ok final := by
  rw [readZonesOnto]
  cases Zone.ofName? element.name with
  | none => simp
  | some here => by_cases again : here ∈ seen <;> simp [again]

theorem get_readZonesOnto (read : readZonesOnto table seen elements = .ok final) (zone : Zone) :
    final.get zone = table.get zone ∨ ∃ element ∈ elements, final.get zone = readSteps element := by
  induction elements generalizing table seen with
  | nil =>
      cases read
      exact .inl rfl
  | cons element rest inductionHypothesis =>
      obtain ⟨here, _, _, read⟩ := readZonesOnto_cons_eq_ok_iff.mp read
      rcases inductionHypothesis read with same | ⟨other, member, same⟩
      · by_cases isHere : zone = here
        · subst isHere
          rw [BranchTable.get_set_self] at same
          exact .inr ⟨element, by simp, same⟩
        · rw [BranchTable.get_set_of_ne isHere] at same
          exact .inl same
      · exact .inr ⟨other, List.mem_cons_of_mem element member, same⟩

end Zones

/-- The sequences that a marker without further markers holds are free of markers. -/
theorem plain_readBranchTable {marker : Element} {table : BranchTable}
    (alone : markers marker = []) (read : readBranchTable marker = .ok table) (zone : Zone) :
    ∀ step ∈ table.get zone, step.isMarker = false := by
  have readZones : readZonesOnto BranchTable.empty [] marker.elements = .ok table := by
    unfold readBranchTable at read
    simp only at read
    split at read
    · exact read
    · cases read
  intro step member
  rcases get_readZonesOnto readZones zone with same | ⟨element, inMarker, same⟩
  · rw [same] at member
    cases zone <;> cases member
  · have few := length_markers_le inMarker
    have fewer := countP_isMarkerElement_le element
    have noMarker : (readSteps element).countP ActionStep.isMarker = 0 := by
      rw [countP_readSteps]
      rw [alone] at few
      simp only [List.length_nil] at few
      omega
    rw [same] at member
    simpa using List.countP_eq_zero.mp noMarker step member

theorem branches_readActions {element : Element} {configuration : Configuration}
    (read : readActions element = .ok (configuration.actions, configuration.branchTable)) :
    configuration.Branches := by
  obtain ⟨_, checked, read⟩ := exists_of_bind_eq_ok read
  have few := length_markers_le_one checked
  have counted := countP_isMarkerElement_le element
  cases found : markerChild? element with
  | none =>
      rw [found] at read
      obtain ⟨sameActions, sameTable⟩ := Prod.mk.inj (Except.ok.inj read)
      have noMarker : configuration.actions.countP ActionStep.isMarker = 0 := by
        rw [← sameActions, countP_readSteps, List.countP_eq_zero]
        simpa [markerChild?] using found
      exact
        { present := by simp [← sameTable, noMarker]
          absent := by simp [← sameTable, noMarker]
          plain := by simp [← sameTable] }
  | some marker =>
      rw [found] at read
      obtain ⟨table, readTable, read⟩ := exists_of_bind_eq_ok read
      obtain ⟨sameActions, sameTable⟩ := Prod.mk.inj (Except.ok.inj read)
      have isMarker : isMarkerElement marker = true := List.find?_some found
      have isChild : marker ∈ element.elements := List.mem_of_find?_eq_some found
      have below := length_markers_le isChild
      rw [if_pos isMarker] at below
      have alone : markers marker = [] := List.length_eq_zero_iff.mp (by omega)
      have oneMarker : configuration.actions.countP ActionStep.isMarker = 1 := by
        rw [← sameActions, countP_readSteps]
        have some : 0 < element.elements.countP isMarkerElement :=
          List.countP_pos_iff.mpr ⟨marker, isChild, isMarker⟩
        omega
      refine
        { present := by simp [← sameTable, oneMarker]
          absent := by simp [← sameTable, oneMarker]
          plain := ?_ }
      intro other same
      cases sameTable.trans same
      exact plain_readBranchTable alone readTable

end Document

end RobotRoutine
