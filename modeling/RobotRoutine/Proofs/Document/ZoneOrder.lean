import Mathlib.Data.List.Induction
import Mathlib.Tactic.Tauto
import RobotRoutine.Proofs.Document.Content
import RobotRoutine.Proofs.Document.Grammar

/-!
The order in which the zones of a choice are judged.

The children of a choice are looked at one after the other, each for its name and for its
repetition.  So the first child that is no zone decides the error, unless two zones before it are
the same; then the repetition decides it, though a name is unknown.
-/

namespace RobotRoutine

/-- A list that repeats itself has a first element that it had before. -/
theorem exists_first_repeated {α : Type} {all : List α} (repeats : ¬all.Nodup) :
    ∃ before a after, all = before ++ a :: after ∧ before.Nodup ∧ a ∈ before := by
  induction all using List.reverseRecOn with
  | nil => exact absurd List.nodup_nil repeats
  | append_singleton front last inductionHypothesis =>
      by_cases once : front.Nodup
      · refine ⟨front, last, [], rfl, once, ?_⟩
        by_contra fresh
        refine repeats (List.nodup_append.mpr ⟨once, by simp, ?_⟩)
        intro a member b isLast same
        rw [same, List.mem_singleton.mp isLast] at member
        exact fresh member
      · obtain ⟨before, a, after, rfl, first, again⟩ := inductionHypothesis once
        exact ⟨before, a, after ++ [last], by simp, first, again⟩

namespace Document

open Xml (Element)

def IsZone (element : Element) : Prop := ∃ zone : Zone, element.name = zone.name

theorem isZone_iff {element : Element} :
    IsZone element ↔ ∃ zone, Zone.ofName? element.name = some zone := by
  simp only [IsZone, Zone.ofName?_eq_some_iff]

section Zones

variable {told : List String} {element child : Element} {before elements rest : List Element}
  {table : BranchTable} {seen : List Zone} {error : DocumentError}

/-- Elements that name zones, each another one, and none of those that were told before. -/
structure ZonesApart (told : List String) (elements : List Element) : Prop where
  zones : ∀ element ∈ elements, IsZone element
  fresh : ∀ element ∈ elements, element.name ∉ told
  once : (elements.map Element.name).Nodup

theorem zonesApart_nil : ZonesApart told [] :=
  ⟨List.forall_mem_nil _, List.forall_mem_nil _, List.nodup_nil⟩

theorem zonesApart_cons_iff :
    ZonesApart told (element :: rest) ↔
      (IsZone element ∧ element.name ∉ told) ∧ ZonesApart (element.name :: told) rest := by
  constructor
  · rintro ⟨zones, fresh, once⟩
    rw [List.forall_mem_cons] at zones fresh
    obtain ⟨different, once⟩ := List.nodup_cons.mp once
    refine ⟨⟨zones.1, fresh.1⟩, zones.2, fun other member => ?_, once⟩
    rw [List.mem_cons, not_or]
    exact ⟨fun same => different (same ▸ List.mem_map_of_mem member), fresh.2 other member⟩
  · rintro ⟨⟨isZone, notTold⟩, zones, fresh, once⟩
    refine ⟨List.forall_mem_cons.mpr ⟨isZone, zones⟩,
      List.forall_mem_cons.mpr ⟨notTold, fun other member => ?_⟩, List.nodup_cons.mpr ⟨?_, once⟩⟩
    · exact fun again => fresh other member (List.mem_cons_of_mem _ again)
    · intro again
      obtain ⟨other, member, same⟩ := List.mem_map.mp again
      exact fresh other member (same ▸ List.mem_cons_self)

/-- What goes wrong at a child of a choice if nothing has gone wrong at those before it. -/
inductive ZoneFault (told : List String) (child : Element) : DocumentError → Prop where
  | unknown (nameless : ¬IsZone child) :
      ZoneFault told child (.unknownName "target zone" child.name)
  | repeated (isZone : IsZone child) (again : child.name ∈ told) :
      ZoneFault told child (.incompleteBranchTable 3)

theorem ZoneFault.mono {names : List String} (same : ∀ name, name ∈ told ↔ name ∈ names)
    (fault : ZoneFault told child error) : ZoneFault names child error := by
  cases fault with
  | unknown nameless => exact .unknown nameless
  | repeated isZone again => exact .repeated isZone ((same _).mp again)

/-- A child is refused for a fault of its own, or it is a fresh zone and a later one is refused. -/
theorem readZonesOnto_cons_eq_error_iff :
    readZonesOnto table seen (child :: rest) = .error error ↔
      ZoneFault (seen.map Zone.name) child error ∨
        ∃ zone : Zone, child.name = zone.name ∧ zone ∉ seen ∧
          readZonesOnto (table.set zone (readSteps child)) (zone :: seen) rest = .error error := by
  rw [readZonesOnto]
  cases found : Zone.ofName? child.name with
  | none =>
      have nameless : ¬IsZone child := by simp [isZone_iff, found]
      constructor
      · rintro ⟨⟩
        exact .inl (.unknown nameless)
      · rintro (fault | ⟨zone, named, _⟩)
        · cases fault with
          | unknown => rfl
          | repeated isZone => exact absurd isZone nameless
        · exact absurd ⟨zone, named⟩ nameless
  | some zone =>
      have named := Zone.ofName?_eq_some_iff.mp found
      have told : child.name ∈ seen.map Zone.name ↔ zone ∈ seen := by simp [named, Zone.name_inj]
      dsimp only
      split
      case isTrue again =>
        constructor
        · rintro ⟨⟩
          exact .inl (.repeated ⟨zone, named⟩ (told.mpr again))
        · rintro (fault | ⟨other, namedToo, fresh, _⟩)
          · cases fault with
            | unknown nameless => exact absurd ⟨zone, named⟩ nameless
            | repeated => rfl
          · obtain rfl := Zone.name_inj.mp (named.symm.trans namedToo)
            exact absurd again fresh
      case isFalse fresh =>
        constructor
        · intro refused
          exact .inr ⟨zone, named, fresh, refused⟩
        · rintro (fault | ⟨other, namedToo, _, refused⟩)
          · cases fault with
            | unknown nameless => exact absurd ⟨zone, named⟩ nameless
            | repeated _ again => exact absurd (told.mp again) fresh
          · obtain rfl := Zone.name_inj.mp (named.symm.trans namedToo)
            exact refused

/-- The first child that is no zone, or a zone told before, is refused. -/
theorem readZonesOnto_eq_error_iff :
    readZonesOnto table seen elements = .error error ↔ ∃ before child after,
      elements = before ++ child :: after ∧ ZonesApart (seen.map Zone.name) before ∧
        ZoneFault (seen.map Zone.name ++ before.map Element.name) child error := by
  induction elements generalizing table seen with
  | nil => simp [readZonesOnto]
  | cons first rest inductionHypothesis =>
      rw [readZonesOnto_cons_eq_error_iff, exists_split_cons_iff]
      apply or_congr
      · simp [zonesApart_nil]
      · -- The names told before a later child are those of its zones in either order.
        have sameNames {zone : Zone} (named : first.name = zone.name) (before : List Element)
            (name : String) :
            name ∈ (zone :: seen).map Zone.name ++ before.map Element.name ↔
              name ∈ seen.map Zone.name ++ (first :: before).map Element.name := by
          simp only [List.map_cons, List.mem_append, List.mem_cons, named]
          tauto
        constructor
        · rintro ⟨zone, named, fresh, refused⟩
          obtain ⟨before, child, after, split, apart, fault⟩ := inductionHypothesis.mp refused
          have notTold : first.name ∉ seen.map Zone.name := by simpa [named, Zone.name_inj]
          rw [List.map_cons, ← named] at apart
          exact ⟨before, child, after, split,
            zonesApart_cons_iff.mpr ⟨⟨⟨zone, named⟩, notTold⟩, apart⟩,
            fault.mono (sameNames named before)⟩
        · rintro ⟨before, child, after, split, apart, fault⟩
          obtain ⟨⟨⟨zone, named⟩, notTold⟩, apart⟩ := zonesApart_cons_iff.mp apart
          refine ⟨zone, named, by simpa [named, Zone.name_inj] using notTold,
            inductionHypothesis.mpr ⟨before, child, after, split, ?_, ?_⟩⟩
          · rwa [List.map_cons, ← named]
          · exact fault.mono fun name => (sameNames named before name).symm

variable {marker : Element}

theorem readBranchTable_eq_error_iff (three : marker.elements.length = 3) :
    readBranchTable marker = .error error ↔ ∃ before child after,
      marker.elements = before ++ child :: after ∧ ZonesApart [] before ∧
        ZoneFault (before.map Element.name) child error := by
  have counted : readBranchTable marker =
      readZonesOnto BranchTable.empty [] marker.elements := if_pos three
  rw [counted, readZonesOnto_eq_error_iff]
  rfl

/-- Zones of which two are the same are refused for that, whatever stands behind them. -/
theorem readBranchTable_of_repeated (three : marker.elements.length = 3)
    (split : marker.elements = elements ++ rest) (zones : ∀ element ∈ elements, IsZone element)
    (again : ¬(elements.map Element.name).Nodup) :
    readBranchTable marker = .error (.incompleteBranchTable 3) := by
  obtain ⟨front, name, back, names, once, repeated⟩ := exists_first_repeated again
  obtain ⟨before, others, rfl, rfl, otherNames⟩ := List.map_eq_append_iff.mp names
  obtain ⟨child, after, rfl, rfl, _⟩ := List.map_eq_cons_iff.mp otherNames
  refine (readBranchTable_eq_error_iff three).mpr
    ⟨before, child, after ++ rest, by simp [split], ⟨?_, fun _ _ => List.not_mem_nil, once⟩,
      .repeated ?_ repeated⟩
  · exact fun element member => zones element (List.mem_append_left _ member)
  · exact zones child (by simp)

/-- How the three children of a choice are judged. -/
structure JudgedInTurn (children : List Element) (result : Except DocumentError BranchTable) :
    Prop where
  refused : ∀ error, result = .error error ↔ ∃ before child after,
    children = before ++ child :: after ∧ ZonesApart [] before ∧
      ZoneFault (before.map Element.name) child error
  /-- The first child that is no zone decides the error, unless a zone stands twice before it. -/
  unknown : ∀ before child after, children = before ++ child :: after →
    (∀ other ∈ before, IsZone other) → ¬IsZone child →
    result = .error (if (before.map Element.name).Nodup then .unknownName "target zone" child.name
      else .incompleteBranchTable 3)
  /-- A repetition decides the error if all children up to it are zones. -/
  incomplete : ∀ found, result = .error (.incompleteBranchTable found) ↔
    found = 3 ∧ ∃ before child after, children = before ++ child :: after ∧
      (∀ other ∈ before, IsZone other) ∧ IsZone child ∧ child.name ∈ before.map Element.name

theorem judgedInTurn_of_three (three : marker.elements.length = 3) :
    JudgedInTurn marker.elements (readBranchTable marker) where
  refused error := readBranchTable_eq_error_iff three
  unknown before child after split zones nameless := by
    split_ifs with once
    · exact (readBranchTable_eq_error_iff three).mpr ⟨before, child, after, split,
        ⟨zones, fun _ _ => List.not_mem_nil, once⟩, .unknown nameless⟩
    · exact readBranchTable_of_repeated three split zones once
  incomplete found := by
    constructor
    · intro refused
      obtain ⟨before, child, after, split, apart, fault⟩ :=
        (readBranchTable_eq_error_iff three).mp refused
      cases fault with
      | repeated isZone again =>
          exact ⟨rfl, before, child, after, split, apart.zones, isZone, again⟩
    · rintro ⟨rfl, before, child, after, split, zones, isZone, again⟩
      have around : marker.elements = (before ++ [child]) ++ after := by simp [split]
      refine readBranchTable_of_repeated three around ?_ ?_
      · simpa [or_imp, forall_and] using ⟨zones, isZone⟩
      · intro once
        rw [List.map_append, List.nodup_append] at once
        exact once.2.2 _ again _ (by simp) rfl

end Zones

/-- A choice that names one zone twice, and then no zone. -/
def leftTwice : Element :=
  ⟨branchMarker, [], [.element "LEFT" [] [], .element "LEFT" [] [], .element "MIDDLE" [] []]⟩

/-- The repetition is found first, so the unknown name is not. -/
theorem judgedInTurn_leftTwice :
    leftTwice.elements.length = 3 ∧ JudgedInTurn leftTwice.elements (readBranchTable leftTwice) ∧
      readBranchTable leftTwice = .error (.incompleteBranchTable 3) ∧
      ¬IsZone ⟨"MIDDLE", [], []⟩ := by
  have three : leftTwice.elements.length = 3 := rfl
  have judged := judgedInTurn_of_three three
  refine ⟨three, judged, ?_, ?_⟩
  · refine (judged.incomplete 3).mpr ⟨rfl, [⟨"LEFT", [], []⟩], ⟨"LEFT", [], []⟩,
      [⟨"MIDDLE", [], []⟩], rfl, ?_, ⟨.left, rfl⟩, by simp⟩
    intro other member
    rw [List.mem_singleton.mp member]
    exact ⟨.left, rfl⟩
  · rintro ⟨zone, same⟩
    cases zone <;> exact absurd same (by decide)

end Document

end RobotRoutine
