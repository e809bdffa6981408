import Mathlib.Data.List.Basic
import RobotRoutine.Document.Parameters

/-!
What parameters that were read may hold.

Tags are collected from left to right, so each named tag is kept where it first appears.  The region
is the empty one of a section that gives none, or one whose extents were found not to be negative.
-/

namespace RobotRoutine

/-- Tags hold each named tag once, in the order of first appearance. -/
structure FirstAppearances (named tags : List TagId) : Prop where
  once : tags.Nodup
  mem_iff : ∀ tag, tag ∈ tags ↔ tag ∈ named
  inOrder : tags.Pairwise fun earlier later => named.idxOf earlier < named.idxOf later

structure Region.Sized (region : Region) : Prop where
  width : 0 ≤ region.width
  height : 0 ≤ region.height

theorem exists_of_bind_eq_ok {ε α β : Type} {first : Except ε α} {next : α → Except ε β} {b : β}
    (read : first.bind next = .ok b) : ∃ a, first = .ok a ∧ next a = .ok b := by
  cases first with
  | error error => cases read
  | ok a => exact ⟨a, rfl, read⟩

/-- What is found by its name has that name. -/
theorem eq_name_of_find? {α : Type} {name : α → String} {all : List α} {text : String} {a : α}
    (found : (all.find? fun candidate => name candidate == text) = some a) : text = name a :=
  have same := List.find?_some found
  (beq_iff_eq.mp same).symm

namespace Document

open Xml (Element)

theorem mem_addTag_iff {tags : List TagId} {tag other : TagId} :
    other ∈ addTag tags tag ↔ other ∈ tags ∨ other = tag := by
  unfold addTag
  split
  case isTrue known =>
    constructor
    · exact .inl
    · rintro (member | rfl)
      · exact member
      · exact known
  case isFalse => simp

/-- One more named tag is put behind the others unless it has appeared already. -/
theorem firstAppearances_addTag {named tags : List TagId} {tag : TagId}
    (first : FirstAppearances named tags) :
    FirstAppearances (named ++ [tag]) (addTag tags tag) := by
  have place {other : TagId} (member : other ∈ tags) :
      (named ++ [tag]).idxOf other = named.idxOf other :=
    List.idxOf_append_of_mem ((first.mem_iff other).mp member)
  have kept : tags.Pairwise fun earlier later =>
      (named ++ [tag]).idxOf earlier < (named ++ [tag]).idxOf later := by
    refine first.inOrder.imp_of_mem ?_
    intro earlier later memberEarlier memberLater below
    rw [place memberEarlier, place memberLater]
    exact below
  have members (other : TagId) : other ∈ addTag tags tag ↔ other ∈ named ++ [tag] := by
    rw [mem_addTag_iff, first.mem_iff, List.mem_append, List.mem_singleton]
  by_cases known : tag ∈ tags
  · have same : addTag tags tag = tags := if_pos known
    rw [same] at members ⊢
    exact ⟨first.once, members, kept⟩
  · have same : addTag tags tag = tags ++ [tag] := if_neg known
    rw [same] at members ⊢
    refine ⟨List.nodup_append.mpr ⟨first.once, by simp, ?_⟩, members,
      List.pairwise_append.mpr ⟨kept, by simp, ?_⟩⟩
    · intro other member last isLast equal
      rw [List.mem_singleton.mp isLast] at equal
      exact known (equal ▸ member)
    · intro earlier member last isLast
      rw [List.mem_singleton.mp isLast, place member,
        List.idxOf_append_of_notMem (mt (first.mem_iff tag).mpr known)]
      have before := List.idxOf_lt_length_of_mem ((first.mem_iff earlier).mp member)
      omega

/-- The tags that elements name, repetitions included. -/
def tagsNamed (elements : List Element) : List TagId :=
  elements.filterMap fun element => TagId.ofName? element.name

theorem firstAppearances_readTagsOnto {elements : List Element} {named known tags : List TagId}
    (first : FirstAppearances named known) (read : readTagsOnto known elements = .ok tags) :
    FirstAppearances (named ++ tagsNamed elements) tags := by
  induction elements generalizing named known with
  | nil =>
      cases read
      simpa [tagsNamed] using first
  | cons element rest inductionHypothesis =>
      rw [readTagsOnto] at read
      cases found : TagId.ofName? element.name with
      | none =>
          rw [found] at read
          cases read
      | some tag =>
          rw [found] at read
          have more := inductionHypothesis (firstAppearances_addTag first) read
          simpa [tagsNamed, found] using more

theorem firstAppearances_readTags {element : Element} {tags : List TagId}
    (read : readTags element = .ok tags) :
    FirstAppearances (tagsNamed element.elements) tags := by
  have none : FirstAppearances [] [] := ⟨.nil, by simp, .nil⟩
  exact firstAppearances_readTagsOnto none read

theorem requireExtent_eq_ok_iff {name : String} {extent : Int} :
    requireExtent name extent = .ok () ↔ 0 ≤ extent := by
  unfold requireExtent
  split <;> simp <;> omega

theorem exists_place_of_readPlaces {places : List ParameterPlace} {elements : List Element}
    {before after : Parameters} (read : readPlaces places elements before = .ok after) :
    ∀ element ∈ elements, ∃ place ∈ places, element.name = place.name := by
  fun_induction readPlaces places elements before with
  | case1 => simp
  | case2 => cases read
  | case3 place places element rest before named inductionHypothesis =>
      obtain ⟨middle, _, readRest⟩ := exists_of_bind_eq_ok read
      rw [List.forall_mem_cons]
      refine ⟨⟨place, by simp, named⟩, ?_⟩
      intro other member
      obtain ⟨found, isLeft, same⟩ := inductionHypothesis middle readRest other member
      exact ⟨found, List.mem_cons_of_mem place isLeft, same⟩
  | case4 place places element rest before other inductionHypothesis =>
      intro another member
      obtain ⟨found, isLeft, same⟩ := inductionHypothesis read another member
      exact ⟨found, List.mem_cons_of_mem place isLeft, same⟩

theorem ParameterPlace.name_injective : Function.Injective ParameterPlace.name := by
  intro place other same
  cases place <;> cases other <;> first | rfl | exact absurd same (by decide)

def tagElements (elements : List Element) : List Element :=
  elements.filter fun element => element.name == ParameterPlace.tags.name

end Document

end RobotRoutine
