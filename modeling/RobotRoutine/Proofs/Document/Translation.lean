import Mathlib.Data.String.Basic
import RobotRoutine.Document.Actions

/-!
The steps that elements are translated into.

A step has the name of its element and its attributes by their local names.  Of several attributes
with one local name, which come from different namespaces, the last one stays.  The keys of a step
stand in order, each once.
-/

namespace RobotRoutine

namespace ActionStep

def Ordered (attributes : List (String × String)) : Prop :=
  attributes.Pairwise fun first second => first.1 < second.1

theorem lookup_cons (key value other : String) (rest : List (String × String)) :
    ((key, value) :: rest).lookup other =
      if other = key then some value else rest.lookup other := by
  rw [List.lookup_cons]
  by_cases same : other = key
  · subst same
    rw [beq_self_eq_true, if_pos rfl]
  · rw [beq_false_of_ne same, if_neg same]

theorem lookup_insertAttribute (key value other : String) (kept : List (String × String)) :
    (insertAttribute key value kept).lookup other =
      if other = key then some value else kept.lookup other := by
  induction kept with
  | nil => exact lookup_cons key value other []
  | cons pair rest inductionHypothesis =>
      obtain ⟨k, v⟩ := pair
      rw [insertAttribute]
      by_cases same : key = k
      · subst same
        rw [if_pos (beq_self_eq_true key), lookup_cons, lookup_cons]
        split <;> rfl
      · rw [if_neg (by simpa using same)]
        split
        · exact lookup_cons key value other _
        · rw [lookup_cons, inductionHypothesis, lookup_cons]
          by_cases isKey : other = key
          · subst isKey
            rw [if_neg same, if_pos rfl, if_pos rfl]
          · rw [if_neg isKey, if_neg isKey]

theorem mem_insertAttribute {key value : String} {kept : List (String × String)}
    {pair : String × String} (member : pair ∈ insertAttribute key value kept) :
    pair = (key, value) ∨ pair ∈ kept := by
  induction kept with
  | nil => exact .inl (List.mem_singleton.mp member)
  | cons first rest inductionHypothesis =>
      rw [insertAttribute] at member
      split_ifs at member <;> rw [List.mem_cons] at member
      · exact member.imp_right (List.mem_cons_of_mem _)
      · exact member
      · rcases member with rfl | later
        · exact .inr List.mem_cons_self
        · exact (inductionHypothesis later).imp_right (List.mem_cons_of_mem _)

theorem ordered_insertAttribute {kept : List (String × String)} (ordered : Ordered kept)
    (key value : String) : Ordered (insertAttribute key value kept) := by
  induction kept with
  | nil => exact List.pairwise_singleton _ _
  | cons first rest inductionHypothesis =>
      obtain ⟨behind, orderedRest⟩ := List.pairwise_cons.mp ordered
      rw [insertAttribute]
      split_ifs with same before
      · rw [beq_iff_eq] at same
        subst same
        exact List.pairwise_cons.mpr ⟨behind, orderedRest⟩
      · refine List.pairwise_cons.mpr ⟨?_, ordered⟩
        exact List.forall_mem_cons.mpr
          ⟨before, fun pair member => before.trans (behind pair member)⟩
      · refine List.pairwise_cons.mpr ⟨?_, inductionHypothesis orderedRest⟩
        intro pair member
        rcases mem_insertAttribute member with rfl | later
        · rw [beq_iff_eq] at same
          exact lt_of_le_of_ne (not_lt.mp before) (Ne.symm same)
        · exact behind pair later

end ActionStep

namespace Document

open Xml (Element Attribute)

/-- The last of the attributes with a local name. -/
def lastValue? (attributes : List Attribute) (key : String) : Option String :=
  (attributes.filter fun a => a.name = key).getLast?.map Attribute.value

/-- A step is the translation of an element. -/
structure Translates (element : Element) (step : ActionStep) : Prop where
  name : step.name = element.name
  attributes : ∀ key, step.attribute? key = lastValue? element.attributes key
  ordered : ActionStep.Ordered step.attributes

theorem lastValue?_cons (a : Attribute) (rest : List Attribute) (key : String) :
    lastValue? (a :: rest) key =
      (lastValue? rest key).or (if key = a.name then some a.value else none) := by
  unfold lastValue?
  by_cases same : a.name = key
  · rw [List.filter_cons_of_pos (by simpa using same), List.getLast?_cons, if_pos same.symm]
    cases (rest.filter fun a => a.name = key).getLast? <;> rfl
  · rw [List.filter_cons_of_neg (by simpa using same), if_neg (Ne.symm same), Option.or_none]

theorem lookup_foldl_insertAttribute (attributes : List Attribute) (key : String)
    (kept : List (String × String)) :
    (attributes.foldl (fun kept a => ActionStep.insertAttribute a.name a.value kept) kept).lookup
        key = (lastValue? attributes key).or (kept.lookup key) := by
  induction attributes generalizing kept with
  | nil => rfl
  | cons a rest inductionHypothesis =>
      rw [List.foldl_cons, inductionHypothesis, ActionStep.lookup_insertAttribute,
        lastValue?_cons, Option.or_assoc]
      split <;> rfl

theorem ordered_foldl_insertAttribute (attributes : List Attribute)
    {kept : List (String × String)} (ordered : ActionStep.Ordered kept) :
    ActionStep.Ordered
      (attributes.foldl (fun kept a => ActionStep.insertAttribute a.name a.value kept) kept) := by
  induction attributes generalizing kept with
  | nil => exact ordered
  | cons a rest inductionHypothesis =>
      exact inductionHypothesis (ActionStep.ordered_insertAttribute ordered a.name a.value)

theorem attributes_readStep (element : Element) :
    (readStep element).attributes = element.attributes.foldl
      (fun kept a => ActionStep.insertAttribute a.name a.value kept) [] :=
  List.foldl_map

theorem translates_readStep (element : Element) : Translates element (readStep element) where
  name := rfl
  attributes key := by
    rw [ActionStep.attribute?, attributes_readStep, lookup_foldl_insertAttribute]
    exact Option.or_none
  ordered := by
    rw [attributes_readStep]
    exact ordered_foldl_insertAttribute _ List.Pairwise.nil

end Document

end RobotRoutine
