import Mathlib.Data.List.Nodup
import Mathlib.Tactic.Tauto
import RobotRoutine.Proofs.Document.Content

/-!
The order of the parameters.

The children of the parameters are read from left to right, and what is still to come decides which
of them may be read: the names that are read form a subsequence of the names of the places.  The
first child that is unknown, repeated, out of order or at fault in its content decides the error,
whatever follows it.  A place that no child names keeps its default.
-/

namespace RobotRoutine.Document

open Xml (Element)

/-- The names of elements are a subsequence of the names of places. -/
def InOrder (places : List ParameterPlace) (elements : List Element) : Prop :=
  (elements.map Element.name).Sublist (places.map ParameterPlace.name)

/-- Parameters have at a place what an element holds. -/
def Holds (element : Element) (parameters : Parameters) : ParameterPlace → Prop
  | .threshold => HoldsThreshold element parameters.loggingThreshold
  | .pose => ∃ pose, parameters.startingPose = some pose ∧ HoldsPose element pose
  | .region => HoldsRegion element parameters.regionOfInterest
  | .tags => HoldsTags element parameters.tagsOfInterest

def AgreeAt (parameters other : Parameters) : ParameterPlace → Prop
  | .threshold => parameters.loggingThreshold = other.loggingThreshold
  | .pose => parameters.startingPose = other.startingPose
  | .region => parameters.regionOfInterest = other.regionOfInterest
  | .tags => parameters.tagsOfInterest = other.tagsOfInterest

/-- An element that names a place and holds something for it. -/
def ValidContent (element : Element) : Prop :=
  ∃ place parameters, element.name = place.name ∧ Holds element parameters place

section Read

variable {place other : ParameterPlace} {element : Element} {before after : Parameters}
  {error : DocumentError}

theorem AgreeAt.refl (parameters : Parameters) : AgreeAt parameters parameters place := by
  cases place <;> rfl

theorem AgreeAt.trans {first second third : Parameters} (agree : AgreeAt first second place)
    (next : AgreeAt second third place) : AgreeAt first third place := by
  cases place <;> exact Eq.trans agree next

theorem Holds.of_agreeAt {parameters rival : Parameters} (holds : Holds element parameters place)
    (agree : AgreeAt rival parameters place) : Holds element rival place := by
  cases place <;> simp only [AgreeAt] at agree <;> simp only [Holds, agree] <;> exact holds

theorem holds_read (read : place.read before element = .ok after) :
    Holds element after place := by
  cases place <;> obtain ⟨_, given, same⟩ := bind_eq_ok_iff.mp read <;> cases same
  case threshold => exact readThreshold_eq_ok_iff.mp given
  case pose => exact ⟨_, rfl, readPose_eq_ok_iff.mp given⟩
  case region => exact readRegion_eq_ok_iff.mp given
  case tags => exact holdsTags_of_readTags given

/-- Reading changes the parameters at no other place. -/
theorem agreeAt_read (read : place.read before element = .ok after) (different : other ≠ place) :
    AgreeAt after before other := by
  cases place <;> obtain ⟨_, _, same⟩ := bind_eq_ok_iff.mp read <;> cases same <;> cases other
  all_goals first | rfl | exact absurd rfl different

theorem exists_read_of_holds {parameters : Parameters} (holds : Holds element parameters place)
    (before : Parameters) : ∃ after, place.read before element = .ok after := by
  cases place with
  | threshold => exact ⟨_, bind_eq_ok_iff.mpr ⟨_, readThreshold_eq_ok_iff.mpr holds, rfl⟩⟩
  | pose =>
      obtain ⟨pose, _, holds⟩ := holds
      exact ⟨_, bind_eq_ok_iff.mpr ⟨_, readPose_eq_ok_iff.mpr holds, rfl⟩⟩
  | region => exact ⟨_, bind_eq_ok_iff.mpr ⟨_, readRegion_eq_ok_iff.mpr holds, rfl⟩⟩
  | tags =>
      obtain ⟨_, given⟩ := exists_readTagsOnto_iff.mpr holds.known
      exact ⟨_, bind_eq_ok_iff.mpr ⟨_, given, rfl⟩⟩

theorem read_eq_error_iff (before : Parameters) :
    place.read before element = .error error ↔ ContentFault place element error := by
  cases place with
  | threshold => exact bind_ok_eq_error_iff.trans readThreshold_eq_error_iff
  | pose => exact bind_ok_eq_error_iff.trans readPose_eq_error_iff
  | region => exact bind_ok_eq_error_iff.trans readRegion_eq_error_iff
  | tags => exact bind_ok_eq_error_iff.trans readTags_eq_error_iff

end Read

/-! The order. -/

variable {places : List ParameterPlace} {place : ParameterPlace} {element child : Element}
  {elements earlier rest : List Element} {before after : Parameters} {error : DocumentError}

theorem inOrder_nil : InOrder places [] := List.nil_sublist _

theorem inOrder_cons_of_named (named : element.name = place.name) :
    InOrder (place :: places) (element :: rest) ↔ InOrder places rest := by
  rw [InOrder, List.map_cons, List.map_cons, named]
  exact List.cons_sublist_cons

/-- A place whose name the first element does not bear is passed over. -/
theorem inOrder_cons_of_other (other : element.name ≠ place.name) :
    InOrder (place :: places) (element :: rest) ↔ InOrder places (element :: rest) := by
  rw [InOrder, List.map_cons, List.map_cons, List.cons_sublist_cons']
  exact or_iff_left fun both => other both.1

theorem not_inOrder_of_none : ¬InOrder [] (element :: rest) := nofun

/-- A name goes on with a subsequence if it stands behind all names of it. -/
theorem append_singleton_sublist_iff {α : Type} {names earlier : List α} {name : α}
    (once : names.Nodup) (inOrder : earlier.Sublist names) :
    (earlier ++ [name]).Sublist names ↔
      name ∈ names ∧ name ∉ earlier ∧ ∀ other ∈ earlier, ¬[name, other].Sublist names := by
  constructor
  · intro more
    obtain ⟨front, back, rfl, inFront, inBack⟩ := List.append_sublist_iff.mp more
    have isBehind := List.singleton_sublist.mp inBack
    have apart := (List.nodup_append.mp once).2.2
    refine ⟨List.mem_append_right front isBehind, ?_, ?_⟩
    · intro repeated
      exact apart name (inFront.subset repeated) name isBehind rfl
    · intro other before ahead
      obtain ⟨first, second, split, inFrontToo, inBackToo⟩ := List.sublist_append_iff.mp ahead
      cases first with
      | nil =>
          rw [List.nil_append] at split
          have isBehindToo : other ∈ back := inBackToo.subset (split ▸ by simp)
          exact apart other (inFront.subset before) other isBehindToo rfl
      | cons first rest =>
          obtain ⟨rfl, _⟩ := List.cons.inj split
          exact apart name (inFrontToo.subset List.mem_cons_self) name isBehind rfl
  · rintro ⟨known, fresh, behind⟩
    obtain ⟨front, back, rfl⟩ := List.append_of_mem known
    obtain ⟨first, second, rfl, inFront, inBack⟩ := List.sublist_append_iff.mp inOrder
    cases second with
    | nil =>
        rw [List.append_nil]
        exact inFront.append (List.singleton_sublist.mpr List.mem_cons_self)
    | cons other rest =>
        have member : other ∈ first ++ other :: rest := by simp
        rcases List.mem_cons.mp (inBack.subset List.mem_cons_self) with rfl | isBehind
        · exact absurd member fresh
        · refine absurd ?_ (behind other member)
          have pair : [name, other].Sublist (name :: back) :=
            (List.singleton_sublist.mpr isBehind).cons_cons name
          exact pair.trans (List.sublist_append_right front _)

/-- What goes wrong at a child behind elements that were read. -/
def FaultAt (places : List ParameterPlace) (error : DocumentError) (earlier : List Element)
    (child : Element) : Prop :=
  InOrder places earlier ∧ (∀ element ∈ earlier, ValidContent element) ∧
    ((¬InOrder places (earlier ++ [child]) ∧
        error = .unexpectedElement "parameters" child.name) ∨
      (InOrder places (earlier ++ [child]) ∧
        ∃ place, child.name = place.name ∧ ContentFault place child error))

def FirstFault (places : List ParameterPlace) (elements : List Element) (error : DocumentError) :
    Prop :=
  ∃ earlier child later, elements = earlier ++ child :: later ∧ FaultAt places error earlier child

theorem not_firstFault_nil : ¬FirstFault places [] error := by
  rintro ⟨earlier, child, later, same, _⟩
  simp at same

theorem firstFault_of_none :
    FirstFault [] (element :: rest) error ↔
      error = .unexpectedElement "parameters" element.name := by
  simp only [FirstFault, exists_split_cons_iff, FaultAt, List.nil_append, List.cons_append,
    not_inOrder_of_none, inOrder_nil, not_false_eq_true, true_and, false_and, and_false, or_false,
    exists_false, List.not_mem_nil, false_implies, implies_true]

theorem firstFault_cons_of_other (other : element.name ≠ place.name) :
    FirstFault (place :: places) (element :: rest) error ↔
      FirstFault places (element :: rest) error := by
  simp only [FirstFault, exists_split_cons_iff, FaultAt, List.nil_append, List.cons_append,
    inOrder_cons_of_other other, inOrder_nil]

theorem validContent_iff (named : element.name = place.name) :
    ValidContent element ↔ ∃ parameters, Holds element parameters place := by
  constructor
  · rintro ⟨other, parameters, namedToo, holds⟩
    obtain rfl := ParameterPlace.name_injective (namedToo.symm.trans named)
    exact ⟨parameters, holds⟩
  · rintro ⟨parameters, holds⟩
    exact ⟨place, parameters, named, holds⟩

theorem faultAt_nil_of_named (named : element.name = place.name) :
    FaultAt (place :: places) error [] element ↔ ContentFault place element error := by
  have here : (∃ other : ParameterPlace, element.name = other.name ∧
      ContentFault other element error) ↔ ContentFault place element error := by
    constructor
    · rintro ⟨other, namedToo, fault⟩
      obtain rfl := ParameterPlace.name_injective (namedToo.symm.trans named)
      exact fault
    · exact fun fault => ⟨place, named, fault⟩
  rw [FaultAt, List.nil_append, inOrder_cons_of_named named, here]
  simp [inOrder_nil]

theorem faultAt_cons_of_named (named : element.name = place.name) :
    FaultAt (place :: places) error (element :: earlier) child ↔
      ValidContent element ∧ FaultAt places error earlier child := by
  simp only [FaultAt, List.cons_append, inOrder_cons_of_named named, List.forall_mem_cons]
  tauto

/-- The first element is at fault, or it is read and one behind it is at fault, for which only the
places behind are left. -/
theorem firstFault_cons_of_named (named : element.name = place.name) :
    FirstFault (place :: places) (element :: rest) error ↔
      ContentFault place element error ∨
        ValidContent element ∧ FirstFault places rest error := by
  rw [FirstFault, exists_split_cons_iff, faultAt_nil_of_named named]
  refine or_congr_right ⟨?_, ?_⟩
  · rintro ⟨earlier, child, later, split, fault⟩
    obtain ⟨valid, fault⟩ := (faultAt_cons_of_named named).mp fault
    exact ⟨valid, earlier, child, later, split, fault⟩
  · rintro ⟨valid, earlier, child, later, split, fault⟩
    exact ⟨earlier, child, later, split, (faultAt_cons_of_named named).mpr ⟨valid, fault⟩⟩

/-! Reading. -/

theorem exists_read_iff (named : element.name = place.name) (before : Parameters) :
    (∃ after, place.read before element = .ok after) ↔ ValidContent element := by
  rw [validContent_iff named]
  constructor
  · rintro ⟨after, read⟩
    exact ⟨after, holds_read read⟩
  · rintro ⟨_, holds⟩
    exact exists_read_of_holds holds before

theorem exists_readPlaces_iff (places : List ParameterPlace) (elements : List Element)
    (before : Parameters) :
    (∃ after, readPlaces places elements before = .ok after) ↔
      InOrder places elements ∧ ∀ element ∈ elements, ValidContent element := by
  fun_induction readPlaces places elements before with
  | case1 => simp [inOrder_nil]
  | case2 => simp [not_inOrder_of_none]
  | case3 place places element rest before named inductionHypothesis =>
      rw [inOrder_cons_of_named named, List.forall_mem_cons, ← exists_read_iff named before]
      constructor
      · rintro ⟨after, read⟩
        obtain ⟨middle, readHere, readRest⟩ := bind_eq_ok_iff.mp read
        obtain ⟨inOrder, valid⟩ := (inductionHypothesis middle).mp ⟨after, readRest⟩
        exact ⟨inOrder, ⟨middle, readHere⟩, valid⟩
      · rintro ⟨inOrder, ⟨middle, readHere⟩, valid⟩
        obtain ⟨after, readRest⟩ := (inductionHypothesis middle).mpr ⟨inOrder, valid⟩
        exact ⟨after, bind_eq_ok_iff.mpr ⟨middle, readHere, readRest⟩⟩
  | case4 place places element rest before other inductionHypothesis =>
      rw [inOrder_cons_of_other other, inductionHypothesis]

theorem readPlaces_eq_error_iff (places : List ParameterPlace) (elements : List Element)
    (before : Parameters) :
    readPlaces places elements before = .error error ↔ FirstFault places elements error := by
  fun_induction readPlaces places elements before with
  | case1 => simp [not_firstFault_nil]
  | case2 => simp [firstFault_of_none, eq_comm]
  | case3 place places element rest before named inductionHypothesis =>
      rw [firstFault_cons_of_named named, ← exists_read_iff named before,
        ← read_eq_error_iff before]
      refine bind_eq_error_iff.trans (or_congr_right ?_)
      simp only [inductionHypothesis, exists_and_right]
  | case4 place places element rest before other inductionHypothesis =>
      rw [firstFault_cons_of_other other, inductionHypothesis]

/-- Each place has what the element of its name holds, or what it had before. -/
theorem holds_readPlaces (once : places.Nodup)
    (read : readPlaces places elements before = .ok after) (place : ParameterPlace) :
    (∀ element ∈ elements, element.name = place.name → Holds element after place) ∧
      ((∀ element ∈ elements, element.name ≠ place.name) → AgreeAt after before place) := by
  fun_induction readPlaces places elements before with
  | case1 =>
      cases read
      exact ⟨List.forall_mem_nil _, fun _ => .refl _⟩
  | case2 => cases read
  | case3 here places element rest before named inductionHypothesis =>
      obtain ⟨middle, readHere, readRest⟩ := bind_eq_ok_iff.mp read
      obtain ⟨fresh, onceRest⟩ := List.nodup_cons.mp once
      obtain ⟨given, kept⟩ := inductionHypothesis middle onceRest readRest
      rw [List.forall_mem_cons, List.forall_mem_cons]
      refine ⟨⟨?_, given⟩, ?_⟩
      · intro namedToo
        obtain rfl := ParameterPlace.name_injective (named.symm.trans namedToo)
        refine (holds_read readHere).of_agreeAt (kept ?_)
        intro other member same
        obtain ⟨found, isLeft, sameToo⟩ := exists_place_of_readPlaces readRest other member
        obtain rfl := ParameterPlace.name_injective (sameToo.symm.trans same)
        exact fresh isLeft
      · rintro ⟨notHere, notLater⟩
        exact (kept notLater).trans
          (agreeAt_read readHere fun same => notHere (same ▸ named))
  | case4 _ _ _ _ _ _ inductionHypothesis =>
      exact inductionHypothesis (List.nodup_cons.mp once).2 read

/-! The parameters of a section, with their four places. -/

/-- A child that may not stand behind the children before it: its name is unknown, one of theirs,
or that of a place ahead of one of theirs. -/
inductive Misplaced (earlier : List Element) (child : Element) : Prop where
  | unknown (nameless : ∀ place : ParameterPlace, child.name ≠ place.name)
  | repeated {element : Element} (before : element ∈ earlier) (same : child.name = element.name)
  | late {element : Element} {place passed : ParameterPlace} (before : element ∈ earlier)
      (named : child.name = place.name) (namedBefore : element.name = passed.name)
      (ahead : [place, passed].Sublist ParameterPlace.all)

theorem ParameterPlace.mem_all (place : ParameterPlace) : place ∈ ParameterPlace.all := by
  cases place <;> simp [all]

theorem misplaced_iff (inOrder : InOrder ParameterPlace.all earlier) :
    Misplaced earlier child ↔ ¬InOrder ParameterPlace.all (earlier ++ [child]) := by
  have once : (ParameterPlace.all.map ParameterPlace.name).Nodup := by decide
  rw [InOrder, List.map_append, List.map_singleton, append_singleton_sublist_iff once inOrder]
  constructor
  · rintro misplaced ⟨known, fresh, behind⟩
    cases misplaced with
    | unknown nameless =>
        obtain ⟨place, _, named⟩ := List.mem_map.mp known
        exact nameless place named.symm
    | repeated before same => exact fresh (same ▸ List.mem_map_of_mem before)
    | late before named namedBefore ahead =>
        refine behind _ (List.mem_map_of_mem before) ?_
        rw [named, namedBefore]
        exact ahead.map ParameterPlace.name
  · intro outside
    by_contra placed
    refine outside ⟨?_, ?_, ?_⟩
    · by_contra unknown
      refine placed (.unknown fun place named => unknown ?_)
      exact named ▸ List.mem_map_of_mem place.mem_all
    · intro repeated
      obtain ⟨element, before, same⟩ := List.mem_map.mp repeated
      exact placed (.repeated before same.symm)
    · intro other member ahead
      obtain ⟨element, before, rfl⟩ := List.mem_map.mp member
      obtain ⟨pair, inPlaces, same⟩ := List.sublist_map_iff.mp ahead
      obtain ⟨place, more, rfl, named, rest⟩ := List.map_eq_cons_iff.mp same.symm
      obtain ⟨passed, more, rfl, namedBefore, last⟩ := List.map_eq_cons_iff.mp rest
      obtain rfl := List.map_eq_nil_iff.mp last
      exact placed (.late before named.symm namedBefore.symm inPlaces)

/-- What goes wrong at a child if nothing has gone wrong at those before it. -/
inductive ChildFault (earlier : List Element) (child : Element) : DocumentError → Prop where
  | misplaced (misplaced : Misplaced earlier child) :
      ChildFault earlier child (.unexpectedElement "parameters" child.name)
  | content {place : ParameterPlace} {error : DocumentError} (placed : ¬Misplaced earlier child)
      (named : child.name = place.name) (fault : ContentFault place child error) :
      ChildFault earlier child error

theorem faultAt_all_iff :
    FaultAt ParameterPlace.all error earlier child ↔ InOrder ParameterPlace.all earlier ∧
      (∀ element ∈ earlier, ValidContent element) ∧ ChildFault earlier child error := by
  refine and_congr_right fun inOrder => and_congr_right fun _ => ?_
  have placed : InOrder ParameterPlace.all (earlier ++ [child]) ↔ ¬Misplaced earlier child := by
    rw [misplaced_iff inOrder, not_not]
  rw [← misplaced_iff inOrder, placed]
  constructor
  · rintro (⟨misplaced, rfl⟩ | ⟨placed, place, named, fault⟩)
    · exact .misplaced misplaced
    · exact .content placed named fault
  · intro fault
    cases fault with
    | misplaced misplaced => exact .inl ⟨misplaced, rfl⟩
    | content placed named fault => exact .inr ⟨placed, _, named, fault⟩

/-- What children are read as if they are the parameters of a section. -/
structure ReadInOrder (children : List Element) (result : Except DocumentError Parameters) :
    Prop where
  accepted : (∃ parameters, result = .ok parameters) ↔
    InOrder ParameterPlace.all children ∧ ∀ child ∈ children, ValidContent child
  given : ∀ parameters, result = .ok parameters → ∀ place : ParameterPlace,
    ∀ child ∈ children, child.name = place.name → Holds child parameters place
  /-- A place that no child names keeps its default. -/
  absent : ∀ parameters, result = .ok parameters → ∀ place : ParameterPlace,
    (∀ child ∈ children, child.name ≠ place.name) → AgreeAt parameters Parameters.initial place
  /-- The first child at fault decides the error, whatever stands behind it. -/
  refused : ∀ error, result = .error error ↔ ∃ earlier child later,
    children = earlier ++ child :: later ∧ InOrder ParameterPlace.all earlier ∧
      (∀ before ∈ earlier, ValidContent before) ∧ ChildFault earlier child error

/-- The parameters are read from left to right, each at its place in the order. -/
theorem readInOrder_readParameters (element : Element) :
    ReadInOrder element.elements (readParameters element) where
  accepted := exists_readPlaces_iff ParameterPlace.all element.elements Parameters.initial
  given parameters read place := (holds_readPlaces (by decide) read place).1
  absent parameters read place := (holds_readPlaces (by decide) read place).2
  refused error := by
    rw [readParameters, readPlaces_eq_error_iff, FirstFault]
    simp only [faultAt_all_iff]

/-! Tags and region of a section. -/

/-- Of elements that all have different names, one alone has the name of a place. -/
theorem tagElements_eq_singleton (once : (elements.map Element.name).Nodup)
    (member : element ∈ elements) (named : element.name = ParameterPlace.tags.name) :
    tagElements elements = [element] := by
  obtain ⟨earlier, later, rfl⟩ := List.append_of_mem member
  rw [List.map_append, List.map_cons, List.nodup_middle, List.nodup_cons, ← List.map_append] at once
  have others : ∀ other ∈ earlier ++ later, ¬(other.name == ParameterPlace.tags.name) = true := by
    intro other isOther same
    refine once.1 (List.mem_map.mpr ⟨other, isOther, ?_⟩)
    rw [named]
    exact beq_iff_eq.mp same
  rw [tagElements, List.filter_append, List.filter_cons_of_pos (by simpa using named)]
  rw [List.forall_mem_append] at others
  rw [List.filter_eq_nil_iff.mpr others.1, List.filter_eq_nil_iff.mpr others.2]
  rfl

theorem readParameters_spec {element : Element} {parameters : Parameters}
    (read : readParameters element = .ok parameters) :
    parameters.regionOfInterest.Sized ∧
      FirstAppearances ((tagElements element.elements).flatMap fun named =>
        tagsNamed named.elements) parameters.tagsOfInterest := by
  have inOrder := ((exists_readPlaces_iff _ _ _).mp ⟨parameters, read⟩).1
  have once : (element.elements.map Element.name).Nodup := inOrder.nodup (by decide)
  have held := holds_readPlaces (by decide) read
  constructor
  · by_cases named : ∃ child ∈ element.elements, child.name = ParameterPlace.region.name
    · obtain ⟨child, member, named⟩ := named
      exact ((held .region).1 child member named).sized
    · have same : parameters.regionOfInterest = Region.empty :=
        (held .region).2 fun child member same => named ⟨child, member, same⟩
      rw [same]
      exact ⟨Int.le_refl 0, Int.le_refl 0⟩
  · by_cases named : ∃ child ∈ element.elements, child.name = ParameterPlace.tags.name
    · obtain ⟨child, member, named⟩ := named
      rw [tagElements_eq_singleton once member named]
      simpa using ((held .tags).1 child member named).tags
    · have none : tagElements element.elements = [] := by
        refine List.filter_eq_nil_iff.mpr fun child member same => named ⟨child, member, ?_⟩
        exact beq_iff_eq.mp same
      have same : parameters.tagsOfInterest = [] :=
        (held .tags).2 fun child member same => named ⟨child, member, same⟩
      rw [none, same]
      exact ⟨.nil, by simp, .nil⟩

end RobotRoutine.Document
