import RobotRoutine.Proofs.Document.Parameters

/-!
What a parameter holds, and what may be wrong with it.

A parameter holds one value: a level, a pose, a region or tags.  The fields of a pose and of a
region are their first child elements, in a fixed order; the first of them that is absent, blank or
cannot be read is at fault, whatever the others are.  The readers give exactly these values and
faults.
-/

namespace RobotRoutine

/-- An element at which a list may be split is the first one or a later one. -/
theorem exists_split_cons_iff {α : Type} {first : α} {rest : List α} {P : List α → α → Prop} :
    (∃ before a after, first :: rest = before ++ a :: after ∧ P before a) ↔
      P [] first ∨ ∃ before a after, rest = before ++ a :: after ∧ P (first :: before) a := by
  constructor
  · rintro ⟨before, a, after, same, holds⟩
    cases before with
    | nil =>
        cases same
        exact .inl holds
    | cons other before =>
        cases same
        exact .inr ⟨before, a, after, rfl, holds⟩
  · rintro (holds | ⟨before, a, after, rfl, holds⟩)
    · exact ⟨[], first, rest, rfl, holds⟩
    · exact ⟨first :: before, a, after, rfl, holds⟩

theorem bind_eq_ok_iff {ε α β : Type} {first : Except ε α} {next : α → Except ε β} {b : β} :
    first.bind next = .ok b ↔ ∃ a, first = .ok a ∧ next a = .ok b := by
  constructor
  · exact exists_of_bind_eq_ok
  · rintro ⟨a, rfl, read⟩
    exact read

theorem bind_eq_error_iff {ε α β : Type} {first : Except ε α} {next : α → Except ε β} {error : ε} :
    first.bind next = .error error ↔
      first = .error error ∨ ∃ a, first = .ok a ∧ next a = .error error := by
  cases first with
  | error other => simp [Except.bind]
  | ok a => simp [Except.bind]

/-- A value is only passed on, so nothing new can go wrong. -/
theorem bind_ok_eq_error_iff {ε α β : Type} {first : Except ε α} {f : α → β} {error : ε} :
    (first.bind fun a => .ok (f a)) = .error error ↔ first = .error error := by
  cases first <;> simp [Except.bind]

theorem LogThreshold.ofCode?_eq_some_iff {text : String} {threshold : LogThreshold} :
    LogThreshold.ofCode? text = some threshold ↔ text = threshold.code := by
  constructor
  · exact eq_name_of_find?
  · rintro rfl
    cases threshold <;> decide

theorem TagId.ofName?_eq_some_iff {text : String} {tag : TagId} :
    TagId.ofName? text = some tag ↔ text = tag.name := by
  constructor
  · exact eq_name_of_find?
  · rintro rfl
    exact tag.ofName?_name

namespace Document

open Xml (Element)

/-! Fields. -/

section Fields

variable {α : Type} {parse : String → Option α} {name : String} {names : List String}
  {elements : List Element} {error : DocumentError}

/-- The element of a field, with something in it. -/
structure IsField (name : String) (element : Element) : Prop where
  named : element.name = name
  filled : fieldText element ≠ ""

structure HoldsField (parse : String → Option α) (name : String) (element : Element) (value : α) :
    Prop extends IsField name element where
  parsed : parse (fieldText element) = some value

/-- What is wrong with the element in the place of a field, if there is one. -/
inductive FieldFault (parse : String → Option α) (name : String) :
    Option Element → DocumentError → Prop where
  | missing {next : Option Element} (absent : ∀ element ∈ next, ¬IsField name element) :
      FieldFault parse name next (.missingField name)
  | invalid {element : Element} (isField : IsField name element)
      (unreadable : parse (fieldText element) = none) :
      FieldFault parse name (some element) (.invalidValue name (fieldText element))

/-- The fault of the first of several fields that is at fault.  The fields are the first elements,
in the order of their names. -/
inductive FieldsFault (parse : String → Option α) :
    List String → List Element → DocumentError → Prop where
  | here {name : String} {names : List String} {elements : List Element} {error : DocumentError}
      (fault : FieldFault parse name elements.head? error) :
      FieldsFault parse (name :: names) elements error
  | behind {name : String} {names : List String} {element : Element} {rest : List Element}
      {error : DocumentError} {value : α} (holds : HoldsField parse name element value)
      (fault : FieldsFault parse names rest error) :
      FieldsFault parse (name :: names) (element :: rest) error

theorem readField_of_not_isField {next : Option Element}
    (absent : ∀ element ∈ next, ¬IsField name element) :
    readField parse name next = .error (.missingField name) := by
  cases next with
  | none => rfl
  | some element =>
      have notField := absent element rfl
      rw [readField]
      split
      case isTrue named =>
        have blank : fieldText element = "" := by
          by_contra filled
          exact notField ⟨named, filled⟩
        rw [blank]
        rfl
      case isFalse => rfl

theorem readField_of_isField {element : Element} (isField : IsField name element) :
    readField parse name (some element) =
      match parse (fieldText element) with
      | some value => .ok value
      | none => .error (.invalidValue name (fieldText element)) := by
  rw [readField, if_pos isField.named]
  exact if_neg isField.filled

theorem readField_eq_ok_iff {next : Option Element} {value : α} :
    readField parse name next = .ok value ↔
      ∃ element, next = some element ∧ HoldsField parse name element value := by
  constructor
  · intro read
    by_cases absent : ∀ element ∈ next, ¬IsField name element
    · rw [readField_of_not_isField absent] at read
      cases read
    · push Not at absent
      obtain ⟨element, rfl, isField⟩ := absent
      rw [readField_of_isField isField] at read
      split at read
      case h_1 parsed =>
        cases read
        exact ⟨element, rfl, isField, parsed⟩
      case h_2 => cases read
  · rintro ⟨element, rfl, isField, parsed⟩
    rw [readField_of_isField isField, parsed]

theorem readField_eq_error_iff {next : Option Element} :
    readField parse name next = .error error ↔ FieldFault parse name next error := by
  constructor
  · intro read
    by_cases absent : ∀ element ∈ next, ¬IsField name element
    · rw [readField_of_not_isField absent] at read
      cases read
      exact .missing absent
    · push Not at absent
      obtain ⟨element, rfl, isField⟩ := absent
      rw [readField_of_isField isField] at read
      split at read
      case h_1 => cases read
      case h_2 unreadable =>
        cases read
        exact .invalid isField unreadable
  · intro fault
    cases fault with
    | missing absent => exact readField_of_not_isField absent
    | invalid isField unreadable => rw [readField_of_isField isField, unreadable]

theorem not_fieldsFault_nil : ¬FieldsFault parse [] elements error := nofun

/-- The first field is at fault, or it is read and a later one is at fault. -/
theorem fieldsFault_cons_iff :
    FieldsFault parse (name :: names) elements error ↔
      readField parse name elements.head? = .error error ∨
        ∃ value, readField parse name elements.head? = .ok value ∧
          FieldsFault parse names elements.tail error := by
  constructor
  · intro fault
    cases fault with
    | here fault => exact .inl (readField_eq_error_iff.mpr fault)
    | behind holds fault =>
        exact .inr ⟨_, readField_eq_ok_iff.mpr ⟨_, rfl, holds⟩, fault⟩
  · rintro (fault | ⟨value, read, fault⟩)
    · exact .here (readField_eq_error_iff.mp fault)
    · obtain ⟨element, first, holds⟩ := readField_eq_ok_iff.mp read
      obtain ⟨rest, rfl⟩ := List.head?_eq_some_iff.mp first
      exact .behind holds fault

end Fields

/-! Values. -/

/-- An element that gives a level, or is blank and leaves it open. -/
def HoldsThreshold (element : Element) : Option LogThreshold → Prop
  | none => fieldText element = ""
  | some threshold => fieldText element = threshold.code

/-- The child element at an index is the field of a value. -/
def HoldsAt {α : Type} (parse : String → Option α) (element : Element) (index : Nat)
    (name : String) (value : α) : Prop :=
  ∃ field, element.elements[index]? = some field ∧ HoldsField parse name field value

structure HoldsPose (element : Element) (pose : Pose) : Prop where
  x : HoldsAt Number.decimal? element 0 "x" pose.x
  y : HoldsAt Number.decimal? element 1 "y" pose.y
  heading : HoldsAt Number.decimal? element 2 "angle" pose.heading

/-- The four fields of a region, whatever its size. -/
structure HoldsCorners (element : Element) (region : Region) : Prop where
  x : HoldsAt (Number.signed? 32) element 0 "x" region.x
  y : HoldsAt (Number.signed? 32) element 1 "y" region.y
  width : HoldsAt (Number.signed? 32) element 2 "width" region.width
  height : HoldsAt (Number.signed? 32) element 3 "height" region.height

structure HoldsRegion (element : Element) (region : Region) : Prop where
  corners : HoldsCorners element region
  sized : region.Sized

/-- The children of an element that names tags, and the tags without their repetitions. -/
structure HoldsTags (element : Element) (tags : List TagId) : Prop where
  known : ∀ child ∈ element.elements, ∃ tag : TagId, child.name = tag.name
  tags : FirstAppearances (tagsNamed element.elements) tags

/-- What is wrong with the content of a parameter. -/
inductive ContentFault : ParameterPlace → Element → DocumentError → Prop where
  | level {element : Element} (filled : fieldText element ≠ "")
      (unknown : ∀ threshold : LogThreshold, fieldText element ≠ threshold.code) :
      ContentFault .threshold element (.invalidValue "lowest_logging_level" (fieldText element))
  | position {element : Element} {error : DocumentError}
      (fault : FieldsFault Number.decimal? ["x", "y", "angle"] element.elements error) :
      ContentFault .pose element error
  | corner {element : Element} {error : DocumentError}
      (fault : FieldsFault (Number.signed? 32) ["x", "y", "width", "height"] element.elements
        error) :
      ContentFault .region element error
  | width {element : Element} {region : Region} (corners : HoldsCorners element region)
      (negative : region.width < 0) :
      ContentFault .region element (.invalidValue "width" (toString region.width))
  | height {element : Element} {region : Region} (corners : HoldsCorners element region)
      (wide : 0 ≤ region.width) (negative : region.height < 0) :
      ContentFault .region element (.invalidValue "height" (toString region.height))
  | tag {element child : Element} {before after : List Element}
      (children : element.elements = before ++ child :: after)
      (known : ∀ other ∈ before, ∃ tag : TagId, other.name = tag.name)
      (unknown : ∀ tag : TagId, child.name ≠ tag.name) :
      ContentFault .tags element (.unknownName "vumark" child.name)

section Readers

variable {element : Element} {error : DocumentError}

theorem readThreshold_eq_ok_iff {threshold : Option LogThreshold} :
    readThreshold element = .ok threshold ↔ HoldsThreshold element threshold := by
  rw [readThreshold]
  by_cases blank : fieldText element = ""
  · rw [if_pos blank]
    cases threshold with
    | none => simp [HoldsThreshold, blank]
    | some threshold =>
        simp only [HoldsThreshold, blank]
        cases threshold <;> simp [LogThreshold.code]
  · rw [if_neg blank]
    cases found : LogThreshold.ofCode? (fieldText element) with
    | none =>
        cases threshold with
        | none => simp [HoldsThreshold, blank]
        | some threshold =>
            simp [HoldsThreshold, ← LogThreshold.ofCode?_eq_some_iff, found]
    | some given =>
        cases threshold with
        | none => simp [HoldsThreshold, blank]
        | some threshold =>
            simp [HoldsThreshold, ← LogThreshold.ofCode?_eq_some_iff, found]

theorem readThreshold_eq_error_iff :
    readThreshold element = .error error ↔ ContentFault .threshold element error := by
  constructor
  · intro read
    rw [readThreshold] at read
    split at read
    case isTrue => cases read
    case isFalse filled =>
      split at read
      case h_1 => cases read
      case h_2 unknown =>
        cases read
        refine .level filled fun threshold same => ?_
        rw [LogThreshold.ofCode?_eq_some_iff.mpr same] at unknown
        cases unknown
  · intro fault
    cases fault with
    | level filled unknown =>
        have none : LogThreshold.ofCode? (fieldText element) = none := by
          cases found : LogThreshold.ofCode? (fieldText element) with
          | none => rfl
          | some threshold =>
              exact absurd (LogThreshold.ofCode?_eq_some_iff.mp found) (unknown threshold)
        rw [readThreshold, if_neg filled, none]

theorem readPose_eq_ok_iff {pose : Pose} :
    readPose element = .ok pose ↔ HoldsPose element pose := by
  rw [readPose]
  dsimp only [bind, pure]
  simp only [bind_eq_ok_iff, readField_eq_ok_iff]
  constructor
  · rintro ⟨x, holdsX, y, holdsY, heading, holdsHeading, same⟩
    cases same
    exact ⟨holdsX, holdsY, holdsHeading⟩
  · rintro ⟨holdsX, holdsY, holdsHeading⟩
    exact ⟨_, holdsX, _, holdsY, _, holdsHeading, rfl⟩

theorem readPose_eq_error_iff :
    readPose element = .error error ↔ ContentFault .pose element error := by
  have fields : readPose element = .error error ↔
      FieldsFault Number.decimal? ["x", "y", "angle"] element.elements error := by
    rw [readPose]
    dsimp only [bind, pure]
    simp [fieldsFault_cons_iff, bind_eq_error_iff, not_fieldsFault_nil, List.head?_eq_getElem?,
      Except.pure]
  rw [fields]
  constructor
  · exact .position
  · intro fault
    cases fault with
    | position fault => exact fault

/-- The fields of a region, before its size is looked at. -/
def readCorners (element : Element) : Except DocumentError Region := do
  let fields := element.elements
  let x ← readInteger "x" fields[0]?
  let y ← readInteger "y" fields[1]?
  let width ← readInteger "width" fields[2]?
  let height ← readInteger "height" fields[3]?
  pure { x, y, width, height }

theorem readRegion_eq_bind (element : Element) : readRegion element = (do
    let region ← readCorners element
    requireExtent "width" region.width
    requireExtent "height" region.height
    pure region) := by
  simp only [readRegion, readCorners, bind_assoc, pure_bind]

theorem readCorners_eq_ok_iff {region : Region} :
    readCorners element = .ok region ↔ HoldsCorners element region := by
  rw [readCorners]
  dsimp only [bind, pure, readInteger]
  simp only [bind_eq_ok_iff, readField_eq_ok_iff]
  constructor
  · rintro ⟨x, holdsX, y, holdsY, width, holdsWidth, height, holdsHeight, same⟩
    cases same
    exact ⟨holdsX, holdsY, holdsWidth, holdsHeight⟩
  · rintro ⟨holdsX, holdsY, holdsWidth, holdsHeight⟩
    exact ⟨_, holdsX, _, holdsY, _, holdsWidth, _, holdsHeight, rfl⟩

theorem readCorners_eq_error_iff :
    readCorners element = .error error ↔
      FieldsFault (Number.signed? 32) ["x", "y", "width", "height"] element.elements error := by
  rw [readCorners]
  dsimp only [bind, pure, readInteger]
  simp [fieldsFault_cons_iff, bind_eq_error_iff, not_fieldsFault_nil, List.head?_eq_getElem?,
    Except.pure]

theorem requireExtent_eq_error_iff {name : String} {extent : Int} :
    requireExtent name extent = .error error ↔
      extent < 0 ∧ error = .invalidValue name (toString extent) := by
  rw [requireExtent]
  split
  case isTrue negative => simp [negative, eq_comm]
  case isFalse sized => simp [sized]

theorem readRegion_eq_ok_iff {region : Region} :
    readRegion element = .ok region ↔ HoldsRegion element region := by
  rw [readRegion_eq_bind]
  dsimp only [bind, pure]
  simp only [bind_eq_ok_iff, readCorners_eq_ok_iff]
  constructor
  · rintro ⟨_, corners, _, wide, _, high, same⟩
    cases same
    exact ⟨corners, requireExtent_eq_ok_iff.mp wide, requireExtent_eq_ok_iff.mp high⟩
  · rintro ⟨corners, wide, high⟩
    exact ⟨region, corners, (), requireExtent_eq_ok_iff.mpr wide, (),
      requireExtent_eq_ok_iff.mpr high, rfl⟩

theorem readRegion_eq_error_iff :
    readRegion element = .error error ↔ ContentFault .region element error := by
  rw [readRegion_eq_bind]
  dsimp only [bind, pure]
  simp only [bind_eq_error_iff, readCorners_eq_error_iff, readCorners_eq_ok_iff,
    requireExtent_eq_error_iff]
  constructor
  · rintro (fault | ⟨region, corners, ⟨negative, rfl⟩ | ⟨_, wide, ⟨negative, rfl⟩ | ⟨_, _, ⟨⟩⟩⟩⟩)
    · exact .corner fault
    · exact .width corners negative
    · exact .height corners (requireExtent_eq_ok_iff.mp wide) negative
  · intro fault
    cases fault with
    | corner fault => exact .inl fault
    | width corners negative => exact .inr ⟨_, corners, .inl ⟨negative, rfl⟩⟩
    | height corners wide negative =>
        exact .inr ⟨_, corners, .inr ⟨(), requireExtent_eq_ok_iff.mpr wide, .inl ⟨negative, rfl⟩⟩⟩

theorem exists_readTagsOnto_iff {known : List TagId} {elements : List Element} :
    (∃ tags, readTagsOnto known elements = .ok tags) ↔
      ∀ child ∈ elements, ∃ tag : TagId, child.name = tag.name := by
  induction elements generalizing known with
  | nil => simp [readTagsOnto]
  | cons child rest inductionHypothesis =>
      rw [readTagsOnto, List.forall_mem_cons]
      cases found : TagId.ofName? child.name with
      | none =>
          have unknown : ¬∃ tag : TagId, child.name = tag.name := by
            simp [← TagId.ofName?_eq_some_iff, found]
          simp [unknown]
      | some tag =>
          have named := TagId.ofName?_eq_some_iff.mp found
          simp [inductionHypothesis, named]

/-- The first child that names no tag is refused. -/
theorem readTagsOnto_eq_error_iff {known : List TagId} {elements : List Element} :
    readTagsOnto known elements = .error error ↔ ∃ before child after,
      elements = before ++ child :: after ∧
        (∀ other ∈ before, ∃ tag : TagId, other.name = tag.name) ∧
        (∀ tag : TagId, child.name ≠ tag.name) ∧ error = .unknownName "vumark" child.name := by
  induction elements generalizing known with
  | nil => simp [readTagsOnto]
  | cons first rest inductionHypothesis =>
      rw [readTagsOnto, exists_split_cons_iff]
      cases found : TagId.ofName? first.name with
      | none =>
          have unknown : ∀ tag : TagId, first.name ≠ tag.name := by
            simp [← TagId.ofName?_eq_some_iff, found]
          constructor
          · rintro ⟨⟩
            exact .inl ⟨List.forall_mem_nil _, unknown, rfl⟩
          · rintro (⟨_, _, rfl⟩ | ⟨_, _, _, _, known, _⟩)
            · rfl
            · obtain ⟨tag, named⟩ := known first List.mem_cons_self
              exact absurd named (unknown tag)
      | some tag =>
          have named := TagId.ofName?_eq_some_iff.mp found
          have isTag : ∃ tag : TagId, first.name = tag.name := ⟨tag, named⟩
          have notHere : ¬∀ tag : TagId, first.name ≠ tag.name := fun unknown => unknown tag named
          simp only [inductionHypothesis, List.forall_mem_cons, isTag, notHere, true_and, and_false,
            false_and, false_or]

theorem holdsTags_of_readTags {tags : List TagId} (read : readTags element = .ok tags) :
    HoldsTags element tags where
  known := exists_readTagsOnto_iff.mp ⟨tags, read⟩
  tags := firstAppearances_readTags read

theorem readTags_eq_error_iff :
    readTags element = .error error ↔ ContentFault .tags element error := by
  rw [readTags, readTagsOnto_eq_error_iff]
  constructor
  · rintro ⟨before, child, after, children, known, unknown, rfl⟩
    exact .tag children known unknown
  · intro fault
    cases fault with
    | tag children known unknown => exact ⟨_, _, _, children, known, unknown, rfl⟩

end Readers

end Document

end RobotRoutine
