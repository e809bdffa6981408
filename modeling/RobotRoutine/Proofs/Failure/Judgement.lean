import RobotRoutine.Proofs.Failure.Fault

/-!
How the chain of a failure is judged.

Two rules meet in one walk.  A stop request counts wherever it stands, while of the links that name
a subsystem only the outermost counts.  A run that was stopped lies between the two: it counts as
long as no link outside of it names a subsystem.  So a failed classification hides that the run
which its classifier reports was stopped.
-/

namespace RobotRoutine

/-- No link of these names a subsystem. -/
def Nameless (links : List LinkKind) : Prop := ∀ tag, .subsystem tag ∉ links

/-- There is a link of this kind, and no link outside of it names a subsystem. -/
def Foremost (kind : LinkKind) (links : List LinkKind) : Prop :=
  ∃ outer inner, links = outer ++ kind :: inner ∧ Nameless outer

section Links

variable {kind link : LinkKind} {links : List LinkKind} {tag : String}

@[simp]
theorem nameless_nil : Nameless [] := fun _ => List.not_mem_nil

@[simp]
theorem nameless_cons_iff :
    Nameless (link :: links) ↔ (∀ tag, link ≠ .subsystem tag) ∧ Nameless links := by
  simp [Nameless, forall_and, eq_comm]

@[simp]
theorem not_foremost_nil : ¬ Foremost kind [] := by
  rintro ⟨outer, inner, same, _⟩
  simp at same

@[simp]
theorem foremost_cons_self : Foremost kind (kind :: links) := ⟨[], links, rfl, nameless_nil⟩

theorem foremost_cons_iff (different : link ≠ kind) :
    Foremost kind (link :: links) ↔ (∀ tag, link ≠ .subsystem tag) ∧ Foremost kind links := by
  constructor
  · rintro ⟨outer, inner, same, nameless⟩
    cases outer with
    | nil => exact absurd (List.cons.inj same).1 different
    | cons first outer =>
        obtain ⟨rfl, rfl⟩ := List.cons.inj same
        rw [nameless_cons_iff] at nameless
        exact ⟨nameless.1, outer, inner, rfl, nameless.2⟩
  · rintro ⟨unnamed, outer, inner, rfl, nameless⟩
    exact ⟨link :: outer, inner, rfl, nameless_cons_iff.mpr ⟨unnamed, nameless⟩⟩

/-- A link that names no subsystem is passed over. -/
@[simp]
theorem foremost_cons_silent (different : kind ≠ .silent) :
    Foremost kind (.silent :: links) ↔ Foremost kind links := by
  rw [foremost_cons_iff different.symm]
  simp

@[simp]
theorem foremost_subsystem_cons :
    Foremost kind (.subsystem tag :: links) ↔ kind = .subsystem tag := by
  by_cases same : kind = .subsystem tag
  · subst same
    exact iff_of_true foremost_cons_self rfl
  · rw [foremost_cons_iff (Ne.symm same)]
    simp [same]

end Links

namespace Fault

variable {message tag : String} {links : List LinkKind}

/-- What a fault says of the chain that it was found for. -/
def SaysOf (message : String) (links : List LinkKind) : Fault → Prop
  | .cancellation => .stopRequest ∈ links ∨ Foremost .stoppedRun links
  | .domain tag text =>
      .stopRequest ∉ links ∧ ¬ Foremost .stoppedRun links ∧ Foremost (.subsystem tag) links ∧
        text = message
  | .unclassified text =>
      .stopRequest ∉ links ∧ ¬ Foremost .stoppedRun links ∧ Nameless links ∧ text = message

/-- Once a link has named a subsystem, nothing but the stop request itself changes the fault. -/
theorem ofLinks_some (message tag : String) (links : List LinkKind) :
    ofLinks message (some tag) links =
      if .stopRequest ∈ links then .cancellation else .domain tag message := by
  induction links with
  | nil => rfl
  | cons link links inductionHypothesis =>
      cases link <;> simp [ofLinks, inductionHypothesis]

theorem ofLinks_eq_iff (fault : Fault) :
    ofLinks message none links = fault ↔ fault.SaysOf message links := by
  induction links with
  | nil => cases fault <;> simp [ofLinks, SaysOf, eq_comm]
  | cons link links inductionHypothesis =>
      cases link with
      | silent =>
          rw [ofLinks, inductionHypothesis]
          cases fault <;> simp [SaysOf]
      | stopRequest =>
          rw [ofLinks]
          cases fault <;> simp [SaysOf]
      | stoppedRun =>
          rw [ofLinks]
          cases fault <;> simp [SaysOf]
      | subsystem named =>
          rw [ofLinks, ofLinks_some]
          by_cases stopped : LinkKind.stopRequest ∈ links <;>
            cases fault <;> simp [SaysOf, stopped, eq_comm]

/-- The same fault of a chain with another message. -/
def withMessage (message : String) : Fault → Fault
  | .cancellation => .cancellation
  | .domain tag _ => .domain tag message
  | .unclassified _ => .unclassified message

theorem ofLinks_message (message other : String) (named : Option String)
    (links : List LinkKind) :
    ofLinks other named links = (ofLinks message named links).withMessage other := by
  induction links generalizing named with
  | nil => cases named <;> rfl
  | cons link links inductionHypothesis =>
      cases named <;> cases link <;> simp [ofLinks, inductionHypothesis, withMessage]

end Fault

/-- A chain in which no link is a stop, or only its last one behind contexts, devices and failed
classifications. -/
inductive StopsLast : List LinkKind → Prop where
  | calm {links} : (∀ link ∈ links, ¬ link.IsStop) → StopsLast links
  | stop {outer last} :
      (∀ link ∈ outer, link = .silent ∨ link = .subsystem dispatchTag) → last.IsStop →
      StopsLast (outer ++ [last])

/-- A failed classification stands outside of a run that was stopped. -/
def HidesStop (links : List LinkKind) : Prop :=
  ∃ outer, links = outer ++ [.stoppedRun] ∧ .subsystem dispatchTag ∈ outer

namespace StopsLast

variable {link : LinkKind} {links : List LinkKind}

theorem cons (wrapper : link = .silent ∨ link = .subsystem dispatchTag)
    (stops : StopsLast links) : StopsLast (link :: links) := by
  cases stops with
  | calm none =>
      refine .calm (List.forall_mem_cons.mpr ⟨?_, none⟩)
      rcases wrapper with rfl | rfl <;> exact id
  | @stop outer last wrappers isStop =>
      rw [← List.cons_append]
      exact .stop (List.forall_mem_cons.mpr ⟨wrapper, wrappers⟩) isStop

theorem singleton (link : LinkKind) : StopsLast [link] := by
  by_cases isStop : link.IsStop
  · exact @stop [] link (List.forall_mem_nil _) isStop
  · exact .calm (List.forall_mem_singleton.mpr isStop)

/-- A stop in a chain is no cancellation just if a failed classification hides it. -/
theorem hidesStop_iff (stops : StopsLast links) :
    ((∃ link ∈ links, link.IsStop) ∧
      ¬ (.stopRequest ∈ links ∨ Foremost .stoppedRun links)) ↔ HidesStop links := by
  cases stops with
  | calm none =>
      refine iff_of_false ?_ ?_
      · rintro ⟨⟨link, member, isStop⟩, _⟩
        exact none link member isStop
      · rintro ⟨outer, rfl, _⟩
        exact none .stoppedRun (by simp) trivial
  | @stop outer last wrappers isStop =>
      have quiet (kind : LinkKind) (isStop : kind.IsStop) : kind ∉ outer := by
        intro member
        rcases wrappers kind member with rfl | rfl <;> exact isStop
      constructor
      · rintro ⟨_, notCancelled⟩
        rw [not_or] at notCancelled
        cases last with
        | stopRequest => exact absurd (by simp) notCancelled.1
        | stoppedRun =>
            by_cases named : .subsystem dispatchTag ∈ outer
            · exact ⟨outer, rfl, named⟩
            · refine absurd ⟨outer, [], rfl, ?_⟩ notCancelled.2
              intro tag member
              rcases wrappers _ member with same | same
              · cases same
              · exact named (same ▸ member)
        | _ => exact isStop.elim
      · rintro ⟨others, same, named⟩
        obtain ⟨rfl, here⟩ := List.append_inj' same rfl
        obtain rfl : last = .stoppedRun := List.singleton_inj.mp here
        refine ⟨⟨.stoppedRun, by simp, trivial⟩, ?_⟩
        rw [not_or]
        constructor
        · simpa using quiet .stopRequest trivial
        · rintro ⟨before, inner, same, nameless⟩
          rcases List.eq_nil_or_concat inner with rfl | ⟨inside, last, rfl⟩
          · obtain ⟨rfl, _⟩ := List.append_inj' same rfl
            exact nameless dispatchTag named
          · rw [List.concat_eq_append, ← List.cons_append, ← List.append_assoc] at same
            obtain ⟨rfl, _⟩ := List.append_inj' same rfl
            exact quiet .stoppedRun trivial (by simp)

end StopsLast

mutual

theorem Failure.stopsLast : (failure : Failure) → StopsLast failure.links
  | .plain _ => .singleton .silent
  | .context _ cause => cause.stopsLast.cons (.inl rfl)
  | .interrupted => .singleton .stopRequest
  | .tagged tag _ => .singleton (.subsystem tag)
  | .document error => .calm (Failure.Uninterrupted.document error)
  | .run error => error.stopsLast

theorem RunError.stopsLast : (error : RunError) → StopsLast error.links
  | .interrupted => .singleton .stoppedRun
  | .device cause => cause.stopsLast.cons (.inl rfl)
  | .classificationFailed cause => cause.stopsLast.cons (.inr rfl)
  | .unsupportedCommand _ => .singleton (.subsystem dispatchTag)
  | .invalidValue _ _ _ => .singleton (.subsystem dispatchTag)
  | .missingBranchTable _ => .singleton (.subsystem dispatchTag)

end

namespace Failure

/-- A failure with contexts around it, the outermost first. -/
def within (texts : List String) (failure : Failure) : Failure :=
  texts.foldr .context failure

theorem chain_within (texts : List String) (failure : Failure) :
    (failure.within texts).chain = texts ++ failure.chain := by
  induction texts with
  | nil => rfl
  | cons text texts inductionHypothesis =>
      exact congrArg (text :: ·) inductionHypothesis

theorem fault_context (text : String) (failure : Failure) :
    (failure.context text).fault =
      failure.fault.withMessage (joinChain (text :: failure.chain)) :=
  Fault.ofLinks_message failure.message _ none failure.links

theorem fault_within (texts : List String) (failure : Failure) :
    (failure.within texts).fault =
      failure.fault.withMessage (joinChain (texts ++ failure.chain)) := by
  induction texts with
  | nil => exact Fault.ofLinks_message _ _ none failure.links
  | cons text texts inductionHypothesis =>
      change ((failure.within texts).context text).fault = _
      rw [fault_context, inductionHypothesis, chain_within]
      cases failure.fault <;> rfl

/-- What the fault of a failure says of its chain, and its chain of its fault. -/
structure Judged (failure : Failure) : Prop where
  cancellation : failure.fault = .cancellation ↔
    .stopRequest ∈ failure.links ∨ Foremost .stoppedRun failure.links
  domain : ∀ tag message, failure.fault = .domain tag message ↔
    failure.fault ≠ .cancellation ∧ Foremost (.subsystem tag) failure.links ∧
      message = failure.message
  unclassified : ∀ message, failure.fault = .unclassified message ↔
    failure.fault ≠ .cancellation ∧ Nameless failure.links ∧ message = failure.message
  /-- A stop that is no cancellation is one that a failed classification hides. -/
  hidden : (∃ link ∈ failure.links, link.IsStop) ∧ failure.fault ≠ .cancellation ↔
    HidesStop failure.links
  /-- Contexts change nothing but the message. -/
  wrapped : ∀ texts, (failure.within texts).fault =
    failure.fault.withMessage (joinChain (texts ++ failure.chain))

theorem judged (failure : Failure) : failure.Judged where
  cancellation := Fault.ofLinks_eq_iff .cancellation
  domain tag message := by
    rw [fault, Ne, Fault.ofLinks_eq_iff, Fault.ofLinks_eq_iff]
    simp [Fault.SaysOf, not_or, and_assoc]
  unclassified message := by
    rw [fault, Ne, Fault.ofLinks_eq_iff, Fault.ofLinks_eq_iff]
    simp [Fault.SaysOf, not_or, and_assoc]
  hidden := by
    rw [fault, Ne, Fault.ofLinks_eq_iff]
    exact failure.stopsLast.hidesStop_iff
  wrapped texts := failure.fault_within texts

/-- A classifier that reports a stopped run makes a fault of the dispatcher. -/
example : ∃ message, (Failure.run (.classificationFailed (.run .interrupted))).fault =
    .domain dispatchTag message := ⟨_, rfl⟩

end Failure

end RobotRoutine
