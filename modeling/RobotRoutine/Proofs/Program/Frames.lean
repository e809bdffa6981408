import RobotRoutine.Proofs.Program.HeldPower

/-!
What a display shows along the runs of a task.

An item stays on the display until it is cleared, and each refresh publishes all of them, whether it
is answered well or not.  A call that crashes has been carried out or not: both are allowed for.
What a task shows from given items on is put together from what its parts show, each of them from
the items that the part before has left.
-/

namespace RobotRoutine

open Program (Runs Event)

/-- A caption and a value. -/
abbrev Item := String × String

/-- A call that does nothing to the display. -/
def Call.LeavesDisplay : Call → Prop
  | .robot (.addItem _ _) => False
  | .robot .refresh => False
  | .robot .clearItems => False
  | _ => True

/-- What an event may do to a display that lists some items: the frames it publishes, and the items
that are listed then. -/
inductive Turns : List Item → Event → List (List Item) → List Item → Prop where
  | added {items caption value receipt} :
      Turns items ⟨.robot (.addItem caption value), receipt⟩ [] (items ++ [(caption, value)])
  | notAdded {items caption value crash} :
      Turns items ⟨.robot (.addItem caption value), Receipt.crashed crash⟩ [] items
  | cleared {items receipt} : Turns items ⟨.robot .clearItems, receipt⟩ [] []
  | notCleared {items crash} : Turns items ⟨.robot .clearItems, Receipt.crashed crash⟩ [] items
  | published {items answer} : Turns items ⟨.robot .refresh, answer⟩ [items] items
  | aside {items event} : event.request.LeavesDisplay → Turns items event [] items

/-- Along some events a display that lists some items publishes frames, and lists others in the
end. -/
inductive Displays : List Item → List Event → List (List Item) → List Item → Prop where
  | rest {items} : Displays items [] [] items
  | next {items event shown middle events frames last} :
      Turns items event shown middle → Displays middle events frames last →
      Displays items (event :: events) (shown ++ frames) last

namespace Turns

variable {items last : List Item} {shown : List (List Item)}

theorem addItem_cases {caption value : String} {receipt : Receipt}
    (turns : Turns items ⟨.robot (.addItem caption value), receipt⟩ shown last) :
    shown = [] ∧ (last = items ++ [(caption, value)] ∨
      (∃ crash, receipt = .crashed crash) ∧ last = items) := by
  cases turns with
  | added => exact ⟨rfl, .inl rfl⟩
  | notAdded => exact ⟨rfl, .inr ⟨⟨_, rfl⟩, rfl⟩⟩
  | aside quiet => exact quiet.elim

theorem clearItems_cases {receipt : Receipt}
    (turns : Turns items ⟨.robot .clearItems, receipt⟩ shown last) :
    shown = [] ∧ (last = [] ∨ (∃ crash, receipt = .crashed crash) ∧ last = items) := by
  cases turns with
  | cleared => exact ⟨rfl, .inl rfl⟩
  | notCleared => exact ⟨rfl, .inr ⟨⟨_, rfl⟩, rfl⟩⟩
  | aside quiet => exact quiet.elim

theorem refresh_eq {answer : Answer Unit}
    (turns : Turns items ⟨.robot .refresh, answer⟩ shown last) :
    shown = [items] ∧ last = items := by
  cases turns with
  | published => exact ⟨rfl, rfl⟩
  | aside quiet => exact quiet.elim

theorem of_quiet {event : Event} (turns : Turns items event shown last)
    (quiet : event.request.LeavesDisplay) : shown = [] ∧ last = items := by
  cases turns with
  | aside => exact ⟨rfl, rfl⟩
  | _ => exact quiet.elim

/-- Only items that are added come to the display. -/
theorem mem_last {event : Event} {item : Item} (turns : Turns items event shown last)
    (listed : item ∈ last) :
    item ∈ items ∨ event.request = .robot (.addItem item.1 item.2) := by
  cases turns with
  | added =>
      rcases List.mem_append.mp listed with before | new
      · exact .inl before
      · cases List.mem_singleton.mp new
        exact .inr rfl
  | cleared => simp at listed
  | _ => exact .inl listed

end Turns

namespace Displays

variable {items last : List Item} {events first second : List Event} {frames : List (List Item)}

theorem split (displays : Displays items (first ++ second) frames last) :
    ∃ shown others middle, frames = shown ++ others ∧ Displays items first shown middle ∧
      Displays middle second others last := by
  induction first generalizing items frames with
  | nil => exact ⟨[], frames, items, rfl, .rest, displays⟩
  | cons event first inductionHypothesis =>
      cases displays with
      | next turns displays =>
          obtain ⟨shown, others, middle, rfl, before, after⟩ := inductionHypothesis displays
          exact ⟨_, others, middle, (List.append_assoc ..).symm, .next turns before, after⟩

/-- Calls that leave the display alone neither publish nor change the items. -/
theorem of_quiet (displays : Displays items events frames last)
    (quiet : ∀ event ∈ events, event.request.LeavesDisplay) : frames = [] ∧ last = items := by
  induction displays with
  | rest => exact ⟨rfl, rfl⟩
  | next turns _ inductionHypothesis =>
      rw [List.forall_mem_cons] at quiet
      obtain ⟨rfl, rfl⟩ := turns.of_quiet quiet.1
      exact inductionHypothesis quiet.2

theorem mem_last {item : Item} (displays : Displays items events frames last)
    (listed : item ∈ last) :
    item ∈ items ∨ ∃ event ∈ events, event.request = .robot (.addItem item.1 item.2) := by
  induction displays with
  | rest => exact .inl listed
  | next turns _ inductionHypothesis =>
      rcases inductionHypothesis listed with between | ⟨event, member, adds⟩
      · rcases turns.mem_last between with before | adds
        · exact .inl before
        · exact .inr ⟨_, List.mem_cons_self, adds⟩
      · exact .inr ⟨event, List.mem_cons_of_mem _ member, adds⟩

end Displays

/-- What leaves the display alone may do all else. -/
def quietEffects (ε : Type) : Effects ε where
  calls call := call.LeavesDisplay
  errors _ := True
  waits := True
  halts := True

namespace Task

variable {ε α β : Type} {frame : List Item → Prop} {items : List Item}

/-- In every run of a task from some items on, each frame is of a kind; and the items that are left
with a value are as the value says. -/
def Shows (frame : List Item → Prop) (items : List Item) (task : Task ε α)
    (leaves : α → List Item → Prop) : Prop :=
  ∀ events outcome frames last, Runs task events outcome → Displays items events frames last →
    (∀ shown ∈ frames, frame shown) ∧ ∀ a, outcome = .value a → leaves a last

/-- Any items may be left. -/
def anyItems (_ : α) (_ : List Item) : Prop := True

theorem shows_of_quiet {task : Task ε α} (within : task.Within (quietEffects ε)) :
    task.Shows frame items fun _ last => last = items := by
  intro events outcome frames last runs displays
  obtain ⟨rfl, rfl⟩ := displays.of_quiet (within_of_runs within runs).1
  exact ⟨by simp, fun _ _ => rfl⟩

theorem shows_done {outcome : Outcome ε α} {leaves : α → List Item → Prop}
    (left : ∀ a, outcome = .value a → leaves a items) :
    Shows frame items (Program.done outcome) leaves := by
  intro events ended frames last runs displays
  obtain ⟨rfl, rfl⟩ := Program.runs_done_iff.mp runs
  cases displays
  exact ⟨by simp, left⟩

theorem shows_result (a : α) {leaves : α → List Item → Prop} (left : leaves a items) :
    (result a : Task ε α).Shows frame items leaves := by
  apply shows_done
  rintro _ ⟨⟩
  exact left

theorem shows_call {request : Call} {next : request.Reply → Task ε α}
    {leaves : α → List Item → Prop}
    (each : ∀ reply frames middle, Turns items ⟨request, reply⟩ frames middle →
      (∀ shown ∈ frames, frame shown) ∧ (next reply).Shows frame middle leaves) :
    Shows frame items (Program.call request next) leaves := by
  intro events outcome frames last runs displays
  obtain ⟨reply, rest, rfl, runsRest⟩ := Program.runs_call_iff.mp runs
  cases displays with
  | next turns displays =>
      obtain ⟨framed, shows⟩ := each reply _ _ turns
      obtain ⟨framedRest, left⟩ := shows _ _ _ _ runsRest displays
      exact ⟨List.forall_mem_append.mpr ⟨framed, framedRest⟩, left⟩

theorem shows_bind {task : Task ε α} {next : α → Task ε β} {between : α → List Item → Prop}
    {leaves : β → List Item → Prop} (shows : task.Shows frame items between)
    (showsNext : ∀ a middle, between a middle → (next a).Shows frame middle leaves) :
    (task.bind next).Shows frame items leaves := by
  intro events outcome frames last runs displays
  rcases runs_bind runs with
    ⟨first, second, a, rfl, runsTask, runsNext⟩ | ⟨stop, runsTask, passes⟩
  · obtain ⟨shown, others, middle, rfl, before, after⟩ := displays.split
    obtain ⟨framed, left⟩ := shows _ _ _ _ runsTask before
    obtain ⟨framedNext, leftNext⟩ := showsNext a middle (left a rfl) _ _ _ _ runsNext after
    exact ⟨List.forall_mem_append.mpr ⟨framed, framedNext⟩, leftNext⟩
  · exact ⟨(shows _ _ _ _ runsTask displays).1, fun b same => absurd same (passes.ne_value b)⟩

/-- What leaves the items alone may come first. -/
theorem shows_quiet_bind {task : Task ε α} {next : α → Task ε β}
    {leaves : β → List Item → Prop} (within : task.Within (quietEffects ε))
    (showsNext : ∀ a, (next a).Shows frame items leaves) :
    (task.bind next).Shows frame items leaves := by
  refine shows_bind (shows_of_quiet within) ?_
  rintro a _ rfl
  exact showsNext a

theorem shows_robot_bind {request : RobotCall} {next : request.Reply → Task ε β}
    {leaves : β → List Item → Prop} (quiet : (Call.robot request).LeavesDisplay)
    (showsNext : ∀ reply, (next reply).Shows frame items leaves) :
    ((ofProgram (Program.robot request)).bind next).Shows frame items leaves :=
  shows_quiet_bind (within_robot quiet) showsNext

theorem shows_host_bind {request : HostCall} {next : request.Reply → Task ε β}
    {leaves : β → List Item → Prop}
    (showsNext : ∀ reply, (next reply).Shows frame items leaves) :
    ((ofProgram (Program.host request)).bind next).Shows frame items leaves :=
  shows_quiet_bind (within_host trivial) showsNext

theorem shows_waiting {leaves : α → List Item → Prop} :
    (waiting : Task ε α).Shows frame items leaves :=
  shows_done nofun

theorem shows_addItem (caption value : String) :
    (addItem caption value : Task ε Unit).Shows frame items
      fun _ last => last = items ++ [(caption, value)] := by
  apply shows_call
  intro receipt frames middle turns
  obtain ⟨rfl, added⟩ := turns.addItem_cases
  refine ⟨by simp, ?_⟩
  cases receipt with
  | returned => exact shows_result () (added.resolve_right (by simp))
  | crashed crash => exact shows_done nofun

theorem shows_clearItems :
    (clearItems : Task ε Unit).Shows frame items fun _ last => last = [] := by
  apply shows_call
  intro receipt frames middle turns
  obtain ⟨rfl, cleared⟩ := turns.clearItems_cases
  refine ⟨by simp, ?_⟩
  cases receipt with
  | returned => exact shows_result () (cleared.resolve_right (by simp))
  | crashed crash => exact shows_done nofun

/-- A refresh publishes the items, whatever is made of its answer. -/
theorem shows_refreshing {next : Answer Unit → Task ε Unit}
    (ends : ∀ answer, ∃ outcome, next answer = Program.done outcome) (framed : frame items) :
    Task.Shows frame items (Program.call (.robot .refresh) next) fun _ last => last = items := by
  apply shows_call
  intro answer frames middle turns
  obtain ⟨rfl, rfl⟩ := turns.refresh_eq
  obtain ⟨ended, same⟩ := ends answer
  refine ⟨by simpa using framed, ?_⟩
  rw [same]
  exact shows_done fun _ _ => rfl

theorem shows_refresh {toError : Failure → ε} (framed : frame items) :
    (refresh toError).Shows frame items fun _ last => last = items := by
  refine shows_refreshing ?_ framed
  intro answer
  cases answer <;> exact ⟨_, rfl⟩

theorem shows_ignoringFailure (framed : frame items) :
    (ignoringFailure (Program.robot .refresh) : Task ε Unit).Shows frame items
      fun _ last => last = items := by
  refine shows_refreshing ?_ framed
  intro answer
  cases answer <;> exact ⟨_, rfl⟩

end Task

namespace PowerHold

variable {ε α : Type} {frame : List Item → Prop} {items : List Item} {toError : Failure → ε}
  {channel : ChannelId} {power : Binary64} {body : Task ε α}

theorem leave_quiet (stop : Outcome ε α) :
    (leave toError channel stop).Within (quietEffects ε) := by
  apply within_leave trivial (fun _ => trivial) trivial
  cases stop <;> trivial

/-- While a power is held, the display shows what the body shows. -/
theorem shows_during (shows : body.Shows frame items Task.anyItems) :
    (during toError channel power body).Shows frame items Task.anyItems := by
  intro events outcome frames last runs displays
  rw [during_eq] at runs
  obtain ⟨inside, leaving, stop, rfl, runsInside, runsLeave⟩ := Program.runs_of_bind runs
  obtain ⟨shown, others, middle, rfl, before, after⟩ := displays.split
  have engaged : ((Task.setPower toError channel power).bind fun _ => body).Shows frame items
      Task.anyItems :=
    Task.shows_quiet_bind (Task.within_setPower trivial fun _ => trivial) fun _ => shows
  have framed := (engaged _ _ _ _ runsInside before).1
  have framedAfter : ∀ shown ∈ others, frame shown :=
    (Task.shows_of_quiet (leave_quiet stop) _ _ _ _ runsLeave after).1
  exact ⟨List.forall_mem_append.mpr ⟨framed, framedAfter⟩, fun _ _ => trivial⟩

end PowerHold

end RobotRoutine
