import Mathlib.Logic.Relation
import RobotRoutine.Proofs.Files.Tree

/-!
The way of a walk, step by step.

A walk stands at a point: so many links may still be followed, a directory, and the parts that are
left.  Its next point is determined, other parts may stand behind those that are left, and more
links may be granted.  So a place where a link leads on is come to only once on a way that ends:
coming there again would mean to come there forever.
-/

namespace RobotRoutine.FileSystem

structure WalkPoint where
  links : Nat
  location : Location
  remaining : List String

/-- A part that an entry can have as its name. -/
structure Proper (part : String) : Prop where
  named : ¬(part = "." ∨ part = "")
  down : part ≠ ".."
  short : ¬nameLimit < part.utf8ByteSize

/-- The steps of a walk that goes on behind a directory or a link. -/
inductive Step (files : FileSystem) : WalkPoint → WalkPoint → Prop where
  | blank {links location part rest} : (part = "." ∨ part = "") →
      Step files ⟨links, location, part :: rest⟩ ⟨links, location, rest⟩
  | up {links location rest} :
      Step files ⟨links, location, ".." :: rest⟩ ⟨links, location.dropLast, rest⟩
  | enter {links location part rest} : Proper part →
      files.entry? (location ++ [part]) = some .directory →
      Step files ⟨links, location, part :: rest⟩ ⟨links, location ++ [part], rest⟩
  | follow {links location part rest target} : Proper part →
      files.entry? (location ++ [part]) = some (.link target) →
      Step files ⟨links + 1, location, part :: rest⟩
        ⟨links, start location target, partsAndSlash target ++ rest⟩

/-- A walk at the first point comes to the second one. -/
abbrev Leads (files : FileSystem) : WalkPoint → WalkPoint → Prop :=
  Relation.ReflTransGen (Step files)

namespace WalkPoint

/-- The same point with more links and more parts. -/
def extend (point : WalkPoint) (links : Nat) (more : List String) : WalkPoint :=
  ⟨point.links + links, point.location, point.remaining ++ more⟩

/-- The walk from a point on. -/
def walk (files : FileSystem) (mode : WalkMode) (point : WalkPoint) :
    Except SystemError PathTarget :=
  files.walk mode point.links point.location point.remaining

/-- The location of the entry that is looked at from a point. -/
def Looks (point : WalkPoint) (location : Location) : Prop :=
  ∃ part rest, point.remaining = part :: rest ∧ Proper part ∧ location = point.location ++ [part]

end WalkPoint

variable {files others : FileSystem} {p q r : WalkPoint} {location : Location}

theorem Step.unique (step : Step files p q) (other : Step files p r) : q = r := by
  cases step with
  | blank isBlank =>
      cases other with
      | blank => rfl
      | up => exact absurd isBlank (by decide)
      | enter proper => exact absurd isBlank proper.named
      | follow proper => exact absurd isBlank proper.named
  | up =>
      cases other with
      | blank isBlank => exact absurd isBlank (by decide)
      | up => rfl
      | enter proper => exact absurd rfl proper.down
      | follow proper => exact absurd rfl proper.down
  | enter proper directory =>
      cases other with
      | blank isBlank => exact absurd isBlank proper.named
      | up => exact absurd rfl proper.down
      | enter => rfl
      | follow _ link =>
          rw [directory] at link
          cases link
  | follow proper link =>
      cases other with
      | blank isBlank => exact absurd isBlank proper.named
      | up => exact absurd rfl proper.down
      | enter _ directory =>
          rw [link] at directory
          cases directory
      | follow _ same =>
          rw [link] at same
          cases same
          rfl

theorem Step.exists_part (step : Step files p q) :
    ∃ part rest, p.remaining = part :: rest := by
  cases step <;> exact ⟨_, _, rfl⟩

theorem Step.extend (step : Step files p q) (links : Nat) (more : List String) :
    Step files (p.extend links more) (q.extend links more) := by
  cases step with
  | blank isBlank => exact .blank isBlank
  | up => exact .up
  | enter proper directory => exact .enter proper directory
  | @follow left location part rest target proper link =>
      have goesOn : Step files ⟨left + links + 1, location, part :: (rest ++ more)⟩
          ⟨left + links, start location target, partsAndSlash target ++ (rest ++ more)⟩ :=
        .follow proper link
      rw [← List.append_assoc] at goesOn
      rw [WalkPoint.extend, WalkPoint.extend, Nat.add_right_comm]
      exact goesOn

theorem Leads.extend (leads : Leads files p q) (links : Nat) (more : List String) :
    Leads files (p.extend links more) (q.extend links more) :=
  leads.lift (·.extend links more) fun _ _ step => step.extend links more

theorem Leads.links_le (leads : Leads files p q) : q.links ≤ p.links := by
  induction leads with
  | refl => exact Nat.le_refl _
  | tail _ step inductionHypothesis =>
      refine Nat.le_trans ?_ inductionHypothesis
      cases step <;> dsimp only <;> omega

/-- A point from which no step goes on. -/
def Final (files : FileSystem) (point : WalkPoint) : Prop := ∀ next, ¬Step files point next

theorem Leads.of_final (leads : Leads files p q) (other : Leads files p r)
    (final : files.Final r) : Leads files q r := by
  have unique : Relator.RightUnique (Step files) := fun _ _ _ step other => step.unique other
  rcases Relation.ReflTransGen.total_of_right_unique unique leads other with forth | back
  · exact forth
  · rcases back.cases_head with rfl | ⟨next, step, _⟩
    · exact .refl
    · exact absurd step (final next)

theorem Leads.eq_of_final (leads : Leads files p q) (final : files.Final q)
    (other : Leads files p r) (finalToo : files.Final r) : q = r := by
  rcases (leads.of_final other finalToo).cases_head with same | ⟨next, step, _⟩
  · exact same
  · exact absurd step (final next)

/-! Walks along a way. -/

variable {mode : WalkMode} {links : Nat} {part : String} {rest : List String}

theorem walk_directory (proper : Proper part) (plain : ¬(mode = .create ∧ rest = [""]))
    (directory : files.entry? (location ++ [part]) = some .directory) :
    files.walk mode links location (part :: rest) =
      files.walk mode links (location ++ [part]) rest := by
  rw [walk, if_neg proper.named, if_neg proper.down, if_neg plain, if_neg proper.short]
  simp only [directory]

theorem walk_link {target : String} (proper : Proper part)
    (plain : ¬(mode = .create ∧ rest = [""])) (goesOn : ¬(rest = [] ∧ mode = .stay))
    (link : files.entry? (location ++ [part]) = some (.link target)) :
    files.walk mode (links + 1) location (part :: rest) =
      files.walk mode links (start location target) (partsAndSlash target ++ rest) := by
  rw [walk, if_neg proper.named, if_neg proper.down, if_neg plain, if_neg proper.short]
  simp only [link, if_neg goesOn]

/-- A step may be taken if the walk does not end there in its own way. -/
theorem walk_of_step (step : Step files p q)
    (plain : ∀ first, mode = .create → p.remaining ≠ [first, ""])
    (goesOn : ∀ first, mode = .stay → p.remaining ≠ [first]) :
    p.walk files mode = q.walk files mode := by
  cases step with
  | blank isBlank =>
      simp only [WalkPoint.walk]
      rw [walk, if_pos isBlank]
  | up =>
      simp only [WalkPoint.walk]
      rw [walk, if_neg (by decide), if_pos rfl]
  | @enter links location part rest proper directory =>
      refine walk_directory proper ?_ directory
      rintro ⟨creates, rfl⟩
      exact plain part creates rfl
  | @follow links location part rest target proper link =>
      refine walk_link proper ?_ ?_ link
      · rintro ⟨creates, rfl⟩
        exact plain part creates rfl
      · rintro ⟨rfl, stays⟩
        exact goesOn part stays rfl

theorem walk_follow_of_leads (leads : Leads files p q) :
    p.walk files .follow = q.walk files .follow := by
  induction leads with
  | refl => rfl
  | tail _ step inductionHypothesis =>
      exact inductionHypothesis.trans (walk_of_step step (by simp) (by simp))

/-- All modes go the same way as long as a name is left behind. -/
theorem walk_of_leads (leads : Leads files p q) {last : String} (some : last ≠ "") :
    (p.extend 0 [last]).walk files mode = (q.extend 0 [last]).walk files mode := by
  induction leads with
  | refl => rfl
  | @tail middle _ _ step inductionHypothesis =>
      obtain ⟨part, rest, left⟩ := step.exists_part
      have behind : (middle.extend 0 [last]).remaining = part :: (rest ++ [last]) := by
        rw [WalkPoint.extend, left]
        rfl
      refine inductionHypothesis.trans (walk_of_step (step.extend 0 [last]) ?_ ?_)
      · intro first _ same
        rw [behind] at same
        have alone := (List.cons.inj same).2
        rw [List.append_eq_singleton_iff] at alone
        simp [some] at alone
      · intro first _ same
        rw [behind] at same
        simp at same

/-! The directory that a walk comes to before a part. -/

/-- A walk goes on behind a part, or ends there and has found what the part names. -/
theorem step_or_end_of_walk {target : PathTarget}
    (walks : files.walk mode links location (part :: rest) = .ok target) :
    (∃ q, Step files ⟨links, location, [part]⟩ q ∧
      (q.extend 0 rest).walk files mode = .ok target) ∨
    rest = [] ∧ Proper part ∧ target.location = location ++ [part] ∧
      (mode ≠ .stay → ∀ path, files.entry? (location ++ [part]) ≠ some (.link path)) := by
  rw [walk] at walks
  split at walks
  case isTrue isBlank => exact .inl ⟨_, .blank isBlank, walks⟩
  case isFalse named =>
    split at walks
    case isTrue up =>
      subst up
      exact .inl ⟨_, .up, walks⟩
    case isFalse down =>
      split at walks
      case isTrue => cases walks
      case isFalse =>
        split at walks
        case isTrue => cases walks
        case isFalse short =>
          have proper : Proper part := ⟨named, down, short⟩
          dsimp only at walks
          split at walks
          case h_1 free =>
            split at walks <;> cases walks
            exact .inr ⟨‹_›, proper, rfl, by simp [free]⟩
          case h_2 directory => exact .inl ⟨_, .enter proper directory, walks⟩
          case h_3 target link =>
            split at walks
            case isTrue ends =>
              cases walks
              exact .inr ⟨ends.1, proper, rfl, fun notStay => absurd ends.2 notStay⟩
            case isFalse =>
              split at walks
              case h_1 => cases walks
              case h_2 =>
                refine .inl ⟨_, .follow proper link, ?_⟩
                rw [List.append_nil]
                exact walks
          case h_4 other _ notLink there =>
            split at walks <;> cases walks
            refine .inr ⟨‹_›, proper, rfl, ?_⟩
            rintro _ path link
            rw [link] at there
            cases there
            exact notLink path rfl

theorem Step.smaller (step : Step files ⟨links, location, [part]⟩ q) :
    q.links < links ∨ q.links = links ∧ q.remaining = [] := by
  cases step with
  | follow => exact .inl (Nat.lt_succ_self _)
  | _ => exact .inr ⟨rfl, rfl⟩

/-- A walk that ends with parts left has come to a directory in front of them. -/
theorem exists_leads_of_walk {more : List String} (some : more ≠ []) {target : PathTarget}
    {links : Nat} {location : Location} {parts : List String}
    (walks : files.walk mode links location (parts ++ more) = .ok target) :
    ∃ left directory, Leads files ⟨links, location, parts⟩ ⟨left, directory, []⟩ ∧
      files.walk mode left directory more = .ok target := by
  match parts with
  | [] => exact ⟨links, location, .refl, walks⟩
  | part :: rest =>
      obtain ⟨q, step, goesOn⟩ :=
        (step_or_end_of_walk walks).resolve_right fun ends => by simp [some] at ends
      have smaller := step.smaller
      have goesOn : files.walk mode q.links q.location ((q.remaining ++ rest) ++ more) =
          .ok target := by
        rw [List.append_assoc]
        exact goesOn
      obtain ⟨left, directory, leads, ends⟩ := exists_leads_of_walk some goesOn
      exact ⟨left, directory, .head (step.extend 0 rest) leads, ends⟩
  termination_by (links, parts.length)
  decreasing_by
    rcases smaller with fewer | ⟨same, nothing⟩
    · exact Prod.Lex.left _ _ fewer
    · rw [same, nothing]
      exact Prod.Lex.right _ (Nat.lt_succ_self _)

theorem directory_of_leads (rooted : files.Rooted) (leads : Leads files p q)
    (here : files.entry? p.location = some .directory) :
    files.entry? q.location = some .directory := by
  induction leads with
  | refl => exact here
  | tail _ step inductionHypothesis =>
      cases step with
      | blank => exact inductionHypothesis
      | up => exact rooted.dropLast inductionHypothesis
      | enter _ directory => exact directory
      | follow => exact entry?_start inductionHypothesis _

theorem walk_blanks {blanks : List String} (blank : ∀ part ∈ blanks, part = "." ∨ part = "") :
    files.walk mode links location blanks = .ok (.entry location) := by
  induction blanks with
  | nil => rw [walk]
  | cons part rest inductionHypothesis =>
      rw [List.forall_mem_cons] at blank
      rw [walk, if_pos blank.1]
      exact inductionHypothesis blank.2

/-- A walk whose last step is upwards ends at a directory. -/
theorem directory_of_walk_up (rooted : files.Rooted) {earlier blanks : List String}
    (blank : ∀ part ∈ blanks, part = "." ∨ part = "")
    (here : files.entry? location = some .directory) {target : PathTarget}
    (walks : files.walk mode links location (earlier ++ ".." :: blanks) = .ok target) :
    files.entry? target.location = some .directory := by
  obtain ⟨left, directory, leads, ends⟩ := exists_leads_of_walk (List.cons_ne_nil _ _) walks
  rw [walk, if_neg (by decide), if_pos rfl, walk_blanks blank] at ends
  cases ends
  exact rooted.dropLast (directory_of_leads rooted leads here)

/-! The end of a way that leads to no directory. -/

/-- A walk that ends at no directory has come to the last part of its way. -/
theorem exists_last_of_walk (rooted : files.Rooted) {target : PathTarget}
    (notDirectory : files.entry? target.location ≠ some .directory) {links : Nat}
    {location : Location} {parts : List String}
    (here : files.entry? location = some .directory)
    (walks : files.walk mode links location parts = .ok target) :
    ∃ left directory last, Leads files ⟨links, location, parts⟩ ⟨left, directory, [last]⟩ ∧
      Proper last ∧ target.location = directory ++ [last] ∧
      (mode ≠ .stay → ∀ path, files.entry? (directory ++ [last]) ≠ some (.link path)) := by
  match parts with
  | [] =>
      rw [walk] at walks
      cases walks
      exact absurd here notDirectory
  | part :: rest =>
      rcases step_or_end_of_walk walks with ⟨q, step, goesOn⟩ | ⟨rfl, proper, place, notLink⟩
      · have smaller := step.smaller
        have reached : files.entry? q.location = some .directory :=
          directory_of_leads rooted (.single step) here
        obtain ⟨left, directory, last, leads, ends⟩ :=
          exists_last_of_walk rooted notDirectory reached goesOn
        exact ⟨left, directory, last, .head (step.extend 0 rest) leads, ends⟩
      · exact ⟨links, location, part, .refl, proper, place, notLink⟩
  termination_by (links, parts.length)
  decreasing_by
    rcases smaller with fewer | ⟨same, nothing⟩
    · exact Prod.Lex.left _ _ fewer
    · rw [WalkPoint.extend, same, nothing]
      exact Prod.Lex.right _ (Nat.lt_succ_self _)

/-- A walk that ends at a directory has come to it with no parts left. -/
theorem exists_leads_of_directory {target : PathTarget}
    (there : files.entry? target.location = some .directory) {links : Nat} {location : Location}
    {parts : List String} (walks : files.walk mode links location parts = .ok target) :
    ∃ left, Leads files ⟨links, location, parts⟩ ⟨left, target.location, []⟩ := by
  match parts with
  | [] =>
      rw [walk] at walks
      cases walks
      exact ⟨links, .refl⟩
  | part :: rest =>
      rcases step_or_end_of_walk walks with ⟨q, step, goesOn⟩ | ⟨rfl, proper, place, _⟩
      · have smaller := step.smaller
        obtain ⟨left, leads⟩ := exists_leads_of_directory there goesOn
        exact ⟨left, .head (step.extend 0 rest) leads⟩
      · rw [place] at there ⊢
        exact ⟨links, .single (.enter proper there)⟩
  termination_by (links, parts.length)
  decreasing_by
    rcases smaller with fewer | ⟨same, nothing⟩
    · exact Prod.Lex.left _ _ fewer
    · rw [WalkPoint.extend, same, nothing]
      exact Prod.Lex.right _ (Nat.lt_succ_self _)

/-- A walk that does not follow a link at its end stays in the directory of the last part. -/
theorem location_of_walk_stay {target : PathTarget} (named : ¬(part = "." ∨ part = ""))
    (down : part ≠ "..") (walks : files.walk .stay links location [part] = .ok target) :
    Proper part ∧ target.location = location ++ [part] := by
  rw [walk, if_neg named, if_neg down, if_neg (by simp)] at walks
  split at walks
  case isTrue => cases walks
  case isFalse short =>
    refine ⟨⟨named, down, short⟩, ?_⟩
    dsimp only at walks
    split at walks
    case h_1 =>
      cases walks
      rfl
    case h_2 =>
      rw [walk] at walks
      cases walks
      rfl
    case h_3 =>
      rw [if_pos ⟨rfl, rfl⟩] at walks
      cases walks
      rfl
    case h_4 =>
      cases walks
      rfl

theorem exists_walk_stay (files : FileSystem) (links : Nat) (location : Location)
    (proper : Proper part) :
    ∃ target, files.walk .stay links location [part] = .ok target ∧
      target.location = location ++ [part] := by
  rw [walk, if_neg proper.named, if_neg proper.down, if_neg (by simp), if_neg proper.short]
  dsimp only
  split
  case h_2 =>
    rw [walk]
    exact ⟨_, rfl, rfl⟩
  case h_3 => exact ⟨_, if_pos ⟨rfl, rfl⟩, rfl⟩
  all_goals exact ⟨_, rfl, rfl⟩

/-- With no parts left no walk goes on. -/
theorem final_nil : files.Final ⟨links, location, []⟩ := by
  rintro next ⟨⟩

/-- Where ways end: there is neither a directory nor a link. -/
def Stops (files : FileSystem) (location : Location) : Prop :=
  files.entry? location ≠ some .directory ∧
    ∀ path, files.entry? location ≠ some (.link path)

theorem Stops.of_entry {found : Option FileEntry} (here : files.entry? location = found)
    (notDirectory : found ≠ some .directory) (notLink : ∀ path, found ≠ some (.link path)) :
    files.Stops location := by
  rw [Stops, here]
  exact ⟨notDirectory, notLink⟩

theorem stops_of_file {bytes : ByteArray} (here : files.entry? location = some (.file bytes)) :
    files.Stops location :=
  .of_entry here (by simp) (by simp)

theorem final_of_last {directory : Location} (proper : Proper part)
    (stops : files.Stops (directory ++ [part])) :
    files.Final ⟨links, directory, part :: rest⟩ := by
  rintro next (isBlank | _ | ⟨_, there⟩ | ⟨_, there⟩)
  · exact proper.named isBlank
  · exact proper.down rfl
  · exact stops.1 there
  · exact stops.2 _ there

/-! A way among other entries. -/

/-- The same way leads on where the same stands at all locations that are looked at. -/
theorem Leads.of_same (leads : Leads files p q)
    (same : ∀ m next location, Leads files p m → Step files m next → Leads files next q →
      m.Looks location → others.entry? location = files.entry? location) :
    Leads others p q := by
  induction leads with
  | refl => exact .refl
  | @tail m q leads step inductionHypothesis =>
      have before : Leads others p m := by
        refine inductionHypothesis ?_
        intro first next location leadsFirst stepFirst behind
        exact same first next location leadsFirst stepFirst (behind.tail step)
      refine before.tail ?_
      cases step with
      | blank isBlank => exact .blank isBlank
      | up => exact .up
      | enter proper directory =>
          have looked := same _ _ _ leads (.enter proper directory) .refl ⟨_, _, rfl, proper, rfl⟩
          exact .enter proper (looked.trans directory)
      | follow proper link =>
          have looked := same _ _ _ leads (.follow proper link) .refl ⟨_, _, rfl, proper, rfl⟩
          exact .follow proper (looked.trans link)

/-- A way does not depend on what stands where ways end. -/
theorem Leads.of_sameBut {place : Location} (leads : Leads files p q) (stops : files.Stops place)
    (same : SameBut (· = place) files others) : Leads others p q := by
  refine leads.of_same ?_
  rintro ⟨links, here, remaining⟩ next location _ step _ ⟨part, rest, rfl, proper, rfl⟩
  refine same.entries _ ?_
  rintro rfl
  exact final_of_last proper stops _ step

theorem trailFrom_of_stops (proper : Proper part) (stops : files.Stops (location ++ [part])) :
    files.trailFrom links location (part :: rest) = [location ++ [part]] := by
  rw [trailFrom, if_neg proper.named, if_neg proper.down, if_neg proper.short]
  dsimp only
  split
  case h_1 there => exact absurd there stops.1
  case h_2 there => exact absurd there (stops.2 _)
  all_goals rfl

/-- A trail does not depend on what stands where ways end. -/
theorem trailFrom_of_sameBut {place : Location} (stops : files.Stops place)
    (stopsToo : others.Stops place) (same : SameBut (· = place) files others)
    {parts : List String} :
    others.trailFrom links location parts = files.trailFrom links location parts := by
  have stopped {inner : Location} (stopsHere : files.Stops inner) : others.Stops inner := by
    by_cases atPlace : inner = place
    · exact atPlace ▸ stopsToo
    · rwa [Stops, same.entries inner atPlace]
  fun_induction trailFrom files links location parts with
  | case1 => rw [trailFrom]
  | case2 links location part rest blank inductionHypothesis =>
      rw [trailFrom, if_pos blank]
      exact inductionHypothesis
  | case3 links location rest named inductionHypothesis =>
      rw [trailFrom, if_neg named, if_pos rfl]
      exact inductionHypothesis
  | case4 links location part rest named down long =>
      rw [trailFrom, if_neg named, if_neg down, if_pos long]
  | case5 links location part rest named down short inner here inductionHypothesis =>
      have there : others.entry? inner = some .directory :=
        (same.entries inner fun atPlace => stops.1 (atPlace ▸ here)).trans here
      rw [trailFrom, if_neg named, if_neg down, if_neg short]
      simp only [inner, there, inductionHypothesis]
  | case6 location part rest named down short inner target here =>
      have there : others.entry? inner = some (.link target) :=
        (same.entries inner fun atPlace => stops.2 target (atPlace ▸ here)).trans here
      rw [trailFrom, if_neg named, if_neg down, if_neg short]
      simp only [inner, there]
  | case7 location part rest named down short inner target here links inductionHypothesis =>
      have there : others.entry? inner = some (.link target) :=
        (same.entries inner fun atPlace => stops.2 target (atPlace ▸ here)).trans here
      rw [trailFrom, if_neg named, if_neg down, if_neg short]
      simp only [inner, there, inductionHypothesis]
  | case8 links location part rest named down short inner bytes here =>
      exact trailFrom_of_stops ⟨named, down, short⟩ (stopped (.of_entry here (by simp) (by simp)))
  | case9 links location part rest named down short inner here =>
      exact trailFrom_of_stops ⟨named, down, short⟩ (stopped (.of_entry here (by simp) (by simp)))
  | case10 links location part rest named down short inner here =>
      exact trailFrom_of_stops ⟨named, down, short⟩ (stopped (.of_entry here (by simp) (by simp)))

theorem mem_trailFrom_of_looks (looks : p.Looks location) :
    location ∈ files.trailFrom p.links p.location p.remaining := by
  obtain ⟨part, rest, left, proper, rfl⟩ := looks
  rw [left, trailFrom, if_neg proper.named, if_neg proper.down, if_neg proper.short]
  dsimp only
  split
  case h_2 => split <;> exact List.mem_cons_self
  all_goals exact List.mem_cons_self

theorem trailFrom_subset_of_step (step : Step files p q) :
    files.trailFrom q.links q.location q.remaining ⊆
      files.trailFrom p.links p.location p.remaining := by
  intro looked member
  cases step with
  | blank isBlank => rwa [trailFrom, if_pos isBlank]
  | up => rwa [trailFrom, if_neg (by decide), if_pos rfl]
  | enter proper directory =>
      rw [trailFrom, if_neg proper.named, if_neg proper.down, if_neg proper.short]
      simp only [directory]
      exact List.mem_cons_of_mem _ member
  | follow proper link =>
      rw [trailFrom, if_neg proper.named, if_neg proper.down, if_neg proper.short]
      simp only [link]
      exact List.mem_cons_of_mem _ member

/-- The trail of a walk has all locations that are looked at on its way. -/
theorem mem_trailFrom_of_leads (leads : Leads files p q) (looks : q.Looks location) :
    location ∈ files.trailFrom p.links p.location p.remaining := by
  induction leads using Relation.ReflTransGen.head_induction_on with
  | refl => exact mem_trailFrom_of_looks looks
  | head step _ inductionHypothesis => exact trailFrom_subset_of_step step inductionHypothesis

/-- Without links all on the trail of a way are directories but for its last part. -/
theorem mem_trailFrom_cases {directory : Location} {last : String}
    (leads : Leads files p ⟨links, directory, []⟩) (proper : Proper last)
    (notDirectory : files.entry? (directory ++ [last]) ≠ some .directory)
    (linkless : ∀ looked ∈ files.trailFrom p.links p.location (p.remaining ++ [last]),
      ∀ target, files.entry? looked ≠ some (.link target))
    (member : location ∈ files.trailFrom p.links p.location (p.remaining ++ [last])) :
    files.entry? location = some .directory ∨ location = directory ++ [last] := by
  induction leads using Relation.ReflTransGen.head_induction_on with
  | refl =>
      have looked : directory ++ [last] ∈ files.trailFrom links directory [last] :=
        mem_trailFrom_of_looks (p := ⟨links, directory, [last]⟩) ⟨last, [], rfl, proper, rfl⟩
      rw [List.nil_append, trailFrom_of_stops proper ⟨notDirectory, linkless _ looked⟩] at member
      exact .inr (List.mem_singleton.mp member)
  | head step _ inductionHypothesis =>
      cases step with
      | blank isBlank =>
          rw [List.cons_append, trailFrom, if_pos isBlank] at linkless member
          exact inductionHypothesis linkless member
      | up =>
          rw [List.cons_append, trailFrom, if_neg (by decide), if_pos rfl] at linkless member
          exact inductionHypothesis linkless member
      | enter properToo there =>
          rw [List.cons_append, trailFrom, if_neg properToo.named, if_neg properToo.down,
            if_neg properToo.short] at linkless member
          simp only [there, List.forall_mem_cons] at linkless member
          rcases List.mem_cons.mp member with rfl | behind
          · exact .inl there
          · exact inductionHypothesis linkless.2 behind
      | @follow _ _ part rest _ properToo link =>
          exact absurd link (linkless _ (mem_trailFrom_of_looks
            (p := ⟨_, _, part :: (rest ++ [last])⟩) ⟨part, _, rfl, properToo, rfl⟩) _)

/-- An end of ways: a part that names neither a directory nor a link. -/
structure Ends (files : FileSystem) (point : WalkPoint) (directory : Location) (last : String) :
    Prop where
  location : point.location = directory
  remaining : point.remaining = [last]
  proper : Proper last
  stops : files.Stops (directory ++ [last])

namespace Ends

variable {directory : Location} {last : String}

/-- No way leads on from an end, whatever parts stand behind it. -/
theorem final (ends : files.Ends p directory last) (more : Nat) (others : List String) :
    files.Final (p.extend more others) := by
  obtain ⟨links, location, remaining⟩ := p
  obtain ⟨rfl, rfl, proper, stops⟩ := ends
  exact final_of_last proper stops

/-- A link that leads to an end leads on to the path that it holds. -/
theorem exists_follow {target : String} (ends : files.Ends q directory last)
    (link : files.entry? (location ++ [part]) = some (.link target)) (proper : Proper part)
    (leads : Leads files ⟨links, location, part :: rest⟩ q) :
    ∃ left, links = left + 1 ∧
      Leads files ⟨left, start location target, partsAndSlash target ++ rest⟩ q := by
  rcases leads.cases_head with rfl | ⟨next, step, behind⟩
  · obtain ⟨rfl, same, _, stops⟩ := ends
    obtain ⟨rfl, _⟩ := List.cons.inj same
    exact absurd link (stops.2 target)
  · cases links with
    | zero =>
        cases step with
        | blank isBlank => exact absurd isBlank proper.named
        | up => exact absurd rfl proper.down
        | enter _ there =>
            rw [link] at there
            cases there
    | succ left =>
        obtain rfl := step.unique (.follow proper link)
        exact ⟨left, rfl, behind⟩

end Ends

/-- A way to an end comes only once to what is no directory. -/
theorem visit_unique {directory there : Location} {last found : String} {more : List String}
    {first second : Nat} (ends : files.Ends q there found) (proper : Proper last)
    (notDirectory : files.entry? (directory ++ [last]) ≠ some .directory)
    (leads : Leads files ⟨first, directory, [last]⟩ q)
    (leadsToo : Leads files ⟨second, directory, last :: more⟩ q) :
    second = first ∧ more = [] := by
  have final : files.Final q := by
    have noMore := ends.final 0 []
    rwa [WalkPoint.extend, List.append_nil] at noMore
  by_cases stops : files.Stops (directory ++ [last])
  · have same := Leads.eq_of_final .refl (final_of_last proper stops) leads final
    have sameToo := Leads.eq_of_final .refl (final_of_last proper stops) leadsToo final
    simpa using sameToo.trans same.symm
  · obtain ⟨target, link⟩ : ∃ target, files.entry? (directory ++ [last]) = some (.link target) := by
      simpa [Stops, notDirectory] using stops
    obtain ⟨left, rfl, goesOn⟩ := ends.exists_follow link proper leads
    obtain ⟨leftToo, rfl, goesOnToo⟩ := ends.exists_follow link proper leadsToo
    -- With as many links granted on both sides, both ways end at one point.
    have forth := goesOn.extend (leftToo - left) more
    have back := goesOnToo.extend (left - leftToo) []
    have begins : WalkPoint.extend ⟨left, start directory target, partsAndSlash target ++ []⟩
          (leftToo - left) more =
        WalkPoint.extend ⟨leftToo, start directory target, partsAndSlash target ++ more⟩
          (left - leftToo) [] := by
      simp only [WalkPoint.extend, List.append_nil, WalkPoint.mk.injEq, and_true]
      omega
    rw [begins] at forth
    have same := forth.eq_of_final (ends.final _ _) back (ends.final _ _)
    rw [WalkPoint.extend, WalkPoint.extend, WalkPoint.mk.injEq, ends.remaining] at same
    refine ⟨by omega, ?_⟩
    simpa using same.2.2

end RobotRoutine.FileSystem
