import Mathlib.Data.String.Basic
import RobotRoutine.Files.FileSystem
import RobotRoutine.Proofs.Document.Parameters

/-!
What the reading of a path depends on.

The walk of a path looks at some locations only: its trail.  A file system in which the same stands
at all of them gives the same text for the path, or fails in the same way.
-/

namespace RobotRoutine

/-! Splitting at slashes.  Only the splitting at characters of a kind has a specification. -/

theorem splitOnAux_slash (text : String) (start here : String.Pos.Raw) (found : List String) :
    text.splitOnAux "/" start here 0 found = text.splitAux (· == '/') start here found := by
  have first : String.Pos.Raw.get "/" 0 = '/' := by decide
  have last : String.Pos.Raw.atEnd "/" (String.Pos.Raw.next "/" 0) = true := by decide
  fun_induction String.splitAux text (· == '/') start here found with
  | case1 start here found ends => rw [String.splitOnAux, if_pos ends]
  | case2 start here found goesOn _ isSlash next inductionHypothesis =>
      have back : (String.Pos.Raw.next text here).unoffsetBy (String.Pos.Raw.next "/" 0) =
          here := by
        rw [String.Pos.Raw.next, eq_of_beq isSlash]
        rfl
      rw [String.splitOnAux, if_neg goesOn, first, if_pos isSlash]
      simp only [last, if_true, back]
      exact inductionHypothesis
  | case3 start here found goesOn _ other inductionHypothesis =>
      rw [String.splitOnAux, if_neg goesOn, first, if_neg other]
      exact inductionHypothesis

theorem splitOn_slash (text : String) :
    text.splitOn "/" = (text.toList.splitOnP (· == '/')).map String.ofList := by
  rw [← String.splitToList_of_valid, String.splitOn, if_neg (by decide), splitOnAux_slash]
  rfl

namespace FileSystem

theorem parts_eq (path : String) :
    parts path =
      ((path.toList.splitOnP (· == '/')).map String.ofList).filter fun part => part != "" := by
  rw [parts, splitOn_slash]

/-- The locations at which a walk looks, the one where it ends included. -/
def trailFrom (files : FileSystem) (links : Nat) (location : Location) : List String → List Location
  | [] => [location]
  | part :: rest =>
      if part = "." ∨ part = "" then trailFrom files links location rest
      else if part = ".." then trailFrom files links location.dropLast rest
      else if nameLimit < part.utf8ByteSize then []
      else
        let inner := location ++ [part]
        match files.entry? inner with
        | some .directory => inner :: trailFrom files links inner rest
        | some (.link target) =>
            match links with
            | 0 => [inner]
            | links + 1 =>
                inner :: trailFrom files links (start location target)
                  (partsAndSlash target ++ rest)
        | some (.file _) => [inner]
        | some .fullDevice => [inner]
        | none => [inner]
  termination_by remaining => (links, remaining.length)

/-- The locations at which the reading of a path looks. -/
def trail (files : FileSystem) (path : String) : List Location :=
  files.trailFrom linkLimit (start files.workingDirectory path) (partsAndSlash path)

variable {files others : FileSystem} {links : Nat} {location : Location} {part : String}
  {rest : List String}

/-- The step of a walk that follows links, at a part that names an entry. -/
theorem walk_name (named : ¬(part = "." ∨ part = "")) (down : part ≠ "..")
    (short : ¬nameLimit < part.utf8ByteSize) :
    files.walk .follow links location (part :: rest) =
      match files.entry? (location ++ [part]) with
      | none => if rest = [] then .ok (.free location part) else .error .notFound
      | some .directory => files.walk .follow links (location ++ [part]) rest
      | some (.link target) =>
          match links with
          | 0 => .error .tooManyLinks
          | links + 1 =>
              files.walk .follow links (start location target) (partsAndSlash target ++ rest)
      | some _ =>
          if rest = [] then .ok (.entry (location ++ [part])) else .error .notADirectory := by
  rw [walk, if_neg named, if_neg down, if_neg (by simp), if_neg short]
  dsimp only
  cases files.entry? (location ++ [part]) with
  | none => rfl
  | some entry =>
      cases entry with
      | directory => rfl
      | link target => cases links <;> exact if_neg (by simp)
      | file bytes => rfl
      | fullDevice => rfl

theorem walk_longName (named : ¬(part = "." ∨ part = "")) (down : part ≠ "..")
    (long : nameLimit < part.utf8ByteSize) :
    files.walk .follow links location (part :: rest) = .error .nameTooLong := by
  rw [walk, if_neg named, if_neg down, if_neg (by simp), if_pos long]

theorem eq_of_ends {found target : Location} {error : SystemError}
    (ends : (if rest = [] then Except.ok (PathTarget.entry found) else .error error) =
      .ok (.entry target)) : target = found := by
  split at ends <;> cases ends
  rfl

/-- A walk and what it finds at its end, where the same stands on its trail. -/
theorem walk_of_sameOnTrail {parts : List String}
    (same : ∀ looked ∈ files.trailFrom links location parts,
      others.entry? looked = files.entry? looked) :
    others.walk .follow links location parts = files.walk .follow links location parts ∧
      ∀ target, files.walk .follow links location parts = .ok (.entry target) →
        others.entry? target = files.entry? target := by
  -- The induction follows the trail of `files`; at each of its locations `same` turns the entry
  -- that decides the step of `others` into that of `files`.
  fun_induction trailFrom files links location parts with
  | case1 links location =>
      rw [walk, walk]
      refine ⟨rfl, ?_⟩
      rintro _ ⟨⟩
      exact same location (List.mem_singleton_self _)
  | case2 links location part rest blank inductionHypothesis =>
      rw [walk, walk, if_pos blank, if_pos blank]
      exact inductionHypothesis same
  | case3 links location rest named inductionHypothesis =>
      rw [walk, walk, if_neg named, if_pos rfl, if_neg named, if_pos rfl]
      exact inductionHypothesis same
  | case4 links location part rest named down long =>
      rw [walk_longName named down long, walk_longName named down long]
      refine ⟨rfl, ?_⟩
      rintro _ ⟨⟩
  | case5 links location part rest named down short inner here inductionHypothesis =>
      rw [List.forall_mem_cons] at same
      rw [walk_name named down short, walk_name named down short, same.1, here]
      exact inductionHypothesis same.2
  | case6 location part rest named down short inner target here =>
      rw [List.forall_mem_singleton] at same
      rw [walk_name named down short, walk_name named down short, same, here]
      refine ⟨rfl, ?_⟩
      rintro _ ⟨⟩
  | case7 location part rest named down short inner target here links inductionHypothesis =>
      rw [List.forall_mem_cons] at same
      rw [walk_name named down short, walk_name named down short, same.1, here]
      exact inductionHypothesis same.2
  | case8 links location part rest named down short inner bytes here =>
      rw [List.forall_mem_singleton] at same
      rw [walk_name named down short, walk_name named down short, same, here]
      refine ⟨rfl, ?_⟩
      intro target walks
      rw [eq_of_ends walks, same, here]
  | case9 links location part rest named down short inner here =>
      rw [List.forall_mem_singleton] at same
      rw [walk_name named down short, walk_name named down short, same, here]
      refine ⟨rfl, ?_⟩
      intro target walks
      rw [eq_of_ends walks, same, here]
  | case10 links location part rest named down short inner here =>
      rw [List.forall_mem_singleton] at same
      rw [walk_name named down short, walk_name named down short, same, here]
      refine ⟨rfl, ?_⟩
      intro target walks
      dsimp only at walks
      split at walks <;> cases walks

/-- A file system in which the same stands on the trail of a path. -/
structure SameOnTrail (files others : FileSystem) (path : String) : Prop where
  workingDirectory : others.workingDirectory = files.workingDirectory
  entries : ∀ looked ∈ files.trail path, others.entry? looked = files.entry? looked

variable {path : String}

theorem locate_of_sameOnTrail (same : files.SameOnTrail others path) :
    others.locate path = files.locate path ∧
      ∀ location, files.locate path = .ok location →
        others.entry? location = files.entry? location := by
  obtain ⟨walks, looks⟩ := walk_of_sameOnTrail same.entries
  unfold locate resolve
  rw [same.workingDirectory, walks]
  refine ⟨rfl, ?_⟩
  intro location located
  obtain ⟨target, resolved, located⟩ := exists_of_bind_eq_ok located
  obtain ⟨_, _, walked⟩ := exists_of_bind_eq_ok resolved
  cases target with
  | entry found =>
      cases located
      exact looks _ walked
  | free directory name => cases located

theorem readText_of_sameOnTrail (same : files.SameOnTrail others path) :
    others.readText path = files.readText path := by
  obtain ⟨locates, looks⟩ := locate_of_sameOnTrail same
  have bytes : others.readBytes path = files.readBytes path := by
    unfold readBytes
    rw [locates]
    cases located : files.locate path with
    | error error => rfl
    | ok location =>
        simp only [bind, Except.bind, looks location located]
  rw [readText, readText, bytes]

/-! A document at the root.  What is wrong with the operations to come does not touch what is
read. -/

theorem resolve_root {mode : WalkMode} {parts : List String} (checked : checkPath path = .ok ())
    (root : files.workingDirectory = []) :
    files.resolve mode path parts = files.walk mode linkLimit [] parts := by
  rw [resolve, checked, root, start, ite_self]
  rfl

theorem fromUTF8?_toUTF8 (text : String) : String.fromUTF8? text.toUTF8 = some text := by
  change String.fromUTF8? text.toByteArray = some text
  rw [String.fromUTF8?, dif_pos text.isValidUTF8]
  rfl

theorem readText_of_walk {text : String} (checked : checkPath path = .ok ())
    (root : files.workingDirectory = [])
    (walks : files.walk .follow linkLimit [] (partsAndSlash path) = .ok (.entry location))
    (here : files.entry? location = some (.file text.toUTF8)) :
    files.readText path = .ok text := by
  rw [readText, readBytes, locate, resolve_root checked root, walks]
  simp only [bind, Except.bind, here, fromUTF8?_toUTF8]

/-- Files with one document, on which operations meet these faults. -/
def withDocument (document : String) (faults : List (Option FileFault)) : FileSystem :=
  ⟨[(["d.xml"], .file document.toUTF8)], [], faults⟩

variable (document : String) (faults : List (Option FileFault))

theorem parts_document : partsAndSlash "d.xml" = ["d.xml"] := by
  rw [partsAndSlash, parts_eq]
  decide +kernel

theorem trail_document : (withDocument document faults).trail "d.xml" = [["d.xml"]] := by
  rw [trail, parts_document]
  simp +decide [trailFrom, withDocument, entry?, start]

theorem readText_document : (withDocument document faults).readText "d.xml" = .ok document := by
  have walks : (withDocument document faults).walk .follow linkLimit [] (partsAndSlash "d.xml") =
      .ok (.entry ["d.xml"]) := by
    rw [parts_document]
    simp +decide [walk, withDocument, entry?]
  exact readText_of_walk (by decide +kernel) rfl walks rfl

theorem parts_behind : partsAndSlash "logs/../d.xml" = ["logs", "..", "d.xml"] := by
  rw [partsAndSlash, parts_eq]
  decide +kernel

/-- The way to a document may lead through a directory that is missing. -/
theorem readText_behind :
    (withDocument document faults).readText "logs/../d.xml" = .error .notFound := by
  have walks : (withDocument document faults).walk .follow linkLimit []
      (partsAndSlash "logs/../d.xml") = .error .notFound := by
    rw [parts_behind]
    simp +decide [walk, withDocument, entry?, List.lookup_cons]
  rw [readText, readBytes, locate, resolve_root (by decide +kernel) rfl, walks]
  rfl

end FileSystem

end RobotRoutine
