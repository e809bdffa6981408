import RobotRoutine.CommandLine.Commands
import RobotRoutine.Proofs.Number.JsonNumber

/-!
The report of a check in JSON.

Each member of an object stands in its text on a line of its own.  So the report shows the pose of
the configuration that was checked, with the three numbers as they are written in JSON.
-/

namespace RobotRoutine

namespace Json

variable {members : List (String × Json)} {key : String} {value : Json}

/-- The text of a member of an object whose first line stands at a level. -/
def memberText (level : Nat) (key : String) (value : Json) : String :=
  newLine (level + 1) ++ quoted key ++ ": " ++ value.render (level + 1)

theorem renderMembers_cons (level : Nat) (rest : List (String × Json)) :
    renderMembers level ((key, value) :: rest) =
      "," ++ memberText level key value ++ renderMembers level rest := by
  rw [renderMembers]
  simp only [memberText, String.append_assoc]

theorem exists_renderMembers_append (level : Nat) (first second : List (String × Json)) :
    ∃ before, renderMembers level (first ++ second) = before ++ renderMembers level second := by
  induction first with
  | nil => exact ⟨"", String.empty_append.symm⟩
  | cons member first inductionHypothesis =>
      obtain ⟨before, split⟩ := inductionHypothesis
      refine ⟨"," ++ memberText level member.1 member.2 ++ before, ?_⟩
      rw [List.cons_append, renderMembers_cons, split, ← String.append_assoc]

theorem render_object_cons (level : Nat) (rest : List (String × Json)) :
    render level (object ((key, value) :: rest)) =
      "\x7b" ++ memberText level key value ++ renderMembers level rest := by
  rw [render]
  simp only [memberText, String.append_assoc]

/-- Every member of an object is shown. -/
theorem exists_render_object (member : (key, value) ∈ members) (level : Nat) :
    ∃ before after,
      render level (object members) = before ++ memberText level key value ++ after := by
  obtain ⟨first, rest, rfl⟩ := List.append_of_mem member
  cases first with
  | nil => exact ⟨_, _, render_object_cons level rest⟩
  | cons head first =>
      obtain ⟨before, split⟩ := exists_renderMembers_append level first ((key, value) :: rest)
      refine ⟨"\x7b" ++ memberText level head.1 head.2 ++ before ++ ",",
        renderMembers level rest, ?_⟩
      rw [List.cons_append, render_object_cons, split, renderMembers_cons]
      simp only [String.append_assoc]

end Json

/-- The report in JSON shows the pose. -/
theorem exists_poseText {configuration : Configuration} {pose : Pose}
    (posed : configuration.startingPose = some pose) (selector : String) :
    ∃ before after, CommandLine.checkReport true selector configuration =
      before ++ Json.memberText 1 "starting_pose" (Json.ofPose pose) ++ after := by
  have position : ("starting_pose", Json.ofPose pose) ∈
      [("logging_threshold",
          Json.optional (fun t => .string t.name) configuration.loggingThreshold),
        ("region_of_interest", Json.ofRegion configuration.regionOfInterest),
        ("tags_of_interest",
          .array (configuration.tagsOfInterest.map fun tag => .string tag.name)),
        ("starting_pose", Json.optional Json.ofPose configuration.startingPose),
        ("actions", Json.ofSteps configuration.actions),
        ("branch_table", Json.optional Json.ofBranchTable configuration.branchTable)] := by
    rw [posed]
    exact .tail _ (.tail _ (.tail _ (.head _)))
  have configured : ("config", Json.ofConfiguration configuration) ∈
      [("summary", Json.ofSummary (Check.summary selector configuration)),
        ("config", Json.ofConfiguration configuration)] := .tail _ (.head _)
  obtain ⟨before, after, shown⟩ := Json.exists_render_object position 1
  obtain ⟨first, last, whole⟩ := Json.exists_render_object configured 0
  refine ⟨first ++ Json.newLine 1 ++ Json.quoted "config" ++ ": " ++ before, after ++ last ++ "\n",
    ?_⟩
  rw [CommandLine.checkReport, if_pos rfl, Json.pretty, Json.ofCheck, whole, Json.memberText,
    Json.ofConfiguration, shown]
  simp only [String.append_assoc]

end RobotRoutine
