import RobotRoutine.Proofs.Document.Markers
import RobotRoutine.Proofs.Document.ParameterOrder

/-!
What a document that was read holds.

The parts that are read from the parameters and from the actions of a section are put together to
what holds of its configuration.
-/

namespace RobotRoutine.Document

open Xml (Element Node)

/-- The tags that the section of a selector names in its parameters, repetitions included. -/
def namedTags (root : Element) (selector : String) : List TagId :=
  match section? root selector with
  | none => []
  | some candidate =>
      match candidate.elements with
      | [] => []
      | parameters :: _ =>
          (tagElements parameters.elements).flatMap fun named => tagsNamed named.elements

structure Accepted (root : Element) (selector : String) (configuration : Configuration) :
    Prop where
  branches : configuration.Branches
  tags : FirstAppearances (namedTags root selector) configuration.tagsOfInterest
  region : configuration.regionOfInterest.Sized

theorem requireParameters_eq_ok {candidate parameters : Element}
    (required : requireParameters candidate = .ok parameters) :
    ∃ rest, candidate.elements = parameters :: rest := by
  unfold requireParameters at required
  split at required
  case h_1 first rest same =>
    split at required
    · cases required
      exact ⟨rest, same⟩
    · cases required
  case h_2 => cases required

theorem accepted_ofRoot {root : Element} {selector : String} {configuration : Configuration}
    (read : ofRoot root selector = .ok configuration) : Accepted root selector configuration := by
  unfold ofRoot at read
  split at read
  case isFalse => cases read
  cases found : section? root selector with
  | none =>
      rw [found] at read
      cases read
  | some candidate =>
      rw [found] at read
      obtain ⟨element, required, read⟩ := exists_of_bind_eq_ok read
      obtain ⟨parameters, readHere, read⟩ := exists_of_bind_eq_ok read
      obtain ⟨actions, _, read⟩ := exists_of_bind_eq_ok read
      obtain ⟨⟨steps, table⟩, readSteps, same⟩ := exists_of_bind_eq_ok read
      cases same
      obtain ⟨rest, first⟩ := requireParameters_eq_ok required
      obtain ⟨sized, tags⟩ := readParameters_spec readHere
      have named : namedTags root selector =
          (tagElements element.elements).flatMap fun named => tagsNamed named.elements := by
        rw [namedTags, found]
        simp only [first]
      exact ⟨branches_readActions readSteps, named ▸ tags, sized⟩

theorem exists_root_of_ofFile {path selector : String} {contents : Except SystemError String}
    {configuration : Configuration} (read : ofFile path contents selector = .ok configuration) :
    ∃ root, ofRoot root selector = .ok configuration := by
  cases contents with
  | error cause => cases read
  | ok text =>
      change Document.read text selector = .ok configuration at read
      unfold Document.read at read
      split at read
      case h_1 root _ => exact ⟨root, read⟩
      case h_2 => cases read

theorem branches_ofFile {path selector : String} {contents : Except SystemError String}
    {configuration : Configuration} (read : ofFile path contents selector = .ok configuration) :
    configuration.Branches := by
  obtain ⟨root, readRoot⟩ := exists_root_of_ofFile read
  exact (accepted_ofRoot readRoot).branches

/-- A section with a choice between zones, of which only the left one has a step. -/
def sampleRoot : Element :=
  let choice : Node := .element "ocv_choice" []
    [.element "LEFT" [] [.element "sleep" [⟨none, "ms", "5"⟩] []], .element "CENTER" [] [],
      .element "RIGHT" [] []]
  let tags : Node := .element "vumarks" []
    [.element "FRONT_WALL" [] [], .element "RED_ALLIANCE" [] [], .element "FRONT_WALL" [] []]
  let content : List Node := [.element "parameters" [] [tags],
    .element "actions" [] [choice, .element "forward_by_time" [] []]]
  ⟨rootName, [], [.element sectionName [⟨none, "id", "A"⟩] content]⟩

def sampleConfiguration : Configuration where
  loggingThreshold := none
  regionOfInterest := .empty
  tagsOfInterest := [.frontWall, .redAlliance]
  startingPose := none
  actions := [⟨"ocv_choice", []⟩, ⟨"forward_by_time", []⟩]
  branchTable := some { left := [⟨"sleep", [("ms", "5")]⟩], center := [], right := [] }

theorem ofRoot_sampleRoot : ofRoot sampleRoot "A" = .ok sampleConfiguration := by
  decide +kernel

end RobotRoutine.Document
