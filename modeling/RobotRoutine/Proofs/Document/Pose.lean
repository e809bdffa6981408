import RobotRoutine.Proofs.Check.Report
import RobotRoutine.Proofs.Document.ParameterOrder

/-!
Poses as they are read, compared and shown.

Every text that is read as a number may stand in a pose, the words for the infinities and for what
is no number included, and decimals beyond the range.  So the texts decide whether a configuration
is equal to itself, and whether a report shows three numbers.
-/

namespace RobotRoutine

/-- What holds of related elements together holds of all of both lists or of neither. -/
theorem forall_mem_iff_of_forall₂ {α β : Type} {related : α → β → Prop} {P : α → Prop}
    {Q : β → Prop} (same : ∀ a b, related a b → (P a ↔ Q b)) {first : List α} {second : List β}
    (pairs : List.Forall₂ related first second) : (∀ a ∈ first, P a) ↔ ∀ b ∈ second, Q b := by
  induction pairs with
  | nil => simp
  | cons pair _ inductionHypothesis =>
      rw [List.forall_mem_cons, List.forall_mem_cons, same _ _ pair, inductionHypothesis]

/-! Comparison. -/

theorem Binary64.equals_self (x : Binary64) : x.equals x = !x.isNaN := by
  rw [equals, rank?]
  cases x.isNaN with
  | true => rfl
  | false => simp

def Pose.numbers (pose : Pose) : List Binary64 := [pose.x, pose.y, pose.heading]

/-- The numbers of the pose, if there is one. -/
def Configuration.poseNumbers (configuration : Configuration) : List Binary64 :=
  match configuration.startingPose with
  | none => []
  | some pose => pose.numbers

theorem Configuration.equals_self_iff {configuration : Configuration} :
    configuration.equals configuration = true ↔
      ∀ number ∈ configuration.poseNumbers, number.isNaN = false := by
  have posed : configuration.equals configuration =
      Pose.equalsIfAny configuration.startingPose configuration.startingPose := by
    simp [equals]
  rw [posed, poseNumbers]
  cases configuration.startingPose with
  | none => simp [Pose.equalsIfAny]
  | some pose => simp [Pose.equalsIfAny, Pose.equals, Pose.numbers, Binary64.equals_self, and_assoc]

namespace Document

open Number (IsJson SaysFinite SaysNaN decimal?)
open Xml (Element)

variable {text selector : String} {configuration : Configuration} {parameters position : Element}
  {pose : Pose}

/-- The element with the parameters of a section in the text of a document. -/
def IsParameters (text selector : String) (parameters : Element) : Prop :=
  ∃ root candidate, Xml.read text = .ok root ∧ section? root selector = some candidate ∧
    requireParameters candidate = .ok parameters

/-- The texts of the numbers of a pose, of which there are none if no pose is given. -/
inductive PoseTexts (parameters : Element) : List String → Prop where
  | absent (none : ∀ child ∈ parameters.elements, child.name ≠ "starting_position") :
      PoseTexts parameters []
  | given {position : Element} (child : position ∈ parameters.elements)
      (named : position.name = "starting_position") :
      PoseTexts parameters ((position.elements.take 3).map fieldText)

theorem exists_parameters_of_read (read : Document.read text selector = .ok configuration) :
    ∃ element parameters, IsParameters text selector element ∧
      readParameters element = .ok parameters ∧
      configuration.startingPose = parameters.startingPose := by
  rw [Document.read] at read
  split at read
  case h_1 root isRoot =>
    rw [ofRoot] at read
    split at read
    case isTrue =>
      split at read
      case h_1 candidate found =>
        obtain ⟨element, isElement, readBehind⟩ := bind_eq_ok_iff.mp read
        obtain ⟨parameters, readParameters, readBehind⟩ := bind_eq_ok_iff.mp readBehind
        obtain ⟨actions, _, readBehind⟩ := bind_eq_ok_iff.mp readBehind
        obtain ⟨steps, _, same⟩ := bind_eq_ok_iff.mp readBehind
        cases same
        exact ⟨element, parameters, ⟨root, candidate, isRoot, found, isElement⟩,
          readParameters, rfl⟩
      case h_2 => cases read
    case isFalse => cases read
  case h_2 => cases read

theorem HoldsPose.texts (holds : HoldsPose position pose) :
    List.Forall₂ (fun written number => decimal? written = some number)
      ((position.elements.take 3).map fieldText) pose.numbers := by
  obtain ⟨⟨x, first, holdsX⟩, ⟨y, second, holdsY⟩, ⟨heading, third, holdsHeading⟩⟩ := holds
  have fields : position.elements.take 3 = [x, y, heading] := by
    rw [List.take_add_one, List.take_add_one, List.take_add_one, first, second, third]
    rfl
  rw [fields]
  exact .cons holdsX.parsed (.cons holdsY.parsed (.cons holdsHeading.parsed .nil))

/-- The pose of a configuration comes from the texts that its section has for it. -/
theorem exists_poseTexts (read : Document.read text selector = .ok configuration) :
    ∃ parameters texts, IsParameters text selector parameters ∧ PoseTexts parameters texts ∧
      List.Forall₂ (fun written number => decimal? written = some number) texts
        configuration.poseNumbers := by
  obtain ⟨element, parameters, isElement, readParameters, posed⟩ := exists_parameters_of_read read
  obtain ⟨given, absent⟩ := holds_readPlaces (by decide) readParameters .pose
  by_cases named : ∃ child ∈ element.elements, child.name = "starting_position"
  · obtain ⟨position, child, named⟩ := named
    obtain ⟨pose, isPose, holds⟩ := given position child named
    refine ⟨element, _, isElement, .given child named, ?_⟩
    rw [Configuration.poseNumbers, posed, isPose]
    exact holds.texts
  · have none : ∀ child ∈ element.elements, child.name ≠ "starting_position" :=
      fun child member same => named ⟨child, member, same⟩
    have noPose : parameters.startingPose = Option.none := absent none
    refine ⟨element, [], isElement, .absent none, ?_⟩
    rw [Configuration.poseNumbers, posed, noPose]
    exact .nil

/-- What the texts of a pose decide about a configuration that is read with them. -/
structure DecidedBy (texts : List String) (text selector : String) (configuration : Configuration) :
    Prop where
  numbers : List.Forall₂ (fun written number => decimal? written = some number) texts
    configuration.poseNumbers
  /-- Reading a document twice gives the same, as far as the configurations compare. -/
  comparable : ∀ again, Document.read text selector = .ok again →
    (configuration.equals again = true ↔ ∀ written ∈ texts, ¬SaysNaN written)
  finite : (∀ number ∈ configuration.poseNumbers, number.isFinite = true) ↔
    ∀ written ∈ texts, SaysFinite written
  shown : ∀ pose, configuration.startingPose = some pose → ∃ before after,
    CommandLine.checkReport true selector configuration =
      before ++ Json.memberText 1 "starting_pose" (Json.ofPose pose) ++ after
  numeral : ∀ number ∈ configuration.poseNumbers, number.isFinite = true →
    IsJson number.jsonText ∧ decimal? number.jsonText = some number
  null : ∀ number ∈ configuration.poseNumbers, number.isFinite = false → number.jsonText = "null"

theorem decidedBy_poseTexts (read : Document.read text selector = .ok configuration) :
    ∃ parameters texts, IsParameters text selector parameters ∧ PoseTexts parameters texts ∧
      DecidedBy texts text selector configuration := by
  obtain ⟨parameters, texts, isParameters, poseTexts, numbers⟩ := exists_poseTexts read
  have nameless (written : String) (number : Binary64) (given : decimal? written = some number) :
      ¬SaysNaN written ↔ number.isNaN = false := by
    rw [← Number.isNaN_iff given, Bool.not_eq_true]
  have bounded (written : String) (number : Binary64) (given : decimal? written = some number) :
      SaysFinite written ↔ number.isFinite = true :=
    (Number.isFinite_iff given).symm
  refine ⟨parameters, texts, isParameters, poseTexts, numbers, ?_, ?_, ?_, ?_, ?_⟩
  · intro again readAgain
    obtain rfl := Except.ok.inj (read.symm.trans readAgain)
    rw [Configuration.equals_self_iff]
    exact (forall_mem_iff_of_forall₂ nameless numbers).symm
  · exact (forall_mem_iff_of_forall₂ bounded numbers).symm
  · exact fun pose posed => exists_poseText posed selector
  · exact fun number _ finite =>
      ⟨Binary64.isJson_jsonText finite, Binary64.decimal?_jsonText finite⟩
  · exact fun number _ infinite => Binary64.jsonText_of_not_finite infinite

/-- A document with a pose of which one number is none, and another one beyond the range. -/
def oddPose : String :=
  "<RobotAction><OpMode id=\"T\"><parameters><starting_position><x>NaN</x><y>0</y>" ++
    "<angle>1e400</angle></starting_position></parameters><actions/></OpMode></RobotAction>"

/-- The configuration is not equal to itself, and two numbers of its pose are shown as null. -/
theorem decidedBy_poseTexts_oddPose :
    ∃ configuration pose, Document.read oddPose "T" = .ok configuration ∧
      configuration.startingPose = some pose ∧ configuration.equals configuration = false ∧
      pose.numbers.map Binary64.jsonText = ["null", "0.0", "null"] ∧
      ∃ parameters texts, IsParameters oddPose "T" parameters ∧ PoseTexts parameters texts ∧
        DecidedBy texts oddPose "T" configuration := by
  let configuration : Configuration :=
    ⟨none, .empty, [], some ⟨.notANumber, .zero, .infinity false⟩, [], none⟩
  have found : (Document.read oddPose "T").toOption = some configuration := by decide +kernel
  have read : Document.read oddPose "T" = .ok configuration := by
    cases result : Document.read oddPose "T" with
    | ok other =>
        rw [result] at found
        rw [Option.some.inj found]
    | error error =>
        rw [result] at found
        cases found
  exact ⟨configuration, _, read, rfl, by decide, by decide, decidedBy_poseTexts read⟩

end Document

end RobotRoutine
