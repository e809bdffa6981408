import Mathlib.Logic.Relation
import RobotRoutine.Proofs.Document.Outline
import RobotRoutine.Proofs.Document.Parameters

/-!
Documents that differ in the levels of the run log.

A level may be put in the place of another one, wherever that stands among the parameters of a
section, and before parameters that have none.  Two documents that differ in nothing else give the
same configuration up to its threshold, or the same error.
-/

namespace RobotRoutine

/-- Results that agree in what counts go on to results that agree, if they always do. -/
theorem map_bind_congr {ε α β γ δ : Type} {counts : α → γ} {countsThen : β → δ}
    {first second : Except ε α} {next other : α → Except ε β}
    (same : first.map counts = second.map counts)
    (sameThen : ∀ a b, counts a = counts b →
      (next a).map countsThen = (other b).map countsThen) :
    (first.bind next).map countsThen = (second.bind other).map countsThen := by
  cases first with
  | error error =>
      cases second with
      | error =>
          cases same
          rfl
      | ok => cases same
  | ok a =>
      cases second with
      | error => cases same
      | ok b =>
          injection same with agree
          exact sameThen a b agree

theorem map_bind_congr_right {ε α β δ : Type} {counts : β → δ} {first : Except ε α}
    {next other : α → Except ε β} (same : ∀ a, (next a).map counts = (other a).map counts) :
    (first.bind next).map counts = (first.bind other).map counts := by
  cases first with
  | error error => rfl
  | ok a => exact same a

def Configuration.unlevelled (configuration : Configuration) : Configuration :=
  { configuration with loggingThreshold := none }

/-- An element as a node of its parent. -/
def Xml.Element.node (element : Xml.Element) : Xml.Node :=
  .element element.name element.attributes element.children

theorem Xml.Element.node_injective : Function.Injective Xml.Element.node := by
  rintro ⟨name, attributes, children⟩ ⟨other, others, rest⟩ same
  cases same
  rfl

namespace Document

open Xml (Element Node)

def Parameters.unlevelled (parameters : Parameters) : Parameters :=
  { parameters with loggingThreshold := none }

/-- An element that gives a level of the run log, or leaves it open. -/
structure IsLevel (element : Element) : Prop where
  name : element.name = ParameterPlace.threshold.name
  valid : ∃ threshold, readThreshold element = .ok threshold

/-- One change of a level among the nodes of parameters. -/
inductive LevelChange : List Node → List Node → Prop where
  | replace (before : List Node) {level other : Element} (isLevel : IsLevel level)
      (isOther : IsLevel other) (after : List Node) :
      LevelChange (before ++ level.node :: after) (before ++ other.node :: after)
  | insert (before : List Node) {level : Element} (isLevel : IsLevel level) (after : List Node)
      (first : before.filterMap Node.element? = [])
      (single : ∀ element ∈ after.filterMap Node.element?,
        element.name ≠ ParameterPlace.threshold.name) :
      LevelChange (before ++ after) (before ++ level.node :: after)

/-- One change of a level in some section of a document. -/
inductive Relevels : Element → Element → Prop where
  | inside (name : String) (attributes sectionAttributes parameterAttributes : List Xml.Attribute)
      (before first : List Node) {nodes changed : List Node} (change : LevelChange nodes changed)
      (last after : List Node) :
      Relevels
        ⟨name, attributes, before ++ .element sectionName sectionAttributes
          (first ++ .element "parameters" parameterAttributes nodes :: last) :: after⟩
        ⟨name, attributes, before ++ .element sectionName sectionAttributes
          (first ++ .element "parameters" parameterAttributes changed :: last) :: after⟩

/-- What reading two files gave is the same, or two documents that differ in their levels alone. -/
inductive SameButLevels : Except SystemError String → Except SystemError String → Prop where
  | same (contents : Except SystemError String) : SameButLevels contents contents
  | relevelled {text other : String} {root changed : Element} (tree : Xml.read text = .ok root)
      (otherTree : Xml.read other = .ok changed)
      (changes : Relation.EqvGen Relevels root changed) :
      SameButLevels (.ok text) (.ok other)

theorem elements_around (before after : List Node) (element : Element) :
    (before ++ element.node :: after).filterMap Node.element? =
      before.filterMap Node.element? ++ element :: after.filterMap Node.element? := by
  rw [List.filterMap_append, List.filterMap_cons]
  rfl

/-! Parameters. -/

theorem unlevelled_read (place : ParameterPlace) (element : Element) {before other : Parameters}
    (same : before.unlevelled = other.unlevelled) :
    (place.read before element).map Parameters.unlevelled =
      (place.read other element).map Parameters.unlevelled := by
  obtain ⟨_, pose, region, tags⟩ := before
  obtain ⟨_, otherPose, otherRegion, otherTags⟩ := other
  injection same with _ samePose sameRegion sameTags
  subst samePose sameRegion sameTags
  cases place <;> exact map_bind_congr_right fun _ => rfl

theorem unlevelled_readPlaces (places : List ParameterPlace) (elements : List Element)
    {before other : Parameters} (same : before.unlevelled = other.unlevelled) :
    (readPlaces places elements before).map Parameters.unlevelled =
      (readPlaces places elements other).map Parameters.unlevelled := by
  induction places generalizing elements before other with
  | nil =>
      cases elements with
      | nil => exact congrArg Except.ok same
      | cons => rfl
  | cons place places inductionHypothesis =>
      cases elements with
      | nil => exact congrArg Except.ok same
      | cons element rest =>
          rw [readPlaces, readPlaces]
          split
          · exact map_bind_congr (unlevelled_read place element same) fun _ _ =>
              inductionHypothesis rest
          · exact inductionHypothesis (element :: rest) same

theorem exists_read_of_isLevel {level : Element} (isLevel : IsLevel level) (before : Parameters) :
    ∃ after, ParameterPlace.threshold.read before level = .ok after ∧
      after.unlevelled = before.unlevelled := by
  obtain ⟨threshold, given⟩ := isLevel.valid
  refine ⟨{ before with loggingThreshold := threshold }, ?_, rfl⟩
  rw [ParameterPlace.read, given]
  rfl

/-- A level that is read has no effect on the rest, nor on what is wrong with it. -/
theorem unlevelled_readPlaces_level {level : Element} (isLevel : IsLevel level)
    (places : List ParameterPlace) (rest : List Element) (before : Parameters) :
    (readPlaces (.threshold :: places) (level :: rest) before).map Parameters.unlevelled =
      (readPlaces places rest before).map Parameters.unlevelled := by
  obtain ⟨after, given, same⟩ := exists_read_of_isLevel isLevel before
  rw [readPlaces, if_pos isLevel.name, given]
  exact unlevelled_readPlaces places rest same

theorem unlevelled_readPlaces_replace {level other : Element} (isLevel : IsLevel level)
    (isOther : IsLevel other) (places : List ParameterPlace) (front rest : List Element)
    (before : Parameters) :
    (readPlaces places (front ++ level :: rest) before).map Parameters.unlevelled =
      (readPlaces places (front ++ other :: rest) before).map Parameters.unlevelled := by
  induction places generalizing front before with
  | nil =>
      cases front with
      | nil =>
          rw [List.nil_append, List.nil_append, readPlaces, readPlaces, isLevel.name, isOther.name]
      | cons => rfl
  | cons place places inductionHypothesis =>
      cases front with
      | nil =>
          by_cases isThreshold : place = .threshold
          · subst isThreshold
            exact (unlevelled_readPlaces_level isLevel places rest before).trans
              (unlevelled_readPlaces_level isOther places rest before).symm
          · have elsewhere : ¬ParameterPlace.threshold.name = place.name := fun same =>
              isThreshold (ParameterPlace.name_injective same).symm
            simp only [List.nil_append, readPlaces, isLevel.name, isOther.name, if_neg elsewhere]
            exact inductionHypothesis [] before
      | cons element front =>
          simp only [List.cons_append, readPlaces]
          split
          · exact map_bind_congr_right fun _ => inductionHypothesis front _
          · exact inductionHypothesis (element :: front) before

theorem unlevelled_readPlaces_insert {level : Element} (isLevel : IsLevel level)
    {elements : List Element}
    (single : ∀ element ∈ elements, element.name ≠ ParameterPlace.threshold.name) :
    (readPlaces ParameterPlace.all elements .initial).map Parameters.unlevelled =
      (readPlaces ParameterPlace.all (level :: elements) .initial).map Parameters.unlevelled := by
  refine .trans ?_ (unlevelled_readPlaces_level isLevel _ elements .initial).symm
  cases elements with
  | nil => rfl
  | cons element rest => rw [ParameterPlace.all, readPlaces, if_neg (single element (by simp))]

theorem unlevelled_readParameters {name : String} {attributes : List Xml.Attribute}
    {nodes changed : List Node} (change : LevelChange nodes changed) :
    (readParameters ⟨name, attributes, nodes⟩).map Parameters.unlevelled =
      (readParameters ⟨name, attributes, changed⟩).map Parameters.unlevelled := by
  unfold readParameters Element.elements
  cases change with
  | replace before isLevel isOther after =>
      rw [elements_around, elements_around]
      exact unlevelled_readPlaces_replace isLevel isOther _ _ _ _
  | insert before isLevel after first single =>
      rw [elements_around, List.filterMap_append, first]
      exact unlevelled_readPlaces_insert isLevel single

/-! Sections. -/

/-- The second of two parts, by what it gives up to the level of the first. -/
theorem unlevelled_readSection {candidate rival : Element}
    (parameters : (parametersOf (firstPart candidate)).map Parameters.unlevelled =
      (parametersOf (firstPart rival)).map Parameters.unlevelled)
    (actions : actionsPart candidate = actionsPart rival) :
    (readSection candidate).map Configuration.unlevelled =
      (readSection rival).map Configuration.unlevelled := by
  rw [readSection_eq, readSection_eq, actions]
  refine map_bind_congr parameters fun first second same => ?_
  obtain ⟨_, pose, region, tags⟩ := first
  obtain ⟨_, otherPose, otherRegion, otherTags⟩ := second
  injection same with _ samePose sameRegion sameTags
  subst samePose sameRegion sameTags
  exact map_bind_congr_right fun _ => rfl

theorem unlevelled_readSection_inside {name : String}
    {attributes parameterAttributes : List Xml.Attribute} {nodes changed : List Node}
    (change : LevelChange nodes changed) (first last : List Node) :
    (readSection ⟨name, attributes,
      first ++ .element "parameters" parameterAttributes nodes :: last⟩).map
        Configuration.unlevelled =
      (readSection ⟨name, attributes,
        first ++ .element "parameters" parameterAttributes changed :: last⟩).map
          Configuration.unlevelled := by
  have around (nodes : List Node) :
      (⟨name, attributes, first ++ .element "parameters" parameterAttributes nodes :: last⟩ :
        Element).elements = first.filterMap Node.element? ++
          ⟨"parameters", parameterAttributes, nodes⟩ :: last.filterMap Node.element? :=
    elements_around first last ⟨"parameters", parameterAttributes, nodes⟩
  apply unlevelled_readSection
  · rw [firstPart, firstPart, around, around]
    cases first.filterMap Node.element? with
    | nil => exact unlevelled_readParameters change
    | cons => rfl
  · rw [actionsPart, actionsPart, around, around, List.find?_append, List.find?_append]
    rfl

/-! Documents. -/

theorem unlevelled_ofRoot {root other : Element} (relevels : Relevels root other)
    (selector : String) :
    (ofRoot root selector).map Configuration.unlevelled =
      (ofRoot other selector).map Configuration.unlevelled := by
  obtain ⟨name, attributes, sectionAttributes, parameterAttributes, before, first, change, last,
    after⟩ := relevels
  have around (children : List Node) :
      (⟨name, attributes, before ++ .element sectionName sectionAttributes children :: after⟩ :
        Element).elements = before.filterMap Node.element? ++
          ⟨sectionName, sectionAttributes, children⟩ :: after.filterMap Node.element? :=
    elements_around before after ⟨sectionName, sectionAttributes, children⟩
  rw [ofRoot, ofRoot]
  split
  · rw [section?, section?, around, around, List.find?_append, List.find?_append]
    cases (before.filterMap Node.element?).find? fun element =>
        element.name == sectionName && element.attribute? "id" == some selector with
    | some earlier => rfl
    | none =>
        have asked (children : List Node) :
            (⟨sectionName, sectionAttributes, children⟩ : Element).attribute? "id" =
              (⟨sectionName, sectionAttributes, []⟩ : Element).attribute? "id" := rfl
        simp only [Option.none_or, List.find?_cons, asked]
        cases sectionName == sectionName &&
            (⟨sectionName, sectionAttributes, []⟩ : Element).attribute? "id" == some selector with
        | true => exact unlevelled_readSection_inside change first last
        | false => rfl
  · rfl

theorem unlevelled_ofFile {contents others : Except SystemError String}
    (same : SameButLevels contents others) (path selector : String) :
    (ofFile path contents selector).map Configuration.unlevelled =
      (ofFile path others selector).map Configuration.unlevelled := by
  cases same with
  | same => rfl
  | relevelled tree otherTree changes =>
      rw [ofFile, ofFile, read, read, tree, otherTree]
      clear tree otherTree
      induction changes with
      | rel _ _ relevels => exact unlevelled_ofRoot relevels selector
      | refl => rfl
      | symm _ _ _ inductionHypothesis => exact inductionHypothesis.symm
      | trans _ _ _ _ _ first second => exact first.trans second

/-! Trees that are the same, compared part by part. -/

mutual

def sameNode : Node → Node → Bool
  | .element name attributes children, .element other others rest =>
      name == other && attributes == others && sameNodes children rest
  | .text content, .text other => content == other
  | .comment content, .comment other => content == other
  | .instruction content, .instruction other => content == other
  | _, _ => false

def sameNodes : List Node → List Node → Bool
  | [], [] => true
  | node :: nodes, other :: others => sameNode node other && sameNodes nodes others
  | _, _ => false

end

mutual

theorem eq_of_sameNode : (node other : Node) → sameNode node other = true → node = other
  | .element name attributes children, other, same => by
      cases other with
      | element otherName others rest =>
          simp only [sameNode, Bool.and_eq_true, beq_iff_eq] at same
          rw [same.1.1, same.1.2, eq_of_sameNodes children rest same.2]
      | _ => cases same
  | .text content, other, same => by
      cases other with
      | text other => rw [eq_of_beq (show (content == other) = true from same)]
      | _ => cases same
  | .comment content, other, same => by
      cases other with
      | comment other => rw [eq_of_beq (show (content == other) = true from same)]
      | _ => cases same
  | .instruction content, other, same => by
      cases other with
      | instruction other => rw [eq_of_beq (show (content == other) = true from same)]
      | _ => cases same

theorem eq_of_sameNodes : (nodes others : List Node) → sameNodes nodes others = true →
    nodes = others
  | [], others, same => by
      cases others with
      | nil => rfl
      | cons => cases same
  | node :: nodes, others, same => by
      cases others with
      | nil => cases same
      | cons other others =>
          obtain ⟨first, rest⟩ := Bool.and_eq_true_iff.mp same
          rw [eq_of_sameNode node other first, eq_of_sameNodes nodes others rest]

end

theorem read_of_same {text : String} {expected : Element}
    (same : ((Xml.read text).toOption.any fun root => sameNode root.node expected.node) = true) :
    Xml.read text = .ok expected := by
  cases tree : Xml.read text with
  | error =>
      rw [tree] at same
      cases same
  | ok root =>
      rw [tree] at same
      rw [Xml.Element.node_injective (eq_of_sameNode _ _ same)]

/-! Two levels. -/

def levelElement (level : String) : Element :=
  ⟨ParameterPlace.threshold.name, [], [.text level]⟩

/-- A document whose only section sets a level. -/
def levelRoot (level : String) : Element :=
  ⟨rootName, [], [.element sectionName [⟨none, "id", "T"⟩]
    [.element "parameters" [] [(levelElement level).node], .element "actions" [] []]]⟩

def levelDocument (level : String) : String :=
  "<RobotAction><OpMode id='T'><parameters><lowest_logging_level>" ++ level ++
    "</lowest_logging_level></parameters><actions/></OpMode></RobotAction>"

theorem sameButLevels_levelDocument :
    SameButLevels (.ok (levelDocument "d")) (.ok (levelDocument "vv")) := by
  have tree : Xml.read (levelDocument "d") = .ok (levelRoot "d") :=
    read_of_same (by decide +kernel)
  have otherTree : Xml.read (levelDocument "vv") = .ok (levelRoot "vv") :=
    read_of_same (by decide +kernel)
  have isLevel : IsLevel (levelElement "d") := ⟨rfl, some .debug, by decide +kernel⟩
  have isOther : IsLevel (levelElement "vv") := ⟨rfl, some .veryVerbose, by decide +kernel⟩
  have change := LevelChange.replace [] isLevel isOther []
  have relevels := Relevels.inside rootName [] [⟨none, "id", "T"⟩] [] [] [] change
    [.element "actions" [] []] []
  exact .relevelled tree otherTree (.rel _ _ relevels)

end Document

end RobotRoutine
