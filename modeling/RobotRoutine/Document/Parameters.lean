import RobotRoutine.Document.Region
import RobotRoutine.Number.Decimal

/-!
The parameters of a section.

The parameters come in a fixed order and each may be left out.  The reader walks over the places of
that order and over the elements together: an element is read at the place that bears its name, and
one that finds no place any more is out of order, repeated or unknown.
-/

namespace RobotRoutine.Document

open Xml (Element)

structure Parameters where
  loggingThreshold : Option LogThreshold
  startingPose : Option Pose
  regionOfInterest : Region
  tagsOfInterest : List TagId
  deriving DecidableEq

def Parameters.initial : Parameters := ⟨none, none, Region.empty, []⟩

/-- The threshold of the run log; a blank element leaves it open. -/
def readThreshold (element : Element) : Except DocumentError (Option LogThreshold) :=
  let text := fieldText element
  if text = "" then .ok none
  else
    match LogThreshold.ofCode? text with
    | some threshold => .ok (some threshold)
    | none => .error (.invalidValue "lowest_logging_level" text)

def readPose (element : Element) : Except DocumentError Pose := do
  let fields := element.elements
  let x ← readField Number.decimal? "x" fields[0]?
  let y ← readField Number.decimal? "y" fields[1]?
  let heading ← readField Number.decimal? "angle" fields[2]?
  pure { x, y, heading }

def addTag (tags : List TagId) (tag : TagId) : List TagId :=
  if tag ∈ tags then tags else tags ++ [tag]

def readTagsOnto (known : List TagId) : List Element → Except DocumentError (List TagId)
  | [] => .ok known
  | element :: rest =>
      match TagId.ofName? element.name with
      | some tag => readTagsOnto (addTag known tag) rest
      | none => .error (.unknownName "vumark" element.name)

/-- The tags that an element names, each once, in the order of first appearance. -/
def readTags (element : Element) : Except DocumentError (List TagId) :=
  readTagsOnto [] element.elements

inductive ParameterPlace where
  | threshold
  | pose
  | region
  | tags
  deriving DecidableEq, Repr

namespace ParameterPlace

def all : List ParameterPlace := [threshold, pose, region, tags]

def name : ParameterPlace → String
  | threshold => "lowest_logging_level"
  | pose => "starting_position"
  | region => "image_roi"
  | tags => "vumarks"

def read (parameters : Parameters) (element : Element) :
    ParameterPlace → Except DocumentError Parameters
  | threshold => do
      let loggingThreshold ← readThreshold element
      pure { parameters with loggingThreshold }
  | pose => do
      let pose ← readPose element
      pure { parameters with startingPose := some pose }
  | region => do
      let regionOfInterest ← readRegion element
      pure { parameters with regionOfInterest }
  | tags => do
      let tagsOfInterest ← readTags element
      pure { parameters with tagsOfInterest }

end ParameterPlace

def readPlaces : List ParameterPlace → List Element → Parameters → Except DocumentError Parameters
  | _, [], parameters => .ok parameters
  | [], element :: _, _ => .error (.unexpectedElement "parameters" element.name)
  | place :: places, element :: rest, parameters =>
      if element.name = place.name then do
        let parameters ← place.read parameters element
        readPlaces places rest parameters
      else readPlaces places (element :: rest) parameters

def readParameters (element : Element) : Except DocumentError Parameters :=
  readPlaces ParameterPlace.all element.elements Parameters.initial

end RobotRoutine.Document
