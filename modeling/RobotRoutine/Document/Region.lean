import RobotRoutine.Configuration
import RobotRoutine.Document.Field

/-!
Regions of the camera picture in an action document.

A region is given by its corner and its size; the size must not be negative.
-/

namespace RobotRoutine.Document

open Xml (Element)

def requireExtent (name : String) (extent : Int) : Except DocumentError Unit :=
  if extent < 0 then .error (.invalidValue name (toString extent)) else .ok ()

def readRegion (element : Element) : Except DocumentError Region := do
  let fields := element.elements
  let x ← readInteger "x" fields[0]?
  let y ← readInteger "y" fields[1]?
  let width ← readInteger "width" fields[2]?
  let height ← readInteger "height" fields[3]?
  requireExtent "width" width
  requireExtent "height" height
  pure { x, y, width, height }

end RobotRoutine.Document
