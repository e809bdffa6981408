import RobotRoutine.Failure.SystemError
import RobotRoutine.Xml.Malformed

/-!
Failures and their chains of causes.

A failure may wrap another one: a context text, a device failure, a failed classification.  Its
chain lists a text for each link, the outermost first, and its message is the whole chain in one
line.
-/

namespace RobotRoutine

inductive DocumentError where
  | unreadable (path : String) (cause : SystemError)
  | notWellFormed (cause : Xml.Malformed Xml.Position)
  | sectionNotFound (selector : String)
  | malformed (detail : String)
  | missingField (field : String)
  | invalidValue (field value : String)
  | unknownName (kind name : String)
  | unexpectedElement (parent element : String)
  | duplicateBranch
  | incompleteBranchTable (found : Nat)
  deriving DecidableEq, Repr

namespace DocumentError

def text : DocumentError → String
  | .unreadable path _ => s!"read action document {path}"
  | .notWellFormed cause => s!"parse action document: {cause.text}"
  | .sectionNotFound selector => s!"missing OpMode '{selector}'"
  | .malformed detail => s!"malformed document: {detail}"
  | .missingField field => s!"element '{field}' missing or empty"
  | .invalidValue field value => s!"invalid value '{value}' in element '{field}'"
  | .unknownName kind name => s!"unknown {kind} '{name}'"
  | .unexpectedElement parent element => s!"unexpected element <{element}> under <{parent}>"
  | .duplicateBranch => "only one OCV_CHOICE element is allowed"
  | .incompleteBranchTable found =>
      s!"OCV_CHOICE must name each target zone exactly once (found {found} zone elements)"

def causes : DocumentError → List String
  | .unreadable _ cause => [cause.text]
  | .notWellFormed cause => [cause.text]
  | _ => []

end DocumentError

def interruptionText : String := "run interrupted by stop request"

mutual

inductive Failure where
  | plain (text : String)
  | context (text : String) (cause : Failure)
  | interrupted
  | tagged (tag text : String)
  | document (error : DocumentError)
  | run (error : RunError)

inductive RunError where
  | unsupportedCommand (name : String)
  | classificationFailed (cause : Failure)
  | invalidValue (command key value : String)
  | missingBranchTable (name : String)
  | device (cause : Failure)
  | interrupted

end

instance : Inhabited Failure := ⟨.interrupted⟩
instance : Inhabited RunError := ⟨.interrupted⟩

def joinChain (texts : List String) : String := ": ".intercalate texts

mutual

def Failure.chain : Failure → List String
  | .plain text => [text]
  | .context text cause => text :: cause.chain
  | .interrupted => [interruptionText]
  | .tagged _ text => [text]
  | .document error => error.text :: error.causes
  | .run error => error.chain

/-- The text of each link of a chain that begins with a run error. -/
def RunError.chain : RunError → List String
  | .unsupportedCommand name => [s!"no support for the command {name}"]
  | .classificationFailed cause =>
      s!"zone classification failed: {joinChain cause.chain}" :: cause.chain
  | .invalidValue command key value =>
      [s!"invalid value '{value}' for attribute '{key}' of {command}"]
  | .missingBranchTable name => [s!"{name} reached without a branch table"]
  | .device cause => s!"device failure: {joinChain cause.chain}" :: cause.chain
  | .interrupted => [interruptionText]

end

def Failure.message (failure : Failure) : String := joinChain failure.chain

def RunError.text (error : RunError) : String := error.chain.headD ""

mutual

def Failure.hasInterruption : Failure → Bool
  | .interrupted => true
  | .context _ cause => cause.hasInterruption
  | .run error => error.hasInterruption
  | .plain _ => false
  | .tagged _ _ => false
  | .document _ => false

/-- True if the stop request itself is among the links below a run error. -/
def RunError.hasInterruption : RunError → Bool
  | .classificationFailed cause => cause.hasInterruption
  | .device cause => cause.hasInterruption
  | .unsupportedCommand _ => false
  | .invalidValue _ _ _ => false
  | .missingBranchTable _ => false
  | .interrupted => false

end

/-- The error of a run whose device failed: a stop request in the chain interrupts the run. -/
def RunError.ofDevice (cause : Failure) : RunError :=
  if cause.hasInterruption then .interrupted else .device cause

/-- The error of a run whose classifier failed: a stop request in the chain interrupts the run. -/
def RunError.ofClassifier (cause : Failure) : RunError :=
  if cause.hasInterruption then .interrupted else .classificationFailed cause

end RobotRoutine
