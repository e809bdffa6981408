import RobotRoutine.Failure.Basic

/-!
What a failure means for the run that it ended.

A chain is walked from its outermost link.  The stop request itself is a cancellation wherever it
stands.  A run that reports that it was stopped is one too, unless a link above it names a
subsystem: then that subsystem failed, whatever the reason.  Otherwise the outermost link that names
a subsystem decides; a device failure names none, its cause may.
-/

namespace RobotRoutine

inductive Fault where
  | cancellation
  | domain (tag message : String)
  /-- Anything else. -/
  | unclassified (message : String)
  deriving DecidableEq, Repr

def Fault.message? : Fault → Option String
  | .cancellation => none
  | .domain _ message => some message
  | .unclassified message => some message

inductive LinkKind where
  | silent
  /-- The stop request itself. -/
  | stopRequest
  /-- A run that ended because of a stop request. -/
  | stoppedRun
  | subsystem (tag : String)
  deriving DecidableEq, Repr

def documentTag : String := "RunConfig"

/-- The tag of failures of the dispatcher, and of its records in the run log. -/
def dispatchTag : String := "Dispatcher"

mutual

def Failure.links : Failure → List LinkKind
  | .plain _ => [.silent]
  | .context _ cause => .silent :: cause.links
  | .interrupted => [.stopRequest]
  | .tagged tag _ => [.subsystem tag]
  | .document error => .subsystem documentTag :: error.causes.map fun _ => .silent
  | .run error => error.links

def RunError.links : RunError → List LinkKind
  | .interrupted => [.stoppedRun]
  | .device cause => .silent :: cause.links
  | .classificationFailed cause => .subsystem dispatchTag :: cause.links
  | .unsupportedCommand _ => [.subsystem dispatchTag]
  | .invalidValue _ _ _ => [.subsystem dispatchTag]
  | .missingBranchTable _ => [.subsystem dispatchTag]

end

/-- The fault behind a chain with this message, given the subsystem that the links before these have
named. -/
def Fault.ofLinks (message : String) : Option String → List LinkKind → Fault
  | some tag, [] => .domain tag message
  | none, [] => .unclassified message
  | _, .stopRequest :: _ => .cancellation
  | none, .stoppedRun :: _ => .cancellation
  | none, .subsystem tag :: rest => Fault.ofLinks message (some tag) rest
  | none, .silent :: rest => Fault.ofLinks message none rest
  | some tag, _ :: rest => Fault.ofLinks message (some tag) rest

def Failure.fault (failure : Failure) : Fault :=
  Fault.ofLinks failure.message none failure.links

end RobotRoutine
