import RobotRoutine.Proofs.Document.Levels
import RobotRoutine.Proofs.Files.Footprint
import RobotRoutine.Proofs.Files.Trail
import RobotRoutine.Proofs.Program.Obliging
import RobotRoutine.Proofs.Run.Calls
import RobotRoutine.Proofs.Run.Escape
import RobotRoutine.Proofs.Run.Startup

/-!
A run whatever becomes of its log.

A robot, its display, its operator and a clock of any kind answer beside a host, which keeps the
files and the log.  Of the host a run asks the time, and the text of the document once; all other
calls are made for the log and tell nothing.  So beside two hosts with the same document a run goes
the same way, if reading the document does not meet what the log has changed before.
-/

namespace RobotRoutine

open Program (Event)

/-- The time that a call of the host is asked to take. -/
def HostCall.asked : HostCall → Duration
  | .pause duration => duration
  | _ => .zero

/-- All that is outside of a host: who answers the calls of a robot, and the course of time. -/
structure Outside (σ : Type) where
  robot : (call : RobotCall) → σ → call.Reply × σ
  clock : σ → Duration
  /-- What a call of the host that is asked to take some time leaves behind. -/
  elapse : Duration → σ → σ

namespace Outside

variable {σ α : Type} {outside : Outside σ}

/-- The answers to the calls of a run beside a host. -/
def answer (outside : Outside σ) : (request : Call) → Host × σ → request.Reply × (Host × σ)
  | .robot call, (host, world) =>
      let (reply, world) := outside.robot call world
      (reply, host, world)
  | .host call, (host, world) =>
      let (reply, host) := (host.atTime (outside.clock world)).answer call
      (reply, host, outside.elapse call.asked world)

theorem exec_host (outside : Outside σ) {call : HostCall} (next : call.Reply → Program α)
    (host : Host) (world : σ) :
    (Program.call (.host call) next).exec outside.answer (host, world) =
      (next ((host.atTime (outside.clock world)).answer call).1).exec outside.answer
        (((host.atTime (outside.clock world)).answer call).2, outside.elapse call.asked world) :=
  rfl

/-- Two programs beside two hosts: they end in the same way, have asked the same of the robot and
leave the same behind outside. -/
structure Alike (outside : Outside σ) (program twin : Program α) (host other : Host) (world : σ) :
    Prop where
  result : (program.exec outside.answer (host, world)).1 =
    (twin.exec outside.answer (other, world)).1
  calls : (program.events outside.answer (host, world)).filterMap robotCall? =
    (twin.events outside.answer (other, world)).filterMap robotCall?
  left : (program.exec outside.answer (host, world)).2.2 =
    (twin.exec outside.answer (other, world)).2.2

variable {host other : Host} {world : σ}

theorem alike_robot {call : RobotCall} {next goesOn : call.Reply → Program α}
    (alike : outside.Alike (next (outside.robot call world).1) (goesOn (outside.robot call world).1)
      host other (outside.robot call world).2) :
    outside.Alike (.call (.robot call) next) (.call (.robot call) goesOn) host other world where
  result := alike.result
  calls := congrArg (call :: ·) alike.calls
  left := alike.left

theorem alike_host {call twin : HostCall} {next : call.Reply → Program α}
    {goesOn : twin.Reply → Program α} (asked : call.asked = twin.asked)
    (alike :
      let given := (host.atTime (outside.clock world)).answer call
      let givenToo := (other.atTime (outside.clock world)).answer twin
      outside.Alike (next given.1) (goesOn givenToo.1) given.2 givenToo.2
        (outside.elapse call.asked world)) :
    outside.Alike (.call (.host call) next) (.call (.host twin) goesOn) host other world := by
  have later : outside.elapse twin.asked world = outside.elapse call.asked world := by rw [asked]
  constructor
  · simp only [Program.exec, answer, later]
    exact alike.result
  · simp only [Program.events, answer, later]
    exact alike.calls
  · simp only [Program.exec, answer, later]
    exact alike.left

/-- The calls that a host answers alike whatever its files and its log are. -/
def Blind : Call → Prop
  | .robot _ => True
  | .host .now => True
  | .host (.pause _) => True
  | .host (.openLog _ _) => True
  | .host (.record _ _ _) => True
  | .host (.setThreshold _) => True
  | .host .closeLog => True
  | _ => False

theorem alike_of_keeps {program : Program α} {results : α → Prop}
    (keeps : program.Keeps anyReply Blind results) (host other : Host) (world : σ) :
    outside.Alike program program host other world := by
  induction program generalizing host other world with
  | done a => exact ⟨rfl, rfl, rfl⟩
  | call request next inductionHypothesis =>
      have goesOn (reply : request.Reply) := inductionHypothesis reply (keeps.2 reply trivial)
      cases request with
      | robot call => exact alike_robot (goesOn _ _ _ _)
      | host call =>
          refine alike_host rfl ?_
          cases call with
          | now => exact goesOn _ _ _ _
          | pause duration => exact goesOn _ _ _ _
          | openLog directory selector => exact goesOn _ _ _ _
          | record level tag text => exact goesOn _ _ _ _
          | setThreshold threshold => exact goesOn _ _ _ _
          | closeLog => exact goesOn _ _ _ _
          | _ => exact keeps.1.elim

end Outside

/-! What a run asks of its host, apart from the document. -/

/-- A task may end in any way, but is blind to the files and the log. -/
def blindEffects (ε : Type) : Effects ε where
  calls := Outside.Blind
  errors _ := True
  waits := True
  halts := True

namespace ContainmentContext

variable {context : ContainmentContext}

theorem blind_of_findingCall {call : Call} (finding : FindingCall call) : Outside.Blind call := by
  cases call with
  | robot call => trivial
  | host call => cases call <;> trivial

theorem within_contain (stop : Outcome Failure Unit) :
    (context.contain stop).Within (blindEffects Empty) := by
  obtain ⟨finding, same, within⟩ := context.exists_contain_eq stop
  rw [same]
  refine Task.within_bind
    (Task.within_mono within (fun _ => blind_of_findingCall) (fun _ => id) id id) ?_
  intro containment
  refine Task.within_bind (Task.within_host trivial) fun _ => ?_
  refine Task.within_bind ⟨trivial, ?_⟩ fun _ => Task.within_result _
  rintro (_ | _ | _) _ <;> trivial

theorem keeps_guard {body : Task Failure Unit} (within : body.Within (blindEffects Failure)) :
    (context.guard body).Keeps anyReply Outside.Blind fun _ => True :=
  Program.Keeps.bind within fun stop _ =>
    (within_contain stop).mono (fun _ => id) fun _ _ => trivial

end ContainmentContext

namespace Autonomous

variable {request : AutonomousRequest} {patience : Nat}

/-- What follows when the configuration has been loaded and its threshold set. -/
def proceed (request : AutonomousRequest) (patience : Nat) (configuration : Configuration) :
    Task Failure Unit := do
  Task.record .debug autonomousTag
    s!"Loaded {configuration.actions.length} actions from {request.settings.documentPath}"
  let driveChannel ← initializeDrive request.settings.drive
  announce "Waiting for start ..."
  Task.waitForStart id
  announce "Running ..."
  let _ ← dispatch
    { tag := request.selector
      alliance := request.alliance
      driveChannel
      drive := request.settings.drive
      timing := request.settings.timing
      patience } configuration
  pure ()

/-- What follows when the document has been read. -/
def proceedFrom (request : AutonomousRequest) (patience : Nat)
    (contents : Except SystemError String) : Task Failure Unit := do
  let configuration ← Task.ofExcept
    ((Document.ofFile request.settings.documentPath contents request.selector).mapError fun error =>
      Failure.context s!"load run '{request.selector}'" (.document error))
  Task.setThreshold configuration.loggingThreshold
  proceed request patience configuration

theorem within_answered {α : Type} {toError : Failure → Failure} (answer : Answer α) :
    (Task.ofAnswer toError answer).Within (blindEffects Failure) :=
  Task.within_ofAnswer (fun _ => trivial) answer

theorem within_initializeDrive (drive : DriveSettings) :
    (initializeDrive drive).Within (blindEffects Failure) := by
  refine Task.within_bind ⟨trivial, fun answer _ => within_answered answer⟩ fun channel => ?_
  refine Task.within_bind (Task.within_setPower trivial fun _ => trivial) fun _ => ?_
  refine Task.within_bind ⟨trivial, fun answer _ => within_answered answer⟩ fun _ => ?_
  refine Task.within_bind ⟨trivial, fun answer _ => within_answered answer⟩ fun _ => ?_
  exact Task.within_result channel

theorem within_announce (phase : String) : (announce phase).Within (blindEffects Failure) := by
  refine Task.within_bind (Task.within_addItem trivial) fun _ => ?_
  refine Task.within_bind (Task.within_refresh trivial fun _ => trivial) fun _ => ?_
  exact Task.within_host trivial

theorem within_dispatch (context : DispatchContext) (configuration : Configuration) :
    (dispatch context configuration).Within (blindEffects Failure) := by
  have blind (call : Call) (makes : context.Makes call) : Outside.Blind call := by
    cases call with
    | robot call => trivial
    | host call => cases call <;> trivial
  have runs := (DispatchContext.within_run context configuration .fresh).mono blind
    fun _ _ => trivial
  have reports : Program.Keeps anyReply Outside.Blind (fun _ => True)
      (Program.bind (context.run configuration .fresh) fun ending => .done ending.1) :=
    runs.bind fun _ _ => trivial
  refine reports.bind ?_
  intro stop _
  cases stop <;> trivial

theorem within_proceed (request : AutonomousRequest) (patience : Nat)
    (configuration : Configuration) :
    (proceed request patience configuration).Within (blindEffects Failure) := by
  refine Task.within_bind (Task.within_host trivial) fun _ => ?_
  refine Task.within_bind (within_initializeDrive _) fun channel => ?_
  refine Task.within_bind (within_announce _) fun _ => ?_
  refine Task.within_bind ⟨trivial, fun answer _ => within_answered answer⟩ fun _ => ?_
  refine Task.within_bind (within_announce _) fun _ => ?_
  exact Task.within_bind (within_dispatch _ configuration) fun _ => Task.within_result _

end Autonomous

/-! The threshold of a configuration is for its log alone. -/

namespace DispatchContext

variable {context : DispatchContext} {configuration : Configuration}

theorem runBranch_unlevelled (levels : Nat) :
    context.runBranch configuration.unlevelled levels = context.runBranch configuration levels := by
  induction levels with
  | zero => rfl
  | succ levels inductionHypothesis => rw [runBranch, inductionHypothesis, runBranch]; rfl

theorem run_unlevelled : context.run configuration.unlevelled = context.run configuration := by
  have acts : context.runActions configuration.unlevelled = context.runActions configuration :=
    congrArg (fun branch => context.runSteps branch configuration.actions)
      (runBranch_unlevelled (context.patience + 1))
  rw [run, acts, run]

end DispatchContext

namespace Autonomous

variable {request : AutonomousRequest} {patience : Nat}

theorem proceed_unlevelled (request : AutonomousRequest) (patience : Nat)
    (configuration : Configuration) :
    proceed request patience configuration.unlevelled = proceed request patience configuration := by
  have dispatched (context : DispatchContext) :
      dispatch context configuration.unlevelled = dispatch context configuration := by
    rw [dispatch, DispatchContext.run_unlevelled, dispatch]
  simp only [proceed, dispatched]
  rfl

theorem run_opens :
    run request patience =
      .call (.host (.openLog request.settings.logDirectory request.selector)) fun _ =>
        .call (.host (.record .info autonomousTag "Initializing")) fun _ =>
          (around request patience).guard
            ((Task.ofExcept (checkAlliance request.alliance)).bind fun _ =>
              (Task.tryReadText request.settings.documentPath).bind
                (proceedFrom request patience)) := rfl

/-- A run of a known alliance reads its document once, behind the first record of its log. -/
theorem run_eq (known : checkAlliance request.alliance = .ok ()) :
    run request patience =
      .call (.host (.openLog request.settings.logDirectory request.selector)) fun _ =>
        .call (.host (.record .info autonomousTag "Initializing")) fun _ =>
          .call (.host (.readText request.settings.documentPath)) fun contents =>
            (around request patience).guard (proceedFrom request patience contents) := by
  rw [run_opens, known]
  rfl

theorem run_of_unknown {failure : Failure}
    (unknown : checkAlliance request.alliance = .error failure) :
    run request patience =
      .call (.host (.openLog request.settings.logDirectory request.selector)) fun _ =>
        .call (.host (.record .info autonomousTag "Initializing")) fun _ =>
          (around request patience).guard (Task.throw failure) := by
  rw [run_opens, unknown]
  rfl

/-- The document of a request is apart from its log, on a host where no log is open yet: to read it
is to look at no place that the log takes. -/
structure KeepsApart (request : AutonomousRequest) (host : Host) : Prop where
  closed : host.log.writer = none
  apart : ∀ location ∈ host.files.trail request.settings.documentPath,
    ¬RunLog.Takes host.files request.settings.logDirectory request.selector location

/-- What the document gives once the log has been opened and written to is what it gave before. -/
theorem readText_of_keepsApart {host : Host} (keepsApart : KeepsApart request host)
    (opening recording reading : Duration) (level : LogLevel) (tag text : String) :
    let opened := ((host.atTime opening).answer
      (.openLog request.settings.logDirectory request.selector)).2
    let recorded := ((opened.atTime recording).answer (.record level tag text)).2
    ((recorded.atTime reading).answer (.readText request.settings.documentPath)).1 =
      host.files.readText request.settings.documentPath := by
  have closed : (host.atTime opening).log.writer = none := keepsApart.closed
  have changed := Host.sameBut_record_openLog closed request.settings.logDirectory request.selector
    recording level tag text
  simp only [Host.reply_readText, Host.files_atTime, Host.files_answer_record, Host.log_atTime,
    Host.answer_openLog]
  exact FileSystem.readText_of_sameOnTrail
    ⟨changed.workingDirectory, fun looked onTrail =>
      changed.entries looked (keepsApart.apart looked onTrail)⟩

variable {σ : Type} {outside : Outside σ} {host other : Host} {world : σ}

theorem keeps_guard_throw (context : ContainmentContext) (failure : Failure) :
    (context.guard (Task.throw failure)).Keeps anyReply Outside.Blind fun _ => True :=
  have thrown : (Task.throw failure : Task Failure Unit).Within (blindEffects Failure) := trivial
  ContainmentContext.keeps_guard thrown

theorem alike_proceedFrom {contents others : Except SystemError String}
    (same : Document.SameButLevels contents others) (context : ContainmentContext)
    (host other : Host) (world : σ) :
    outside.Alike (context.guard (proceedFrom request patience contents))
      (context.guard (proceedFrom request patience others)) host other world := by
  have agree := Document.unlevelled_ofFile same request.settings.documentPath request.selector
  unfold proceedFrom
  cases first : Document.ofFile request.settings.documentPath contents request.selector with
  | error error =>
      cases second : Document.ofFile request.settings.documentPath others request.selector with
      | error errorToo =>
          rw [first, second] at agree
          cases agree
          exact Outside.alike_of_keeps (keeps_guard_throw context _) host other world
      | ok =>
          rw [first, second] at agree
          cases agree
  | ok configuration =>
      cases second : Document.ofFile request.settings.documentPath others request.selector with
      | error =>
          rw [first, second] at agree
          cases agree
      | ok rival =>
          rw [first, second] at agree
          injection agree with agree
          refine Outside.alike_host rfl ?_
          have tail : proceed request patience configuration = proceed request patience rival := by
            rw [← proceed_unlevelled, agree, proceed_unlevelled]
          change outside.Alike (context.guard (proceed request patience configuration))
            (context.guard (proceed request patience rival)) _ _ _
          rw [tail]
          exact Outside.alike_of_keeps
            (ContainmentContext.keeps_guard (within_proceed request patience rival)) _ _ _

theorem within_proceedFrom (contents : Except SystemError String) :
    (proceedFrom request patience contents).Within (blindEffects Failure) := by
  refine Task.within_bind (Task.within_ofExcept fun _ _ => trivial) fun configuration => ?_
  exact Task.within_bind (Task.within_host trivial) fun _ => within_proceed request patience _

/-- What the document of a request gives when a run reads it. -/
def contentsRead (outside : Outside σ) (request : AutonomousRequest) (host : Host) (world : σ) :
    Except SystemError String :=
  let opened := ((host.atTime (outside.clock world)).answer
    (.openLog request.settings.logDirectory request.selector)).2
  let later := outside.elapse .zero world
  let recorded := ((opened.atTime (outside.clock later)).answer
    (.record .info autonomousTag "Initializing")).2
  ((recorded.atTime (outside.clock (outside.elapse .zero later))).answer
    (.readText request.settings.documentPath)).1

/-- A document is read from the files with which the log was opened, if the log is not written on
its trail. -/
theorem contentsRead_of_openLog {opened : Host}
    (opens : (host.atTime (outside.clock world)).openLog request.settings.logDirectory
      request.selector = opened)
    (unwritten : ∀ looked ∈ opened.files.trail request.settings.documentPath,
      ¬opened.log.IsFile looked) :
    contentsRead outside request host world =
      opened.files.readText request.settings.documentPath := by
  simp only [contentsRead, Host.reply_readText, Host.files_atTime, Host.files_answer_record,
    Host.log_atTime, Host.answer_openLog, opens]
  have same := RunLog.sameBut_record opened.log opened.files
    (opened.atTime (outside.clock (outside.elapse .zero world))).clock .info autonomousTag
    "Initializing"
  exact FileSystem.readText_of_sameOnTrail
    ⟨same.workingDirectory, fun looked onTrail => same.entries looked (unwritten looked onTrail)⟩

/-- How a run ends is decided by what its document gives when the run reads it. -/
theorem result_run (known : checkAlliance request.alliance = .ok ()) (another : Host) :
    ((run request patience).exec outside.answer (host, world)).1 =
      (((around request patience).guard (proceedFrom request patience
        (contentsRead outside request host world))).exec outside.answer
          (another,
            outside.elapse .zero (outside.elapse .zero (outside.elapse .zero world)))).1 := by
  have keeps (contents : Except SystemError String) :
      ((around request patience).guard (proceedFrom request patience contents)).Keeps anyReply
        Outside.Blind fun _ => True :=
    ContainmentContext.keeps_guard (within_proceedFrom contents)
  rw [run_eq known, Outside.exec_host, Outside.exec_host]
  exact (congrArg Prod.fst (Outside.exec_host outside _ _ _)).trans
    (Outside.alike_of_keeps (keeps _) _ _ _).result

/-- Beside any two hosts of which the request keeps its document apart, with the same document up to
its levels, a run goes the same way. -/
theorem run_alike (keepsApart : KeepsApart request host) (keepsApartToo : KeepsApart request other)
    (same : Document.SameButLevels (host.files.readText request.settings.documentPath)
      (other.files.readText request.settings.documentPath)) :
    outside.Alike (run request patience) (run request patience) host other world := by
  cases checked : checkAlliance request.alliance with
  | error failure =>
      rw [run_of_unknown checked]
      refine Outside.alike_host rfl (Outside.alike_host rfl ?_)
      exact Outside.alike_of_keeps (keeps_guard_throw _ failure) _ _ _
  | ok _ =>
      rw [run_eq checked]
      refine Outside.alike_host rfl (Outside.alike_host rfl (Outside.alike_host rfl ?_))
      apply alike_proceedFrom
      rw [readText_of_keepsApart keepsApart, readText_of_keepsApart keepsApartToo]
      exact same

/-! Hosts that differ in what becomes of the log. -/

deriving instance DecidableEq for Outcome

def obligingOutside : Outside Duration where
  robot call now := (obligingRobot .center call, now + .ofSecs 1)
  clock := id
  elapse pause now := now + pause

def requestFor (documentPath : String) : AutonomousRequest where
  selector := "T"
  alliance := .red
  settings := { Settings.initial with documentPath }

open FileSystem (withDocument withLog refused)

theorem not_takes_document (document : String) :
    ¬RunLog.Takes (withDocument document []) "logs" "T" ["d.xml"] := by
  rintro (isFile | ⟨free, -⟩)
  · rw [RunLog.file?_withDocument] at isFile
    revert isFile
    decide
  · cases free

theorem not_takes_refused (document : String) :
    ¬RunLog.Takes (withDocument document refused) "logs" "T" ["d.xml"] := by
  rintro (isFile | ⟨free, -⟩)
  · cases (RunLog.file?_refused document).symm.trans isFile
  · cases free

theorem keepsApart_of_not_takes {document : String} {faults : List (Option FileFault)}
    (apart : ¬RunLog.Takes (withDocument document faults) "logs" "T" ["d.xml"]) :
    KeepsApart (requestFor "d.xml") (.ofFiles (withDocument document faults)) := by
  refine ⟨rfl, ?_⟩
  intro location onTrail
  change location ∈ (withDocument document faults).trail "d.xml" at onTrail
  rw [FileSystem.trail_document, List.mem_singleton] at onTrail
  subst onTrail
  exact apart

theorem contentsRead_document (document : String) :
    contentsRead obligingOutside (requestFor "d.xml") (.ofFiles (withDocument document [])) .zero =
      .ok document :=
  have keepsApart := keepsApart_of_not_takes (not_takes_document document)
  (readText_of_keepsApart keepsApart _ _ _ _ _ _).trans (FileSystem.readText_document document [])

theorem contentsRead_opened (document : String) :
    contentsRead obligingOutside (requestFor "logs/../d.xml")
      (.ofFiles (withDocument document [])) .zero = .ok document := by
  refine .trans (contentsRead_of_openLog (Host.openLog_withDocument document .zero) ?_)
    (FileSystem.readText_withLog document)
  rintro looked onTrail ⟨_, ⟨⟩, rfl⟩
  change _ ∈ (withLog document).trail "logs/../d.xml" at onTrail
  rw [FileSystem.trail_withLog] at onTrail
  revert onTrail
  decide

theorem contentsRead_refused (document : String) :
    contentsRead obligingOutside (requestFor "logs/../d.xml")
      (.ofFiles (withDocument document refused)) .zero = .error .notFound := by
  refine .trans (contentsRead_of_openLog (Host.openLog_refused document .zero) ?_)
    (FileSystem.readText_behind document [])
  rintro _ _ ⟨_, detached, _⟩
  cases detached

/-- How a run of a request ends on a host with one document and these faults. -/
def ending (documentPath document : String) (faults : List (Option FileFault)) :
    Outcome Empty Containment :=
  ((run (requestFor documentPath) 1).exec obligingOutside.answer
    (.ofFiles (withDocument document faults), .zero)).1

def plainDocument : String :=
  "<RobotAction><OpMode id='T'><parameters/><actions/></OpMode></RobotAction>"

/-- A document that is closed by another tag than it was opened with, behind a level. -/
def misclosedDocument (level : String) : String :=
  "<RobotAction><OpMode id='T'><parameters><lowest_logging_level>" ++ level ++
    "</lowest_logging_level></parameters><actions/></OpMode></RobotActions>"

/-- A document may be reached through the directory of the log, which is there only if the log could
be opened; and an error tells the place of a flaw, which moves with the length of a level. -/
theorem ending_behind_log :
    (¬RunLog.Takes (withDocument plainDocument []) "logs" "T" ["d.xml"] ∧
      ending "logs/../d.xml" plainDocument [] = .value .completed ∧
      ending "logs/../d.xml" plainDocument refused = .value (.held (.domain "RunConfig"
        ("load run 'T': read action document logs/../d.xml: " ++
          "No such file or directory (os error 2)")) 1)) ∧
      ending "d.xml" (misclosedDocument "d") [] ≠ ending "d.xml" (misclosedDocument "vv") [] := by
  refine ⟨⟨not_takes_document plainDocument, ?_, ?_⟩, ?_⟩
  · refine (result_run rfl (.ofFiles (withDocument "" []))).trans ?_
    rw [contentsRead_opened]
    decide +kernel
  · refine (result_run rfl (.ofFiles (withDocument "" []))).trans ?_
    rw [contentsRead_refused]
    decide +kernel
  · have first : ending "d.xml" (misclosedDocument "d") [] = _ :=
      result_run rfl (.ofFiles (withDocument "" []))
    have second : ending "d.xml" (misclosedDocument "vv") [] = _ :=
      result_run rfl (.ofFiles (withDocument "" []))
    rw [first, second, contentsRead_document, contentsRead_document]
    decide +kernel

/-- A log of few records and one that could not be opened. -/
theorem run_alike_levels :
    let document := Document.levelDocument
    KeepsApart (requestFor "d.xml") (.ofFiles (withDocument (document "d") [])) ∧
      KeepsApart (requestFor "d.xml") (.ofFiles (withDocument (document "vv") refused)) ∧
      obligingOutside.Alike (run (requestFor "d.xml") 9) (run (requestFor "d.xml") 9)
        (.ofFiles (withDocument (document "d") []))
        (.ofFiles (withDocument (document "vv") refused)) .zero := by
  have keepsApart := keepsApart_of_not_takes (not_takes_document (Document.levelDocument "d"))
  have keepsApartToo := keepsApart_of_not_takes (not_takes_refused (Document.levelDocument "vv"))
  have same : Document.SameButLevels
      ((withDocument (Document.levelDocument "d") []).readText "d.xml")
      ((withDocument (Document.levelDocument "vv") refused).readText "d.xml") := by
    rw [FileSystem.readText_document, FileSystem.readText_document]
    exact Document.sameButLevels_levelDocument
  exact ⟨keepsApart, keepsApartToo, run_alike keepsApart keepsApartToo same⟩

end Autonomous

end RobotRoutine
