import LeanRs.General.Procedure
import LeanRs.Worker.Policy

/-! The supervisor of one worker child: its record, its errors, and what it does to the
outside. Every answer that the operating system, the child or a sink gives is an argument of
the procedure that asks for it. -/
namespace LeanRs

open Procedures

structure LeanWorkerResourceExhaustedFacts where
  cause : String
  workEnteredChild : Bool
  operation : Option String
  currentRssKib : Option Nat
  limitKib : Option Nat
  importCount : Option Nat
  workerGeneration : Option Nat
  restartReason : Option String
  queueWaitMs : Option Nat
  durationMs : Option Nat
  coldOpenAttempts : Option Nat
  coldOpenAdmitted : Option Nat
  coldOpenRefusals : Option Nat
  importLikeRequests : Option Nat
  importLikeAdmitted : Option Nat
  lastImportStats : Option LeanWorkerImportStats
  deriving DecidableEq

def durationMs (duration : Duration) : Nat := min duration.asMillis u64Max

def workerResourceFacts (cause : String) (workEnteredChild : Bool) (operation : Option String)
    (stats : LeanWorkerStats) (currentRssKib limitKib : Option Nat) (duration : Option Duration) :
    LeanWorkerResourceExhaustedFacts where
  cause := cause
  workEnteredChild := workEnteredChild
  operation := operation
  currentRssKib := currentRssKib
  limitKib := limitKib
  importCount := some stats.imports
  workerGeneration := some stats.restarts
  restartReason := stats.lastRestartReason.map LeanWorkerRestartReason.stableCause
  queueWaitMs := none
  durationMs := duration.map durationMs
  coldOpenAttempts := none
  coldOpenAdmitted := none
  coldOpenRefusals := none
  importLikeRequests := some stats.importLikeAdmissionAttempts
  importLikeAdmitted := some stats.importLikeAdmitted
  lastImportStats := stats.lastImportStats

/-- Facts of an error that happened before anything was sent: only the cause is known. -/
def emptyResourceFacts (cause operation : String) (duration : Option Duration) :
    LeanWorkerResourceExhaustedFacts where
  cause := cause
  workEnteredChild := false
  operation := some operation
  currentRssKib := none
  limitKib := none
  importCount := none
  workerGeneration := none
  restartReason := none
  queueWaitMs := none
  durationMs := duration.map durationMs
  coldOpenAttempts := none
  coldOpenAdmitted := none
  coldOpenRefusals := none
  importLikeRequests := none
  importLikeAdmitted := none
  lastImportStats := none

def preDispatchCancelledResource (operation : String) : LeanWorkerResourceExhaustedFacts :=
  emptyResourceFacts "worker_cancelled" operation none

structure ExitStatus where
  success : Bool
  code : Option Int
  text : String
  deriving DecidableEq

/-- `Child::try_wait`, with what the standard-error pipe holds if the child is gone. -/
inductive TryWait where
  | failed (source : String)
  | running
  | exited (status : ExitStatus) (stderr : String)
  deriving DecidableEq

inductive KillAnswer where
  | failed (source : String)
  | asked
  deriving DecidableEq

/-- `write_frame`: a frame over the cap is refused before a byte is written; a failing pipe
may have taken a part of it. -/
inductive WriteAnswer where
  | written
  | tooLarge (text : String)
  | broken (text : String)
  deriving DecidableEq

/-- The rendered process status, or the supervisor's own text for a child that is not there. -/
inductive ExitText where
  | rendered (text : String)
  | workerIsNotRunning
  deriving DecidableEq

def ExitText.text : ExitText → String
  | rendered text => text
  | workerIsNotRunning => "worker is not running"

structure LeanWorkerExit where
  success : Bool
  code : Option Int
  status : ExitText
  diagnostics : String
  deriving DecidableEq

def LeanWorkerExit.fromStatus (status : ExitStatus) (diagnostics : String) : LeanWorkerExit :=
  ⟨status.success, status.code, .rendered status.text, diagnostics⟩

def LeanWorkerExit.notRunning : LeanWorkerExit := ⟨false, none, .workerIsNotRunning, ""⟩

inductive ProtocolText where
  | frame (text : String)
  | readerExited
  | unexpectedMessage (operation : String) (message : Message)
  | unexpectedResponse (operation : String) (response : Response)
  | staleOutput (operation : String) (expected actual : Nat)
  | staleRequestOutput (operation : String) (expected : Option Nat) (actual : Nat)
  | rowWithoutSink
  | rowDecode (text : String)
  | declarationRowDecode (text : String)
  | declarationCount (observed count : Nat)
  | dataStreamEncode (text : String)
  | capabilityMetadataEncode (text : String)
  | capabilityDoctorEncode (text : String)
  | configureFrameLimit (text : String)
  deriving DecidableEq

/-- The text itself, given how frames are rendered for debugging. -/
def ProtocolText.text (debugMessage : Message → String) (debugResponse : Response → String) :
    ProtocolText → String
  | frame text => text
  | readerExited => "worker response reader exited without a terminal response"
  | unexpectedMessage operation message =>
    "worker sent unexpected " ++ operation ++ " message: " ++ debugMessage message
  | unexpectedResponse operation response =>
    "worker sent unexpected " ++ operation ++ " response: " ++ debugResponse response
  | staleOutput operation expected actual =>
    "worker sent stale " ++ operation ++ " frame from generation " ++ toString actual ++
      ", current generation is " ++ toString expected
  | staleRequestOutput operation expected actual =>
    "worker sent stale " ++ operation ++ " frame from request " ++ toString actual ++
      ", current request is " ++ (expected.map toString).getD "none"
  | rowWithoutSink => "worker sent data row for a request without a row sink"
  | rowDecode text => "worker data-row payload decode failed: " ++ text
  | declarationRowDecode text => "list_declarations_strings row payload decode failed: " ++ text
  | declarationCount observed count =>
    "worker_list_declarations_strings: parent collected " ++ toString observed ++
      " rows but child reported " ++ toString count
  | dataStreamEncode text => "worker data-stream request JSON encode failed: " ++ text
  | capabilityMetadataEncode text =>
    "worker capability metadata request JSON encode failed: " ++ text
  | capabilityDoctorEncode text => "worker capability doctor request JSON encode failed: " ++ text
  | configureFrameLimit text => "failed to send ConfigureFrameLimit: " ++ text

inductive LeanWorkerError where
  | spawn (executable : PathBuf) (source : String)
  | capabilityBuild (diagnostic : String)
  | setup (message : String)
  | handshake (message : String)
  | protocol (text : ProtocolText)
  | worker (code message : String)
  | childExited (exit : LeanWorkerExit)
  | childPanicOrAbort (exit : LeanWorkerExit)
  | timeout (operation : String) (duration : Duration)
      (resource : LeanWorkerResourceExhaustedFacts)
  | rssHardLimitExceeded (operation : String) (currentKib limitKib : Nat)
      (lastImportStats : Option LeanWorkerImportStats) (resource : LeanWorkerResourceExhaustedFacts)
  | cancelled (operation : String) (resource : LeanWorkerResourceExhaustedFacts)
  | progressPanic (message : String)
  | dataSinkPanic (message : String)
  | diagnosticSinkPanic (message : String)
  | streamExportFailed (status : Nat)
  | streamCallbackFailed (status : Nat) (description : String)
  | streamRowMalformed (message : String)
  | capabilityMetadataMalformed (message : String)
  | capabilityDoctorMalformed (message : String)
  | restartLimitExceeded (restarts : Nat) (window : Duration)
  | wait (source : String)
  | kill (source : String)
  | waitTimeout (operation : String) (duration : Duration)
  | shutdownInProgress (operation : String)
  deriving DecidableEq

/-- The one error constructor for an exit that ended a request. -/
def LeanWorkerError.ofExit (exit : LeanWorkerExit) : LeanWorkerError :=
  if exit.success then .childExited exit else .childPanicOrAbort exit

/-- The error of a request that found no pipe to a child that is running. -/
def LeanWorkerError.saysNotRunning : LeanWorkerError → Bool
  | .childExited exit | .childPanicOrAbort exit => exit.status == .workerIsNotRunning
  | _ => false

@[simp] theorem LeanWorkerError.saysNotRunning_ofExit (exit : LeanWorkerExit) :
    (LeanWorkerError.ofExit exit).saysNotRunning = (exit.status == .workerIsNotRunning) := by
  unfold ofExit
  split <;> rfl

@[simp] theorem LeanWorkerExit.status_fromStatus (status : ExitStatus) (diagnostics : String) :
    (LeanWorkerExit.fromStatus status diagnostics).status = .rendered status.text := rfl

def unexpectedResponse (operation : String) (response : Response) : LeanWorkerError :=
  .protocol (.unexpectedResponse operation response)

structure InFlightRequest where
  id : Nat
  operation : String
  generation : Nat
  deriving DecidableEq

inductive WorkerSupervisorState where
  | idle (generation : Nat)
  | busy (request : InFlightRequest)
  | streaming (request : InFlightRequest)
  | stopping (generation : Nat)
  | killing (generation : Nat)
  | reaping (generation : Nat)
  | crashed (generation : Nat)
  | restartExhausted (generation : Nat)
  | exited (generation : Nat)
  deriving DecidableEq

namespace WorkerSupervisorState

def rejectsNewRequests : WorkerSupervisorState → Bool
  | stopping _ | killing _ | reaping _ | restartExhausted _ => true
  | _ => false

def currentOperation : WorkerSupervisorState → Option String
  | busy request | streaming request => some request.operation
  | _ => none

def currentRequestId : WorkerSupervisorState → Option Nat
  | busy request | streaming request => some request.id
  | _ => none

def isIdle : WorkerSupervisorState → Bool
  | idle _ => true
  | _ => false

def isInFlight : WorkerSupervisorState → Bool
  | busy _ | streaming _ => true
  | _ => false

end WorkerSupervisorState

structure LeanWorkerConfig where
  executable : PathBuf
  startupTimeout : Duration := Duration.fromSecs 10
  requestTimeout : Duration := Duration.fromSecs 30
  shutdownTimeout : Duration := Duration.fromSecs 2
  restartPolicy : LeanWorkerRestartPolicy := {}
  sessionPoolCapacity : Option Nat := none
  rssHardLimitKib : Option Nat := none
  rssSampleInterval : Duration := Duration.fromMillis 250
  maxFrameBytes : Nat := 1048576
  env : List (String × List UInt8) := []
  deriving DecidableEq

/-- The capacity handed to the child and the bound of the reuse hint come from here. -/
def LeanWorkerConfig.resolvedSessionPoolCapacity (config : LeanWorkerConfig) : Option Nat :=
  config.sessionPoolCapacity.or config.restartPolicy.maxImports

/-- One supervised child. A pipe handle is present or has been handed to a reader thread. -/
structure LeanWorker where
  config : LeanWorkerConfig
  child : Option Nat
  stdin : Bool
  stdout : Bool
  stderr : Bool
  lastExit : Option LeanWorkerExit
  stats : LeanWorkerStats
  budget : GenerationBudget
  openSessionKeys : List LeanWorkerSessionConfig
  reuseHintEnabled : Bool
  reuseObserved : Bool
  pendingRestart : Option LeanWorkerRestartReason
  lastActivity : Instant
  generation : Nat
  nextRequestId : Nat
  restartWindow : List Instant
  state : WorkerSupervisorState
  deriving DecidableEq

/-- A child that has shaken hands: what `spawn` returns. -/
def LeanWorker.fresh (config : LeanWorkerConfig) (pid : Nat) (stderr : Bool)
    (handshakeElapsed : Duration) (now : Instant) : LeanWorker where
  config := config
  child := some pid
  stdin := true
  stdout := true
  stderr := stderr
  lastExit := none
  stats := { lastSpawnHandshakeElapsed := some handshakeElapsed }
  budget := {}
  openSessionKeys := []
  reuseHintEnabled := true
  reuseObserved := false
  pendingRestart := none
  lastActivity := now
  generation := 0
  nextRequestId := 0
  restartWindow := []
  state := .idle 0

inductive SinkEvent where
  | progress (tick : ProgressTick) (elapsed : Duration)
  | row (row : DataRow)
  | diagnostic (diagnostic : Diagnostic)
  deriving DecidableEq

/-- What the supervisor does to the outside, in order. -/
inductive Effect where
  | tryWait (answer : TryWait)
  | wait
  | kill (answer : KillAnswer)
  | spawn
  | write (request : Request) (answer : WriteAnswer)
  | receive (bound : Option Duration)
  | deliver (event : SinkEvent)
  | replace (reason : LeanWorkerRestartReason)
  deriving DecidableEq

structure World where
  worker : LeanWorker
  effects : List Effect
  deriving DecidableEq

abbrev Supervisor (A : Type) := Procedure World LeanWorkerError A

/-- The worker with a change to its counters and to nothing else. -/
def LeanWorker.counted (w : LeanWorker) (f : LeanWorkerStats → LeanWorkerStats) : LeanWorker :=
  { w with stats := f w.stats }

namespace Supervisor

def worker : Supervisor LeanWorker := fun s => .returned s.worker s
def modify (f : LeanWorker → LeanWorker) : Supervisor Unit :=
  Procedure.update fun s => { s with worker := f s.worker }
def emit (e : Effect) : Supervisor Unit :=
  Procedure.update fun s => { s with effects := s.effects ++ [e] }
def count (f : LeanWorkerStats → LeanWorkerStats) : Supervisor Unit := modify fun w => w.counted f

@[simp] theorem worker_apply (s : World) : worker s = .returned s.worker s := rfl
@[simp] theorem modify_apply (f : LeanWorker → LeanWorker) (s : World) :
    modify f s = .returned () { s with worker := f s.worker } := rfl
@[simp] theorem emit_apply (e : Effect) (s : World) :
    emit e s = .returned () { s with effects := s.effects ++ [e] } := rfl
@[simp] theorem count_apply (f : LeanWorkerStats → LeanWorkerStats) (s : World) :
    count f s = .returned () { s with worker := s.worker.counted f } := rfl

end Supervisor

namespace LeanWorker

section Counted

variable (w : LeanWorker) (f : LeanWorkerStats → LeanWorkerStats)

@[simp] theorem counted_config : (w.counted f).config = w.config := rfl
@[simp] theorem counted_child : (w.counted f).child = w.child := rfl
@[simp] theorem counted_stdin : (w.counted f).stdin = w.stdin := rfl
@[simp] theorem counted_stdout : (w.counted f).stdout = w.stdout := rfl
@[simp] theorem counted_stderr : (w.counted f).stderr = w.stderr := rfl
@[simp] theorem counted_lastExit : (w.counted f).lastExit = w.lastExit := rfl
@[simp] theorem counted_stats : (w.counted f).stats = f w.stats := rfl
@[simp] theorem counted_budget : (w.counted f).budget = w.budget := rfl
@[simp] theorem counted_openSessionKeys :
    (w.counted f).openSessionKeys = w.openSessionKeys := rfl
@[simp] theorem counted_reuseHintEnabled :
    (w.counted f).reuseHintEnabled = w.reuseHintEnabled := rfl
@[simp] theorem counted_reuseObserved : (w.counted f).reuseObserved = w.reuseObserved := rfl
@[simp] theorem counted_pendingRestart : (w.counted f).pendingRestart = w.pendingRestart := rfl
@[simp] theorem counted_lastActivity : (w.counted f).lastActivity = w.lastActivity := rfl
@[simp] theorem counted_generation : (w.counted f).generation = w.generation := rfl
@[simp] theorem counted_nextRequestId : (w.counted f).nextRequestId = w.nextRequestId := rfl
@[simp] theorem counted_restartWindow : (w.counted f).restartWindow = w.restartWindow := rfl
@[simp] theorem counted_state : (w.counted f).state = w.state := rfl

end Counted

def beginInFlight (w : LeanWorker) (operation : String) : LeanWorker :=
  { w with
    nextRequestId := saturatingAdd w.nextRequestId 1
    state := .busy ⟨w.nextRequestId, operation, w.generation⟩ }

def markCurrentRequestStreaming (w : LeanWorker) : LeanWorker :=
  match w.state with
  | .busy request | .streaming request => { w with state := .streaming request }
  | _ => w

def finishInFlight (w : LeanWorker) : LeanWorker :=
  match w.state with
  | .busy _ | .streaming _ => { w with state := .idle w.generation }
  | _ => w

def reaped (w : LeanWorker) (exit : LeanWorkerExit) : LeanWorker :=
  { w with
    lastExit := some exit, child := none, stdin := false, stdout := false, stderr := false
    state := .exited w.generation
    stats := { w.stats with exits := saturatingAdd w.stats.exits 1 } }

/-- What the exit is reported with: the text of a standard-error pipe that is still there. -/
def exitOf (w : LeanWorker) (status : ExitStatus) (stderr : String) : LeanWorkerExit :=
  .fromStatus status (if w.stderr then stderr else "")

@[simp] theorem status_exitOf (w : LeanWorker) (status : ExitStatus) (stderr : String) :
    (w.exitOf status stderr).status = .rendered status.text := rfl

def deadError (w : LeanWorker) : LeanWorkerError := .ofExit (w.lastExit.getD .notRunning)

def reuseHintCapacity (w : LeanWorker) : Nat :=
  max (w.config.resolvedSessionPoolCapacity.getD 4) 1

end LeanWorker

end LeanRs
