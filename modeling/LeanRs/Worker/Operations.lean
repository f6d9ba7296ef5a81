import LeanRs.General.Runs
import LeanRs.Worker.Request

/-! Everything a caller can do with a supervisor, and the states it can reach. -/
namespace LeanRs

open Procedures Procedure Supervisor

/-- The answers one request meets, from the cancellation check to the last turn of its read
loop. -/
structure RequestAnswers where
  cancelled : Bool
  prepare : PrepareAnswers
  poll : TryWait
  write : WriteAnswer
  recorded : Instant
  started : Instant
  turns : List TurnAnswers
  deriving DecidableEq

def checkCancelled (operation : String) (cancelled : Bool) : Supervisor Unit :=
  if cancelled then raise (.cancelled operation (preDispatchCancelledResource operation))
  else pure ()

/-- Admission, frame and counters: what every request does before it reads. -/
def issueRequest (request : Request) (importLike : Bool) (a : RequestAnswers) :
    Supervisor Unit := do
  prepareRequest importLike a.prepare
  sendRequest a.poll request a.write
  recordRequest importLike a.recorded

def exchange (operation : String) (request : Request) (importLike : Bool) (sinks : Sinks)
    (a : RequestAnswers) : Supervisor Response := do
  issueRequest request importLike a
  readResponseWithEvents operation sinks a.started a.turns

def liftResult {A : Type} : Except LeanWorkerError A → Supervisor A
  | .ok a => pure a
  | .error e => raise e

def roundTrip {A : Type} (operation : String) (request : Request) (importLike : Bool)
    (progress : Bool) (extract : Response → Except LeanWorkerError A) (a : RequestAnswers) :
    Supervisor A := do
  checkCancelled operation a.cancelled
  let response ← exchange operation request importLike { progress := progress } a
  liftResult (extract response)

def health (a : RequestAnswers) : Supervisor Unit := do
  match ← exchange "health" .health false {} a with
  | .healthOk => pure ()
  | other => raise (unexpectedResponse "health" other)

/-- `fixture_capability_manifest`: the build of the fixture comes before the worker is asked. -/
def fixtureCapabilityManifest (built : Except String PathBuf) : Supervisor String :=
  match built with
  | .ok path => pure path.pathString
  | .error diagnostic => raise (.capabilityBuild diagnostic)

def loadFixtureCapability (built : Except String PathBuf) (a : RequestAnswers) :
    Supervisor Unit := do
  let manifestPath ← fixtureCapabilityManifest built
  match ← exchange "load_fixture_capability" (.loadFixtureCapability manifestPath) true {} a with
  | .capabilityLoaded => pure ()
  | other => raise (unexpectedResponse "load_fixture_capability" other)

def callFixtureMul (built : Except String PathBuf) (lhs rhs : Nat) (a : RequestAnswers) :
    Supervisor Nat := do
  let manifestPath ← fixtureCapabilityManifest built
  match ← exchange "call_fixture_mul" (.callFixtureMul manifestPath lhs rhs) true {} a with
  | .u64 value => pure value
  | other => raise (unexpectedResponse "call_fixture_mul" other)

def triggerLeanPanicFixture (built : Except String PathBuf) (a : RequestAnswers) :
    Supervisor LeanWorkerExit := do
  let manifestPath ← fixtureCapabilityManifest built
  issueRequest (.triggerLeanPanic manifestPath) true a
  match ← capture (readResponseWithEvents "trigger_lean_panic" {} a.started a.turns) with
  | .ok response => raise (unexpectedResponse "trigger_lean_panic" response)
  | .error (.childPanicOrAbort exit) => pure exit
  | .error err => raise err

def emitTestRows (streams : List String) (data : Bool) (a : RequestAnswers) : Supervisor Nat := do
  checkCancelled "emit_test_rows" a.cancelled
  match ← exchange "emit_test_rows" (.emitTestRows streams) false
    { data := if data then some .value else none } a with
  | .rowsComplete count => pure count
  | other => raise (unexpectedResponse "emit_test_rows" other)

def emitTestRowsThen (operation : String) (request : Request) (data : Bool) (a : RequestAnswers) :
    Supervisor Unit := do
  checkCancelled operation a.cancelled
  let response ← exchange operation request false { data := if data then some .value else none } a
  raise (unexpectedResponse operation response)

def emitTestRowsThenExit : Bool → RequestAnswers → Supervisor Unit :=
  emitTestRowsThen "emit_test_rows_then_exit" .emitTestRowsThenExit

def emitTestRowsThenPanic : Bool → RequestAnswers → Supervisor Unit :=
  emitTestRowsThen "emit_test_rows_then_panic" .emitTestRowsThenPanic

/-- The projection of a request that accepts one kind of response. -/
def expecting {A : Type} (operation : String) (select : Response → Option A) (response : Response) :
    Except LeanWorkerError A :=
  match select response with
  | some a => .ok a
  | none => .error (unexpectedResponse operation response)

section RoundTrips

variable (progress : Bool)

def workerElaborate (source : String) (options : JsonText) :=
  roundTrip "worker_elaborate" (.elaborate source options) false progress
    (expecting "worker_elaborate" fun | .elaboration outcome => some outcome | _ => none)

def workerKernelCheck (source : String) (options : JsonText) :=
  roundTrip "worker_kernel_check" (.kernelCheck source options progress) false progress
    (expecting "worker_kernel_check" fun | .kernelCheck outcome => some outcome | _ => none)

def workerDeclarationKinds (names : List String) :=
  roundTrip "worker_declaration_kinds" (.declarationKinds names progress) false progress
    (expecting "worker_declaration_kinds" fun | .strings values => some values | _ => none)

def workerDeclarationNames (names : List String) :=
  roundTrip "worker_declaration_names" (.declarationNames names progress) false progress
    (expecting "worker_declaration_names" fun | .strings values => some values | _ => none)

def workerInferType (source : String) (options : JsonText) :=
  roundTrip "worker_infer_type" (.inferType source options) false progress
    (expecting "worker_infer_type" fun | .metaExpr result => some result | _ => none)

def workerWhnf (source : String) (options : JsonText) :=
  roundTrip "worker_whnf" (.whnf source options) false progress
    (expecting "worker_whnf" fun | .metaExpr result => some result | _ => none)

def workerIsDefEq (lhs rhs : String) (transparency options : JsonText) :=
  roundTrip "worker_is_def_eq" (.isDefEq lhs rhs transparency options) false progress
    (expecting "worker_is_def_eq" fun | .metaBool result => some result | _ => none)

def workerDescribe (name : String) :=
  roundTrip "worker_describe" (.describe name) false progress
    (expecting "worker_describe" fun | .declaration row => some row | _ => none)

def workerSearchDeclarations (search : JsonText) :=
  roundTrip "worker_search_declarations" (.searchDeclarations search) false progress
    (expecting "worker_search_declarations"
      fun | .declarationSearch result => some result | _ => none)

def workerDeclarationType (name : String) (maxBytes : Nat) :=
  roundTrip "worker_declaration_type" (.declarationType name maxBytes) false progress
    (expecting "worker_declaration_type" fun | .declarationType row => some row | _ => none)

def workerInspectDeclaration (request : JsonText) :=
  roundTrip "worker_inspect_declaration" (.inspectDeclaration request) false progress
    (expecting "worker_inspect_declaration"
      fun | .declarationInspection result => some result | _ => none)

def workerAttemptProof (request options : JsonText) :=
  roundTrip "worker_attempt_proof" (.attemptProof request options progress) false progress
    (expecting "worker_attempt_proof" fun | .proofAttempt result => some result | _ => none)

def workerDescribeBulk (names : List String) :=
  roundTrip "worker_describe_bulk" (.describeBulk names progress) false progress
    (expecting "worker_describe_bulk" fun | .declarationBulk rows => some rows | _ => none)

def workerProcessModuleQuery (source : String) (query options : JsonText) :=
  roundTrip "worker_process_module_query" (.processModuleQuery source query options) false progress
    (expecting "worker_process_module_query"
      fun | .processModuleQuery outcome => some outcome | _ => none)

def workerClearModuleSnapshotCache :=
  roundTrip "worker_clear_module_snapshot_cache" .clearModuleSnapshotCache false progress
    (expecting "worker_clear_module_snapshot_cache"
      fun | .moduleSnapshotCacheCleared result => some result | _ => none)

def workerJsonCommand (exportName : String) (requestJson : JsonText) :=
  roundTrip "worker_json_command" (.jsonCommand exportName requestJson) false progress
    (expecting "worker_json_command" fun | .jsonCommand text => some text | _ => none)

/-- The request is rendered as JSON first, and that may fail. -/
def encoded (requestJson : Except String JsonText) (failure : String → ProtocolText) :
    Supervisor JsonText :=
  match requestJson with
  | .ok text => pure text
  | .error text => raise (.protocol (failure text))

def workerCapabilityMetadata (exportName : String) (requestJson : Except String JsonText)
    (a : RequestAnswers) : Supervisor JsonText := do
  let text ← encoded requestJson .capabilityMetadataEncode
  roundTrip "worker_capability_metadata" (.capabilityMetadata exportName text) false progress
    (fun
      | .capabilityMetadata metadata => .ok metadata
      | .capabilityMetadataMalformed message => .error (.capabilityMetadataMalformed message)
      | other => .error (unexpectedResponse "worker_capability_metadata" other)) a

def workerCapabilityDoctor (exportName : String) (requestJson : Except String JsonText)
    (a : RequestAnswers) : Supervisor JsonText := do
  let text ← encoded requestJson .capabilityDoctorEncode
  roundTrip "worker_capability_doctor" (.capabilityDoctor exportName text) false progress
    (fun
      | .capabilityDoctor report => .ok report
      | .capabilityDoctorMalformed message => .error (.capabilityDoctorMalformed message)
      | other => .error (unexpectedResponse "worker_capability_doctor" other)) a

/-- A result, or the degraded verdict that stands for a child that aborted. -/
inductive Degradable (A D : Type) where
  | reported (result : A)
  | degraded (verdict : D)

def LeanWorkerError.resourceExhaustedFacts :
    LeanWorkerError → Option LeanWorkerResourceExhaustedFacts
  | .timeout _ _ resource | .rssHardLimitExceeded _ _ _ _ resource | .cancelled _ resource =>
    some resource
  | _ => none

/-- `child_abort_reason`, given how diagnostics are trimmed and cut for display. -/
def childAbortReason (truncate : String → String) (operation : String) (exit : LeanWorkerExit) :
    LeanWorkerRestartReason :=
  .childAbort operation exit.status.text (truncate exit.diagnostics)

def recoverChildAbort (truncate : String → String) (operation : String) (err : LeanWorkerError)
    (a : RestartAnswers) : Supervisor Unit :=
  match err with
  | .childPanicOrAbort exit => restartWithReason (childAbortReason truncate operation exit) a
  | err => raise err

/-- A round trip whose abort becomes a verdict, computed before the child is replaced. -/
def degradable {A D : Type} (truncate : String → String) (operation : String)
    (trip : Supervisor A) (verdict : LeanWorkerError → LeanWorker → D) (a : RestartAnswers) :
    Supervisor (Degradable A D) := do
  match ← capture trip with
  | .ok result => pure (.reported result)
  | .error err => do
    let w ← worker
    recoverChildAbort truncate operation err a
    pure (.degraded (verdict err w))

def workerVerifyDeclaration (truncate : String → String) (request options : JsonText)
    (a : RequestAnswers) (recover : RestartAnswers) : Supervisor (Degradable JsonText Unit) :=
  degradable truncate "worker_verify_declaration"
    (roundTrip "worker_verify_declaration" (.verifyDeclaration request options progress) false
      progress (expecting "worker_verify_declaration"
        fun | .declarationVerification result => some result | _ => none) a)
    (fun _ _ => ()) recover

/-- The degraded rows keep every target, in order. -/
def workerVerifyDeclarationBatch (truncate : String → String) (targets : List (String × JsonText))
    (request options : JsonText) (a : RequestAnswers) (recover : RestartAnswers) :
    Supervisor (Degradable JsonText (List (String × JsonText))) :=
  degradable truncate "worker_verify_declaration_batch"
    (roundTrip "worker_verify_declaration_batch"
      (.verifyDeclarationBatch targets request options progress) false progress
      (expecting "worker_verify_declaration_batch"
        fun | .declarationVerificationBatch result => some result | _ => none) a)
    (fun _ _ => targets) recover

def workerProcessModuleQueryBatch (truncate : String → String) (source : String)
    (selectors : List (String × JsonText)) (budgets options : JsonText) (a : RequestAnswers)
    (recover : RestartAnswers) :
    Supervisor (Degradable JsonText (List String × LeanWorkerResourceExhaustedFacts)) :=
  degradable truncate "worker_process_module_query_batch"
    (roundTrip "worker_process_module_query_batch"
      (.processModuleQueryBatch source selectors budgets options) false progress
      (expecting "worker_process_module_query_batch"
        fun | .processModuleQueryBatch outcome => some outcome | _ => none) a)
    (fun err w => (selectors.map Prod.fst, err.resourceExhaustedFacts.getD
      (workerResourceFacts "worker_child_abort" true (some "worker_process_module_query_batch")
        w.stats w.stats.lastRssKib none none))) recover

def LeanWorkerStats.streamRequested (stats : LeanWorkerStats) : LeanWorkerStats :=
  { stats with streamRequests := saturatingAdd stats.streamRequests 1 }

def workerRunDataStream (exportName : String) (requestJson : Except String JsonText)
    (rows : DataSinkTarget) (diagnostics : Bool) (a : RequestAnswers) :
    Supervisor StreamSummary := do
  checkCancelled "worker_run_data_stream" a.cancelled
  let text ← encoded requestJson .dataStreamEncode
  issueRequest (.runDataStream exportName text progress) false a
  count fun stats => stats.streamRequested
  match ← readResponseWithEvents "worker_run_data_stream"
    { progress := progress, data := some rows, diagnostics := diagnostics } a.started a.turns with
  | .streamComplete summary => pure summary
  | .streamExportFailed statusByte => raise (.streamExportFailed statusByte)
  | .streamCallbackFailed statusByte description =>
    raise (.streamCallbackFailed statusByte description)
  | .streamRowMalformed message => raise (.streamRowMalformed message)
  | other => raise (unexpectedResponse "worker_run_data_stream" other)

/-- What the collecting sink has at the end: the names of the rows it could decode, and the
first decoding error. -/
def collectNames (decode : JsonText → Except String String) :
    List Effect → List String × Option String
  | [] => ([], none)
  | .deliver (.row row) :: rest =>
    let (names, error) := collectNames decode rest
    match decode row.payload with
    | .ok name => (name :: names, error)
    | .error text => (names, some text)
  | _ :: rest => collectNames decode rest

def workerListDeclarationsStrings (decode : JsonText → Except String String) (filter : JsonText)
    (a : RequestAnswers) : Supervisor (List String) := do
  let operation := "worker_list_declarations_strings"
  checkCancelled operation a.cancelled
  issueRequest (.listDeclarationsStrings filter progress) false a
  let before ← read
  let response ← readResponseWithEvents operation { progress := progress, data := some .raw }
    a.started a.turns
  let after ← read
  let (names, decodeError) := collectNames decode (after.effects.drop before.effects.length)
  match decodeError with
  | some text => raise (.protocol (.declarationRowDecode text))
  | none =>
    match response with
    | .rowsComplete count =>
      if names.length = count then pure names
      else raise (.protocol (.declarationCount names.length count))
    | other => raise (unexpectedResponse operation other)

end RoundTrips

def noteOpenSessionKey {K : Type} [BEq K] (capacity : Nat) (keys : List K) (key : K) : List K :=
  match keys.find? (· == key) with
  | some found => keys.eraseP (· == key) ++ [found]
  | none => (keys ++ [key]).drop ((keys ++ [key]).length - capacity)

structure OpenAnswers where
  request : RequestAnswers
  /-- The restart that an earlier call deferred. -/
  deferred : RestartAnswers
  importElapsed : Duration
  deriving DecidableEq

def LeanWorkerSessionConfig.wireMode (config : LeanWorkerSessionConfig) : HostSessionMode :=
  match config.mode with
  | .capability package libName manifestPath =>
    .capability package libName (manifestPath.map PathBuf.pathString)
  | .shimsOnly => .shimsOnly

def LeanWorkerSessionConfig.openRequest (config : LeanWorkerSessionConfig) : Request :=
  .openHostSession config.projectRootString config.wireMode config.imports config.importProfile

/-- `self.pending_restart.take()` and the restart it asks for: the reason is gone before the
restart is tried. -/
def takePendingRestart (a : RestartAnswers) : Supervisor Unit := do
  let w ← worker
  match w.pendingRestart with
  | some reason =>
    modify fun w => { w with pendingRestart := none }
    restartWithReason reason a
  | none => pure ()

def LeanWorker.predictsReuse (w : LeanWorker) (config : LeanWorkerSessionConfig) : Bool :=
  w.reuseHintEnabled && w.openSessionKeys.any (· == config)

def forgetSessionKeys : Supervisor Unit := modify fun w => { w with openSessionKeys := [] }

def LeanWorkerStats.openTimed (stats : LeanWorkerStats) (beforeRestarts : Nat)
    (elapsed : Duration) : LeanWorkerStats :=
  { stats with
    lastSessionOpenImportElapsed := some elapsed
    lastReplacementTiming :=
      if beforeRestarts < stats.restarts then
        stats.lastReplacementTiming.map fun timing => { timing with sessionOpenImport := elapsed }
      else stats.lastReplacementTiming }

def LeanWorkerStats.imported (stats : LeanWorkerStats) (importStats : LeanWorkerImportStats) :
    LeanWorkerStats :=
  { stats with lastImportStats := some importStats }

def hostSessionOpened (config : LeanWorkerSessionConfig) (expectReuse : Bool) (beforeRestarts : Nat)
    (importStats : LeanWorkerImportStats) (elapsed : Duration) : Supervisor Unit := do
  modify fun w => { w with
    reuseHintEnabled := w.reuseHintEnabled &&
      !(expectReuse && !w.reuseObserved && w.openSessionKeys.getLast?.any (· == config)) }
  recordImport importStats
  modify fun w => { w with
    pendingRestart :=
      if expectReuse then w.budget.importLimitReached w.config.restartPolicy
      else w.pendingRestart }
  count fun stats => (stats.openTimed beforeRestarts elapsed).imported importStats
  modify fun w => { w with
    openSessionKeys := noteOpenSessionKey w.reuseHintCapacity w.openSessionKeys config }

/-- `HostSessionReused`: nothing that measures imports moves. -/
def hostSessionReused (config : LeanWorkerSessionConfig) (importStats : LeanWorkerImportStats) :
    Supervisor Unit := do
  modify fun w => { w with
    reuseObserved := true
    openSessionKeys := noteOpenSessionKey w.reuseHintCapacity w.openSessionKeys config }
  count fun stats => stats.imported importStats

def readWorkerSession (config : LeanWorkerSessionConfig) (progress expectReuse : Bool)
    (beforeRestarts : Nat) (a : OpenAnswers) : Supervisor Unit := do
  let operation := "open_worker_session"
  match ← capture (readResponseWithEvents operation { progress := progress } a.request.started
    a.request.turns) with
  | .error err => do
    forgetSessionKeys
    raise err
  | .ok (.hostSessionOpened importStats) =>
    hostSessionOpened config expectReuse beforeRestarts importStats a.importElapsed
  | .ok (.hostSessionReused importStats) => hostSessionReused config importStats
  | .ok other => do
    forgetSessionKeys
    raise (unexpectedResponse operation other)

/-- The request proper, once no restart is pending. A reuse is expected of an unrestarted child
only. -/
def requestWorkerSession (config : LeanWorkerSessionConfig) (progress : Bool)
    (beforeRestarts : Nat) (a : OpenAnswers) : Supervisor Unit := do
  let w ← worker
  let predicted := w.predictsReuse config
  prepareRequest (!predicted) a.request.prepare
  let w ← worker
  let expectReuse := predicted && w.stats.restarts == beforeRestarts
  sendRequest a.request.poll config.openRequest a.request.write
  recordRequest false a.request.recorded
  readWorkerSession config progress expectReuse beforeRestarts a

def openWorkerSession (config : LeanWorkerSessionConfig) (progress : Bool) (a : OpenAnswers) :
    Supervisor Unit := do
  checkCancelled "open_worker_session" a.request.cancelled
  let before ← worker
  takePendingRestart a.deferred
  requestWorkerSession config progress before.stats.restarts a

def setRequestTimeout (timeout : Duration) : Supervisor Unit :=
  modify fun w => { w with config := { w.config with requestTimeout := timeout } }

def rssKib (sample : Option Nat) : Supervisor (Option Nat) := do
  let w ← worker
  let value := w.childRssKib sample
  count fun stats => stats.rssSampled value
  pure value

namespace LeanWorkerStats

def capabilityOpenTimed (stats : LeanWorkerStats) (capabilityLoad : Duration)
    (sessionOpenImport : Option Duration) : LeanWorkerStats :=
  { stats with
    lastCapabilityLoadElapsed := some capabilityLoad
    lastSessionOpenImportElapsed := sessionOpenImport.or stats.lastSessionOpenImportElapsed
    lastReplacementTiming := stats.lastReplacementTiming.map fun timing => { timing with
      capabilityLoad := capabilityLoad
      sessionOpenImport := sessionOpenImport.getD timing.sessionOpenImport } }

def commandTimed (stats : LeanWorkerStats) (firstCommandAfterOpen : Bool) (elapsed : Duration) :
    LeanWorkerStats :=
  if firstCommandAfterOpen then
    { stats with
      lastFirstCommandElapsed := some elapsed
      lastReplacementTiming := stats.lastReplacementTiming.map fun timing =>
        { timing with firstCommand := some elapsed } }
  else
    { stats with
      lastWarmCommandElapsed := some elapsed
      lastReplacementTiming := stats.lastReplacementTiming.map fun timing =>
        { timing with warmCommand := some elapsed } }

end LeanWorkerStats

def recordCapabilityOpenTiming (capabilityLoad : Duration) (sessionOpenImport : Option Duration) :
    Supervisor Unit :=
  count fun stats => stats.capabilityOpenTimed capabilityLoad sessionOpenImport

def recordCommandTiming (firstCommandAfterOpen : Bool) (elapsed : Duration) : Supervisor Unit :=
  count fun stats => stats.commandTimed firstCommandAfterOpen elapsed

def cycle (a : RestartAnswers) : Supervisor Unit := restartWithReason .explicit a

def killForTest (answer : KillAnswer) : Supervisor Unit := do
  let w ← worker
  if w.child.isSome then killChild answer else raise w.deadError

def shutdown (a : ShutdownAnswers) : Supervisor LeanWorkerShutdownReport :=
  shutdownChild a .graceful

inductive Op where
  | status (answer : TryWait)
  | rssKib (sample : Option Nat)
  | setRequestTimeout (timeout : Duration)
  | recordCapabilityOpenTiming (capabilityLoad : Duration) (sessionOpenImport : Option Duration)
  | recordCommandTiming (firstCommandAfterOpen : Bool) (elapsed : Duration)
  | cycle (a : RestartAnswers)
  | cycleWithRestartReason (reason : LeanWorkerRestartReason) (a : RestartAnswers)
  | killForTest (answer : KillAnswer)
  | shutdown (a : ShutdownAnswers)
  | health (a : RequestAnswers)
  | loadFixtureCapability (built : Except String PathBuf) (a : RequestAnswers)
  | callFixtureMul (built : Except String PathBuf) (lhs rhs : Nat) (a : RequestAnswers)
  | triggerLeanPanicFixture (built : Except String PathBuf) (a : RequestAnswers)
  | emitTestRows (streams : List String) (data : Bool) (a : RequestAnswers)
  | emitTestRowsThenExit (data : Bool) (a : RequestAnswers)
  | emitTestRowsThenPanic (data : Bool) (a : RequestAnswers)
  | openWorkerSession (config : LeanWorkerSessionConfig) (progress : Bool) (a : OpenAnswers)
  | elaborate (progress : Bool) (source : String) (options : JsonText) (a : RequestAnswers)
  | kernelCheck (progress : Bool) (source : String) (options : JsonText) (a : RequestAnswers)
  | declarationKinds (progress : Bool) (names : List String) (a : RequestAnswers)
  | declarationNames (progress : Bool) (names : List String) (a : RequestAnswers)
  | inferType (progress : Bool) (source : String) (options : JsonText) (a : RequestAnswers)
  | whnf (progress : Bool) (source : String) (options : JsonText) (a : RequestAnswers)
  | isDefEq (progress : Bool) (lhs rhs : String) (transparency options : JsonText)
      (a : RequestAnswers)
  | describe (progress : Bool) (name : String) (a : RequestAnswers)
  | searchDeclarations (progress : Bool) (search : JsonText) (a : RequestAnswers)
  | declarationType (progress : Bool) (name : String) (maxBytes : Nat) (a : RequestAnswers)
  | inspectDeclaration (progress : Bool) (request : JsonText) (a : RequestAnswers)
  | attemptProof (progress : Bool) (request options : JsonText) (a : RequestAnswers)
  | describeBulk (progress : Bool) (names : List String) (a : RequestAnswers)
  | processModuleQuery (progress : Bool) (source : String) (query options : JsonText)
      (a : RequestAnswers)
  | clearModuleSnapshotCache (progress : Bool) (a : RequestAnswers)
  | jsonCommand (progress : Bool) (exportName : String) (requestJson : JsonText)
      (a : RequestAnswers)
  | capabilityMetadata (progress : Bool) (exportName : String)
      (requestJson : Except String JsonText) (a : RequestAnswers)
  | capabilityDoctor (progress : Bool) (exportName : String)
      (requestJson : Except String JsonText) (a : RequestAnswers)
  | verifyDeclaration (progress : Bool) (truncate : String → String) (request options : JsonText)
      (a : RequestAnswers) (recover : RestartAnswers)
  | verifyDeclarationBatch (progress : Bool) (truncate : String → String)
      (targets : List (String × JsonText)) (request options : JsonText) (a : RequestAnswers)
      (recover : RestartAnswers)
  | processModuleQueryBatch (progress : Bool) (truncate : String → String) (source : String)
      (selectors : List (String × JsonText)) (budgets options : JsonText) (a : RequestAnswers)
      (recover : RestartAnswers)
  | runDataStream (progress : Bool) (exportName : String) (requestJson : Except String JsonText)
      (rows : DataSinkTarget) (diagnostics : Bool) (a : RequestAnswers)
  | listDeclarationsStrings (progress : Bool) (decode : JsonText → Except String String)
      (filter : JsonText) (a : RequestAnswers)

def discard {A : Type} (m : Supervisor A) : Supervisor Unit := do
  let _ ← m
  pure ()

def Op.perform : Op → Supervisor Unit
  | .status answer => discard (LeanRs.status answer)
  | .rssKib sample => discard (LeanRs.rssKib sample)
  | .setRequestTimeout timeout => LeanRs.setRequestTimeout timeout
  | .recordCapabilityOpenTiming load opened => LeanRs.recordCapabilityOpenTiming load opened
  | .recordCommandTiming first elapsed => LeanRs.recordCommandTiming first elapsed
  | .cycle a => LeanRs.cycle a
  | .cycleWithRestartReason reason a => restartWithReason reason a
  | .killForTest answer => LeanRs.killForTest answer
  | .shutdown a => discard (LeanRs.shutdown a)
  | .health a => LeanRs.health a
  | .loadFixtureCapability built a => LeanRs.loadFixtureCapability built a
  | .callFixtureMul built lhs rhs a => discard (LeanRs.callFixtureMul built lhs rhs a)
  | .triggerLeanPanicFixture built a => discard (LeanRs.triggerLeanPanicFixture built a)
  | .emitTestRows streams data a => discard (LeanRs.emitTestRows streams data a)
  | .emitTestRowsThenExit data a => LeanRs.emitTestRowsThenExit data a
  | .emitTestRowsThenPanic data a => LeanRs.emitTestRowsThenPanic data a
  | .openWorkerSession config progress a => LeanRs.openWorkerSession config progress a
  | .elaborate progress source options a => discard (workerElaborate progress source options a)
  | .kernelCheck progress source options a => discard (workerKernelCheck progress source options a)
  | .declarationKinds progress names a => discard (workerDeclarationKinds progress names a)
  | .declarationNames progress names a => discard (workerDeclarationNames progress names a)
  | .inferType progress source options a => discard (workerInferType progress source options a)
  | .whnf progress source options a => discard (workerWhnf progress source options a)
  | .isDefEq progress lhs rhs transparency options a =>
    discard (workerIsDefEq progress lhs rhs transparency options a)
  | .describe progress name a => discard (workerDescribe progress name a)
  | .searchDeclarations progress search a => discard (workerSearchDeclarations progress search a)
  | .declarationType progress name maxBytes a =>
    discard (workerDeclarationType progress name maxBytes a)
  | .inspectDeclaration progress request a =>
    discard (workerInspectDeclaration progress request a)
  | .attemptProof progress request options a =>
    discard (workerAttemptProof progress request options a)
  | .describeBulk progress names a => discard (workerDescribeBulk progress names a)
  | .processModuleQuery progress source query options a =>
    discard (workerProcessModuleQuery progress source query options a)
  | .clearModuleSnapshotCache progress a => discard (workerClearModuleSnapshotCache progress a)
  | .jsonCommand progress exportName requestJson a =>
    discard (workerJsonCommand progress exportName requestJson a)
  | .capabilityMetadata progress exportName requestJson a =>
    discard (workerCapabilityMetadata progress exportName requestJson a)
  | .capabilityDoctor progress exportName requestJson a =>
    discard (workerCapabilityDoctor progress exportName requestJson a)
  | .verifyDeclaration progress truncate request options a recover =>
    discard (workerVerifyDeclaration progress truncate request options a recover)
  | .verifyDeclarationBatch progress truncate targets request options a recover =>
    discard (workerVerifyDeclarationBatch progress truncate targets request options a recover)
  | .processModuleQueryBatch progress truncate source selectors budgets options a recover =>
    discard (workerProcessModuleQueryBatch progress truncate source selectors budgets options a
      recover)
  | .runDataStream progress exportName requestJson rows diagnostics a =>
    discard (workerRunDataStream progress exportName requestJson rows diagnostics a)
  | .listDeclarationsStrings progress decode filter a =>
    discard (workerListDeclarationsStrings progress decode filter a)

def operate (w : LeanWorker) (op : Op) : Option LeanWorker :=
  (op.perform ⟨w, []⟩).ended.map World.worker

def ShutdownAnswers.smooth : ShutdownAnswers where
  status := .running
  write := .written
  grace := [(.running, .terminal .terminating)]
  graceLast := .running
  graceElapsed := 0
  exitWait := ⟨[], .exited ⟨true, some 0, "exit status: 0"⟩ "", 0⟩
  kill := .asked
  killWait := ⟨[], .exited ⟨false, none, "signal: 9 (SIGKILL)"⟩ "", 0⟩
  killElapsed := 0
  elapsed := 0

def RestartAnswers.smooth : RestartAnswers where
  stop := .smooth
  now := 0
  spawn := .ready 2 true 0 0
  total := 0
  activity := 0

def TurnAnswers.smooth (received : Received) : TurnAnswers where
  rss := none
  now := 0
  received := received
  sink := .accepted
  cancelled := false
  eventElapsed := 0
  streamElapsed := 0
  wait := .never
  restart := .smooth

def RequestAnswers.smooth (turns : List TurnAnswers) : RequestAnswers where
  cancelled := false
  prepare := ⟨.running, none, none, 0, .smooth⟩
  poll := .running
  write := .written
  recorded := 0
  started := 0
  turns := turns

def LeanWorker.spawned (policy : LeanWorkerRestartPolicy) : LeanWorker :=
  .fresh { executable := ⟨[]⟩, restartPolicy := policy } 1 true 0 0

end LeanRs
