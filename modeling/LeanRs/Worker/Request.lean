import LeanRs.Worker.Restart

/-! One request: admission, the frame that goes out, and the loop that reads what comes
back. -/
namespace LeanRs

open Procedures Procedure Supervisor

structure PrepareAnswers where
  poll : TryWait
  rssBeforeAdmission : Option Nat
  rss : Option Nat
  idleFor : Duration
  restart : RestartAnswers
  deriving DecidableEq

/-- `child_rss_kib`: a worker without a child has no sample. -/
def LeanWorker.childRssKib (w : LeanWorker) (sample : Option Nat) : Option Nat :=
  if w.child.isSome then sample else none

namespace LeanWorkerStats

def importLikeAttempted (stats : LeanWorkerStats) (rssKib : Option Nat) : LeanWorkerStats :=
  { stats with
    importLikeAdmissionAttempts := saturatingAdd stats.importLikeAdmissionAttempts 1
    lastImportLikeRssBeforeAdmissionKib := rssKib }

def admitted (stats : LeanWorkerStats) (importLike : Bool) : LeanWorkerStats :=
  if importLike then
    { stats with importLikeAdmitted := saturatingAdd stats.importLikeAdmitted 1 }
  else stats

/-- A sample that was read, or one more that the platform did not have. -/
def rssSampled (stats : LeanWorkerStats) : Option Nat → LeanWorkerStats
  | some currentKib => { stats with lastRssKib := some currentKib }
  | none =>
    { stats with rssSamplesUnavailable := saturatingAdd stats.rssSamplesUnavailable 1 }

end LeanWorkerStats

def countImportLikeAdmission (importLike : Bool) (sample : Option Nat) : Supervisor Unit := do
  let w ← worker
  if importLike then count fun stats => stats.importLikeAttempted (w.childRssKib sample)
  else pure ()

def restartAdmitting (importLike : Bool) (reason : LeanWorkerRestartReason) (a : RestartAnswers) :
    Supervisor Unit := do
  restartWithReason reason a
  count fun stats => stats.admitted importLike

def rssCeilingReached (sample : Option Nat) : Supervisor (Option LeanWorkerRestartReason) := do
  let w ← worker
  match w.config.restartPolicy.maxRssKib with
  | none => pure none
  | some limitKib => do
    let current := w.childRssKib sample
    count fun stats => stats.rssSampled current
    pure ((current.filter fun currentKib => limitKib ≤ currentKib).map fun currentKib =>
      .rssCeiling currentKib limitKib w.stats.lastImportStats)

def LeanWorker.idleLimitReached (w : LeanWorker) (idleFor : Duration) :
    Option LeanWorkerRestartReason :=
  match w.config.restartPolicy.idleRestartAfter with
  | some limit => if limit ≤ idleFor then some (.idle idleFor limit) else none
  | none => none

/-- The bounds that are read off the counters alone: requests first, imports only for a request
that may import. -/
def LeanWorker.countedLimitReached (w : LeanWorker) (importLike : Bool) :
    Option LeanWorkerRestartReason :=
  (w.budget.requestLimitReached w.config.restartPolicy).or
    (if importLike then w.budget.importLimitReached w.config.restartPolicy else none)

def prepareRequest (importLike : Bool) (a : PrepareAnswers) : Supervisor Unit := do
  ensureRunning a.poll
  countImportLikeAdmission importLike a.rssBeforeAdmission
  let w ← worker
  match w.countedLimitReached importLike with
  | some reason => restartAdmitting importLike reason a.restart
  | none =>
    match ← rssCeilingReached a.rss with
    | some reason => restartAdmitting importLike reason a.restart
    | none =>
      match w.idleLimitReached a.idleFor with
      | some reason => restartAdmitting importLike reason a.restart
      | none => count fun stats => stats.admitted importLike

def sendRequest (poll : TryWait) (request : Request) (answer : WriteAnswer) : Supervisor Unit := do
  ensureRunning poll
  writeRequest request answer

def recordRequest (importLike : Bool) (now : Instant) : Supervisor Unit :=
  modify fun w => { w with
    stats := { w.stats with
      requests := saturatingAdd w.stats.requests 1
      imports := if importLike then saturatingAdd w.stats.imports 1 else w.stats.imports }
    budget := w.budget.recordRequest importLike
    lastActivity := now }

def recordImport (importStats : LeanWorkerImportStats) : Supervisor Unit :=
  modify fun w => { w with
    stats := { w.stats with
      imports := saturatingAdd w.stats.imports 1
      importStatsUnusable :=
        if 0 < importStats.effectiveModuleCount ∧ importStats.compactedRegionBytes = 0 then
          saturatingAdd w.stats.importStatsUnusable 1
        else w.stats.importStatsUnusable }
    budget := w.budget.recordImport importStats }

inductive ReaderFrame where
  | frame (message : Message)
  | failed (text : String) (eof : Bool)
  deriving DecidableEq

inductive RequestReaderEvent where
  | message (generation : Nat) (requestId : Option Nat) (message : Message)
      (backpressureWaits : Nat)
  | terminal (generation : Nat) (requestId : Option Nat) (message : Message)
      (backpressureWaits : Nat)
  | readError (generation : Nat) (requestId : Option Nat) (text : String) (eof : Bool)
      (backpressureWaits : Nat)
  deriving DecidableEq

namespace RequestReaderEvent

def generation : RequestReaderEvent → Nat
  | message g _ _ _ | terminal g _ _ _ | readError g _ _ _ _ => g

def requestId : RequestReaderEvent → Option Nat
  | message _ r _ _ | terminal _ r _ _ | readError _ r _ _ _ => r

def backpressureWaits : RequestReaderEvent → Nat
  | message _ _ _ b | terminal _ _ _ b | readError _ _ _ _ b => b

end RequestReaderEvent

/-- The event that `read_request_messages` sends for one frame: the reader stamps it with the
generation and the request it was started for. -/
def readerEvent (generation : Nat) (requestId : Option Nat) (backpressureWaits : Nat) :
    ReaderFrame → RequestReaderEvent
  | .frame message =>
    if message.isTerminal then .terminal generation requestId message backpressureWaits
    else .message generation requestId message backpressureWaits
  | .failed text eof => .readError generation requestId text eof backpressureWaits

inductive DataSinkTarget where
  | value
  | raw
  deriving DecidableEq

/-- What a sink makes of an event. Only a decoding row sink can meet an undecodable row. -/
inductive SinkAnswer where
  | accepted
  | undecodable (text : String)
  | panicked (message : String)
  deriving DecidableEq

inductive Received where
  | event (frame : ReaderFrame) (backpressureWaits : Nat)
  | nothing
  | disconnected
  deriving DecidableEq

structure TurnAnswers where
  rss : Option Nat
  now : Instant
  received : Received
  sink : SinkAnswer
  cancelled : Bool
  eventElapsed : Duration
  streamElapsed : Duration
  wait : WaitAnswer
  restart : RestartAnswers
  deriving DecidableEq

structure RequestContext where
  operation : String
  timeout : Duration
  deadline : Option Instant
  progress : Bool
  data : Option DataSinkTarget
  diagnostics : Bool
  generation : Nat
  requestId : Nat
  deriving DecidableEq

def RequestContext.streaming (c : RequestContext) : Bool := c.data.isSome

inductive Turn where
  | again (backpressureWaits : Nat)
  | complete (response : Response)
  deriving DecidableEq

namespace LeanWorkerStats

def streamSucceeded (stats : LeanWorkerStats) (elapsed : Duration) : LeanWorkerStats :=
  { stats with
    streamSuccesses := saturatingAdd stats.streamSuccesses 1
    streamElapsed := Duration.saturatingAdd stats.streamElapsed elapsed }

def streamFailed (stats : LeanWorkerStats) (elapsed : Duration) (backpressureWaits : Nat) :
    LeanWorkerStats :=
  { stats with
    streamFailures := saturatingAdd stats.streamFailures 1
    streamElapsed := Duration.saturatingAdd stats.streamElapsed elapsed
    backpressureFailures :=
      if 0 < backpressureWaits then saturatingAdd stats.backpressureFailures 1
      else stats.backpressureFailures }

def rowDelivered (stats : LeanWorkerStats) (row : DataRow) : LeanWorkerStats :=
  { stats with
    dataRowsDelivered := saturatingAdd stats.dataRowsDelivered 1
    dataRowPayloadBytes := saturatingAdd stats.dataRowPayloadBytes row.payload.utf8ByteSize }

def backpressured (stats : LeanWorkerStats) (waits : Nat) : LeanWorkerStats :=
  { stats with backpressureWaits := saturatingAdd stats.backpressureWaits waits }

end LeanWorkerStats

def recordStreamFailure (c : RequestContext) (elapsed : Duration) (waits : Nat) :
    Supervisor Unit := do
  if c.streaming then count fun stats => stats.streamFailed elapsed waits else pure ()

def terminalizeRequestFailure (c : RequestContext) (elapsed : Duration) (waits : Nat) :
    Supervisor Unit := do
  recordStreamFailure c elapsed waits
  modify LeanWorker.finishInFlight

def Response.endsStream : Response → Bool
  | .streamComplete _ | .rowsComplete _ => true
  | _ => false

def recordStreamEnd (c : RequestContext) (response : Response) (elapsed : Duration)
    (waits : Nat) : Supervisor Unit :=
  if c.streaming && response.endsStream then count fun stats => stats.streamSucceeded elapsed
  else recordStreamFailure c elapsed waits

def terminalizeRequestResponse (c : RequestContext) (response : Response) (elapsed : Duration)
    (waits : Nat) : Supervisor Unit := do
  recordStreamEnd c response elapsed waits
  modify LeanWorker.finishInFlight

def hardRssLimitExceeded (sample : Option Nat) : Supervisor (Option (Nat × Nat)) := do
  let w ← worker
  match w.config.rssHardLimitKib with
  | none => pure none
  | some limitKib => do
    let current := w.childRssKib sample
    count fun stats => stats.rssSampled current
    pure ((current.filter fun currentKib => limitKib ≤ currentKib).map fun currentKib =>
      (currentKib, limitKib))

/-- Kill and replace the child in the middle of a request, and fail the request. -/
def replaceAndFail (c : RequestContext) (waits : Nat) (a : TurnAnswers)
    (reason : LeanWorkerRestartReason) (error : LeanWorkerStats → LeanWorkerError) :
    Supervisor Turn := do
  recordStreamFailure c a.streamElapsed waits
  match ← capture (restartWithReason reason a.restart) with
  | .error err => do
    modify LeanWorker.finishInFlight
    raise err
  | .ok () => do
    modify LeanWorker.finishInFlight
    let w ← worker
    raise (error w.stats)

def timeoutError (c : RequestContext) (stats : LeanWorkerStats) : LeanWorkerError :=
  .timeout c.operation c.timeout (workerResourceFacts "worker_timeout" true (some c.operation)
    stats stats.lastRssKib none (some c.timeout))

def cancelledError (c : RequestContext) (stats : LeanWorkerStats) : LeanWorkerError :=
  .cancelled c.operation (workerResourceFacts "worker_cancelled" true (some c.operation) stats
    stats.lastRssKib none none)

def rssHardLimitError (c : RequestContext) (currentKib limitKib : Nat)
    (lastImportStats : Option LeanWorkerImportStats) (stats : LeanWorkerStats) : LeanWorkerError :=
  .rssHardLimitExceeded c.operation currentKib limitKib lastImportStats
    (workerResourceFacts "worker_rss_hard_limit" true (some c.operation) stats (some currentKib)
      (some limitKib) none)

def timeoutExit (c : RequestContext) (waits : Nat) (a : TurnAnswers) : Supervisor Turn :=
  replaceAndFail c waits a (.requestTimeout c.operation c.timeout) (timeoutError c)

def cancelledExit (c : RequestContext) (waits : Nat) (a : TurnAnswers) : Supervisor Turn :=
  replaceAndFail c waits a (.cancelled c.operation) (cancelledError c)

def hardLimitExit (c : RequestContext) (waits : Nat) (a : TurnAnswers) (currentKib limitKib : Nat) :
    Supervisor Turn := do
  let w ← worker
  replaceAndFail c waits a (.rssHardLimit c.operation currentKib limitKib w.stats.lastImportStats)
    (rssHardLimitError c currentKib limitKib w.stats.lastImportStats)

inductive Reception where
  | event (event : RequestReaderEvent)
  | sampleAgain
  | timedOut
  | disconnected
  deriving DecidableEq

/-- The time left to the deadline, as `checked_duration_since` has it: nothing once the deadline
is in the past. -/
def RequestContext.remaining (c : RequestContext) (now : Instant) : Option Duration :=
  c.deadline.bind fun deadline => Instant.checkedDurationSince deadline now

def receiveEvent (c : RequestContext) (a : TurnAnswers) : Supervisor Reception := do
  let w ← worker
  match c.remaining a.now with
  | some 0 => pure .timedOut
  | some remaining => do
    let hardWatch := w.config.rssHardLimitKib.isSome
    let waitFor := if hardWatch then min remaining w.config.rssSampleInterval else remaining
    emit (.receive (some waitFor))
    match a.received with
    | .event frame waits =>
      pure (.event (readerEvent c.generation (some c.requestId) waits frame))
    | .nothing =>
      pure (if hardWatch && decide (waitFor < remaining) then .sampleAgain else .timedOut)
    | .disconnected => pure .disconnected
  | none => do
    emit (.receive none)
    match a.received with
    | .event frame waits =>
      pure (.event (readerEvent c.generation (some c.requestId) waits frame))
    | .nothing => Procedure.wait
    | .disconnected => pure .disconnected

def reportParentProgress (present : Bool) (tick : ProgressTick) (elapsed : Duration)
    (sink : SinkAnswer) : Supervisor Unit := do
  if present then
    emit (.deliver (.progress tick elapsed))
    match sink with
    | .panicked message => raise (.progressPanic message)
    | _ => pure ()
  else
    pure ()

def reportParentDataRow (target : Option DataSinkTarget) (row : DataRow) (sink : SinkAnswer) :
    Supervisor Unit := do
  match target, sink with
  | none, _ => raise (.protocol .rowWithoutSink)
  | some .value, .undecodable text => raise (.protocol (.rowDecode text))
  | _, .panicked message => do
    emit (.deliver (.row row))
    raise (.dataSinkPanic message)
  | _, _ => emit (.deliver (.row row))

def reportParentDiagnostic (present : Bool) (diagnostic : Diagnostic) (sink : SinkAnswer) :
    Supervisor Unit := do
  if present then
    emit (.deliver (.diagnostic diagnostic))
    match sink with
    | .panicked message => raise (.diagnosticSinkPanic message)
    | _ => pure ()
  else
    pure ()

/-- A delivery that fails ends the request; nothing stops the child. -/
def orTerminalize (c : RequestContext) (waits : Nat) (a : TurnAnswers) (report : Supervisor Unit) :
    Supervisor Unit := do
  match ← capture report with
  | .ok () => pure ()
  | .error err => do
    terminalizeRequestFailure c a.streamElapsed waits
    raise err

/-- The cancellation token is read after a progress tick or a row has been delivered. -/
def orCancel (c : RequestContext) (waits : Nat) (a : TurnAnswers) : Supervisor Turn :=
  if a.cancelled then cancelledExit c waits a else pure (.again waits)

def handleMessage (c : RequestContext) (waits : Nat) (a : TurnAnswers) (message : Message) :
    Supervisor Turn := do
  match message with
  | .progressTick tick =>
    modify LeanWorker.markCurrentRequestStreaming
    orTerminalize c waits a (reportParentProgress c.progress tick a.eventElapsed a.sink)
    orCancel c waits a
  | .dataRow row =>
    modify LeanWorker.markCurrentRequestStreaming
    orTerminalize c waits a (reportParentDataRow c.data row a.sink)
    count fun stats => stats.rowDelivered row
    orCancel c waits a
  | .diagnostic diagnostic =>
    modify LeanWorker.markCurrentRequestStreaming
    orTerminalize c waits a (reportParentDiagnostic c.diagnostics diagnostic a.sink)
    pure (.again waits)
  | .response response =>
    terminalizeRequestFailure c a.streamElapsed waits
    raise (unexpectedResponse c.operation response)
  | other =>
    terminalizeRequestFailure c a.streamElapsed waits
    raise (.protocol (.unexpectedMessage c.operation other))

/-- `record_exit_error`, after the reader saw the end of the pipe. -/
def recordExitError (answer : WaitAnswer) : Supervisor Turn := do
  modify fun w => { w with state := .crashed w.generation }
  let exit ← waitForExit answer
  raise (.ofExit exit)

def handleTerminal (c : RequestContext) (waits : Nat) (a : TurnAnswers) (message : Message) :
    Supervisor Turn := do
  modify fun w => { w with stdout := true }
  match message with
  | .response (.error code text) =>
    terminalizeRequestFailure c a.streamElapsed waits
    raise (.worker code text)
  | .response response =>
    terminalizeRequestResponse c response a.streamElapsed waits
    pure (.complete response)
  | other =>
    terminalizeRequestFailure c a.streamElapsed waits
    raise (.protocol (.unexpectedMessage c.operation other))

def handleEvent (c : RequestContext) (waits : Nat) (a : TurnAnswers)
    (event : RequestReaderEvent) : Supervisor Turn := do
  let w ← worker
  if event.generation ≠ w.generation then
    modify LeanWorker.finishInFlight
    raise (.protocol (.staleOutput c.operation w.generation event.generation))
  else if event.requestId.isSome ∧ w.state.currentRequestId ≠ event.requestId then
    modify LeanWorker.finishInFlight
    let w ← worker
    raise (.protocol (.staleRequestOutput c.operation w.state.currentRequestId
      (event.requestId.getD 0)))
  else
    let waits := saturatingAdd waits event.backpressureWaits
    count fun stats => stats.backpressured event.backpressureWaits
    match event with
    | .message _ _ message _ => handleMessage c waits a message
    | .terminal _ _ message _ => handleTerminal c waits a message
    | .readError _ _ text eof _ =>
      terminalizeRequestFailure c a.streamElapsed waits
      if eof then recordExitError a.wait else raise (.protocol (.frame text))

def handleReception (c : RequestContext) (waits : Nat) (a : TurnAnswers) :
    Reception → Supervisor Turn
  | .event event => handleEvent c waits a event
  | .sampleAgain => pure (.again waits)
  | .timedOut => timeoutExit c waits a
  | .disconnected => do
    modify LeanWorker.finishInFlight
    raise (.protocol .readerExited)

def readTurn (c : RequestContext) (waits : Nat) (a : TurnAnswers) : Supervisor Turn := do
  match ← hardRssLimitExceeded a.rss with
  | some (currentKib, limitKib) => hardLimitExit c waits a currentKib limitKib
  | none => do
    let reception ← receiveEvent c a
    handleReception c waits a reception

/-- One element for each turn; a list that runs out is a loop that has not ended. -/
def readLoop (c : RequestContext) : Nat → List TurnAnswers → Supervisor Response
  | _, [] => Procedure.wait
  | waits, a :: rest => do
    match ← readTurn c waits a with
    | .again waits => readLoop c waits rest
    | .complete response => pure response

structure Sinks where
  progress : Bool := false
  data : Option DataSinkTarget := none
  diagnostics : Bool := false
  deriving DecidableEq

def LeanWorker.requestContext (w : LeanWorker) (operation : String) (sinks : Sinks)
    (started : Instant) : RequestContext where
  operation := operation
  timeout := w.config.requestTimeout
  deadline := Instant.checkedAdd started w.config.requestTimeout
  progress := sinks.progress
  data := sinks.data
  diagnostics := sinks.diagnostics
  generation := w.generation
  requestId := w.nextRequestId

def readResponseWithEvents (operation : String) (sinks : Sinks) (started : Instant)
    (turns : List TurnAnswers) : Supervisor Response := do
  let w ← worker
  if w.stdout then
    modify fun w => LeanWorker.beginInFlight { w with stdout := false } operation
    readLoop (w.requestContext operation sinks started) 0 turns
  else
    raise w.deadError

end LeanRs
