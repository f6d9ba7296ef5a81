import LeanRs.Child.DataStream
import LeanRs.General.Procedure

/-! The serial loop of the child: one frame is read, handled and answered before the next one is
read. What Lean and the pipe answer are arguments. -/
namespace LeanRs

open Procedures Procedure

/-- How a call into Lean comes out: it may take the process with it, and it may never return. -/
inductive CallAnswer (A : Type) where
  | returns (a : A)
  | dies
  | hangs

inductive ChildEnd where
  | finished
  | failed (err : ProtocolError)
  /-- Lean did not start, or the parent did not open with the frame limit. -/
  | refused (message : String)
  | died
  deriving DecidableEq

structure Serving where
  writer : ProtocolWriter
  pool : SessionPool

abbrev Handling (A : Type) := Procedure Serving ChildEnd A

def CallAnswer.run {A : Type} : CallAnswer A → Handling A
  | returns a => pure a
  | dies => raise .died
  | hangs => wait

def orEnd {A : Type} : Except ProtocolError A → Handling A
  | .ok a => pure a
  | .error err => raise (.failed err)

/-- A write of the main thread: nothing catches its panics. -/
def put (message : Message) (a : FrameWriteAnswer) : Handling (Except ProtocolError Unit) :=
  fun s =>
    match s.writer.write message a with
    | (.returned result, writer) => .returned result { s with writer }
    | (.panicked _, writer) => .raised .died { s with writer }

/-- A tick that cannot be written is dropped. -/
def emitProgress (phase : String) (current : Nat) (total : Option Nat) (a : FrameWriteAnswer) :
    Handling Unit := do
  let _ ← put (.progressTick ⟨phase, current, total⟩) a

structure ResponseAnswers where
  frame : FrameWriteAnswer
  fallback : FrameWriteAnswer

def outputFrameTooLarge (len max : Nat) : Response :=
  .error "lean_rs.worker.output_frame_too_large"
    ("worker response frame too large: " ++ toString len ++ " bytes exceeds " ++ toString max)

def writeResponse (response : Response) (a : ResponseAnswers) : Handling Unit := do
  match ← put (.response response) a.frame with
  | .ok () => pure ()
  | .error (.frameTooLarge len max) => do
    orEnd (← put (.response (outputFrameTooLarge len max)) a.fallback)
  | .error err => raise (.failed err)

def bindingErrorResponse (err : WorkerBindingError) : Response :=
  .error "lean_rs.worker.checked_binding" err.message

def missingSessionResponse : Response :=
  .error "lean_rs.worker.session_missing"
    "open a LeanWorkerSession before sending host-session requests"

def unexpectedFrameResponse : Response :=
  .error "lean_rs.worker.protocol.unexpected_frame" "child expected request frame"

def panicFixtureReturned : Response :=
  .error "lean_rs.worker.panic_fixture_returned"
    "Lean panic fixture returned instead of terminating the child"

def hostResponse {A : Type} (ok : A → Response) : Except LeanError A → Response
  | .ok a => ok a
  | .error err => SessionPool.errorResponse err

def workerCallResponse {A : Type} (ok : A → Response) : Except WorkerCallError A → Response
  | .ok a => ok a
  | .error (.host err) => SessionPool.errorResponse err
  | .error (.binding err) => bindingErrorResponse err

inductive CapabilityJsonError where
  | host (err : LeanError)
  | binding (err : WorkerBindingError)
  | malformed (message : String)

def capabilityJsonResponse (ok : JsonText → Response) (malformed : String → Response) :
    Except CapabilityJsonError JsonText → Response
  | .ok text => ok text
  | .error (.binding err) => bindingErrorResponse err
  | .error (.host err) => SessionPool.errorResponse err
  | .error (.malformed message) => malformed message

def LeanCallbackStatus.description : LeanCallbackStatus → String
  | ok => "callback completed successfully"
  | staleHandle => "Lean called a callback handle after Rust dropped it"
  | panic => "Rust callback panicked and the trampoline contained the panic"
  | wrongPayload => "Lean called a callback handle through the wrong payload trampoline"
  | stopped => "Rust callback asked Lean to stop the callback loop"

def streamResponse : Except StreamRunError StreamSummary → Response
  | .ok summary => .streamComplete summary
  | .error (.host err) => SessionPool.errorResponse err
  | .error (.binding err) => bindingErrorResponse err
  | .error (.exportStatus status) => .streamExportFailed status.toNat
  | .error (.callbackStatus status) => .streamCallbackFailed status.asAbi.toNat status.description
  | .error (.malformedRow message) => .streamRowMalformed message

inductive KernelOutcome where
  | checked
  | other (result : JsonText)

/-- `LeanWorkerDeclarationRow`, with the source range as its text. -/
structure LeanWorkerDeclarationRow where
  name : String
  kind : String
  typeSignature : Option String
  source : Option JsonText
  deriving DecidableEq

/-- What the calls that leave the child's own code answer while one request is handled. The
conversion of a request and the call that it is for answer as one. -/
structure HostAnswers where
  loadFixtureCapability : CallAnswer (Except LeanError Unit)
  callFixtureMul : CallAnswer (Except WorkerCallError Nat)
  triggerLeanPanic : CallAnswer (Except WorkerCallError Unit)
  importing : CallAnswer ImportAnswers
  /-- A call whose result goes out as it is. -/
  result : CallAnswer (Except LeanError JsonText)
  optionalRow : CallAnswer (Except LeanError (Option JsonText))
  capabilityJson : CallAnswer (Except CapabilityJsonError JsonText)
  jsonCommand : CallAnswer (Except WorkerCallError JsonText)
  kernelCheck : CallAnswer (Except LeanError KernelOutcome)
  summarizeEvidence : CallAnswer (Except LeanError JsonText)
  strings : CallAnswer (Except LeanError (List String))
  /-- The call for one name of a list. -/
  item : Nat → CallAnswer (Except LeanError String)
  /-- `declaration_type_bulk`, as far as the types are there. -/
  types : CallAnswer (Except LeanError (List Bool))
  sourceRange : Nat → CallAnswer (Except LeanError (Option JsonText))
  rowJson : LeanWorkerDeclarationRow → JsonText
  nameJson : String → Except String JsonText
  testRowJson : String → Nat → Except String JsonText
  deserializers : Deserializers
  stream : DataStreamAnswers
  /-- What the export does after all that it emits. -/
  streamEnd : CallAnswer Unit

structure PipeAnswers where
  opening : FrameWriteAnswer
  closing : FrameWriteAnswer
  tick : Nat → FrameWriteAnswer
  row : Nat → FrameWriteAnswer
  response : ResponseAnswers

namespace ServeLoop

def tryThen {E A B : Type} (m : Handling (Except E A)) (next : A → Handling (Except E B)) :
    Handling (Except E B) := do
  match ← m with
  | .ok a => next a
  | .error err => pure (.error err)

def tickIf (progress : Bool) (phase : String) (current : Nat) (total : Option Nat)
    (a : FrameWriteAnswer) : Handling Unit :=
  if progress then emitProgress phase current total a else pure ()

def wireCount (n : Nat) : Nat := min n u64Max

def bracketed {A B : Type} (phase : String) (progress : Bool) (w : PipeAnswers)
    (call : CallAnswer (Except LeanError A)) (finish : A → Handling (Except LeanError B)) :
    Handling (Except LeanError B) := do
  tickIf progress phase 0 (some 1) w.opening
  tryThen call.run fun a => do
    tickIf progress phase 1 (some 1) w.closing
    finish a

def kernelCheck (progress : Bool) (a : HostAnswers) (w : PipeAnswers) :
    Handling (Except LeanError JsonText) :=
  bracketed "kernel_check" progress w a.kernelCheck fun
    | .checked => a.summarizeEvidence.run
    | .other result => pure (.ok result)

def attemptProof (progress : Bool) (a : HostAnswers) (w : PipeAnswers) :
    Handling (Except LeanError JsonText) :=
  bracketed "attempt_proof" progress w a.result fun result => pure (.ok result)

def verifyDeclaration (progress : Bool) (a : HostAnswers) (w : PipeAnswers) :
    Handling (Except LeanError JsonText) :=
  bracketed "verify_declaration" progress w a.result fun result => pure (.ok result)

def verifyDeclarationBatch (progress : Bool) (a : HostAnswers) (w : PipeAnswers) :
    Handling (Except LeanError JsonText) :=
  bracketed "verify_declaration_batch" progress w a.result fun result => pure (.ok result)

def eachItem (phase : String) (total : Nat) (a : HostAnswers) (w : PipeAnswers) :
    List String → Nat → Handling (Except LeanError (List String))
  | [], _ => pure (.ok [])
  | _ :: rest, idx =>
    tryThen (a.item idx).run fun value => do
      emitProgress phase (wireCount (idx + 1)) (some total) (w.tick idx)
      tryThen (eachItem phase total a w rest (idx + 1)) fun values => pure (.ok (value :: values))

/-- Name by name when the caller wants to see progress, else in one call. -/
def declarationStrings (phase : String) (names : List String) (progress : Bool) (a : HostAnswers)
    (w : PipeAnswers) : Handling (Except LeanError (List String)) :=
  if progress then eachItem phase (wireCount names.length) a w names 0 else a.strings.run

def declarationKinds := declarationStrings "declaration_kind_bulk"

def declarationNames := declarationStrings "declaration_name_bulk"

def typeSignature (a : HostAnswers) (typed : Bool) (idx : Nat) :
    Handling (Except LeanError (Option String)) :=
  if typed then tryThen (a.item idx).run fun text => pure (.ok (some text)) else pure (.ok none)

/-- The row of one name. A name that is missing costs no further call. -/
def describeRow (a : HostAnswers) (name kind : String) (typed : Bool) (idx : Nat) :
    Handling (Except LeanError LeanWorkerDeclarationRow) :=
  if kind == "missing" then pure (.ok ⟨name, kind, none, none⟩)
  else
    tryThen (typeSignature a typed idx) fun typeSignature =>
      tryThen (a.sourceRange idx).run fun source => pure (.ok ⟨name, kind, typeSignature, source⟩)

def describeRows (progress : Bool) (total : Nat) (kinds : List String) (types : List Bool)
    (a : HostAnswers) (w : PipeAnswers) :
    List String → Nat → Handling (Except LeanError (List JsonText))
  | [], _ => pure (.ok [])
  | name :: rest, idx =>
    tryThen (describeRow a name (kinds[idx]?.getD "missing") (types[idx]?.getD false) idx)
      fun row => do
        tickIf progress "describe_bulk" (wireCount (idx + 1)) (some total) (w.tick idx)
        tryThen (describeRows progress total kinds types a w rest (idx + 1)) fun rows =>
          pure (.ok (a.rowJson row :: rows))

def describeBulk (names : List String) (progress : Bool) (a : HostAnswers) (w : PipeAnswers) :
    Handling (Except LeanError (List JsonText)) :=
  tryThen a.strings.run fun kinds =>
    tryThen a.types.run fun types =>
      describeRows progress (wireCount names.length) kinds types a w names 0

def listRows (a : HostAnswers) (w : PipeAnswers) :
    List String → DataRowEmitter → Nat → Handling (Except LeanError DataRowEmitter)
  | [], emitter, _ => pure (.ok emitter)
  | name :: rest, emitter, idx =>
    match a.nameJson name with
    | .error err =>
      pure (.error (hostInternal ("list_declarations_strings row payload encode failed: " ++ err)))
    | .ok payload => do
      match ← put (.dataRow (emitter.next "rows" payload).1) (w.row idx) with
      | .ok () => listRows a w rest (emitter.next "rows" payload).2 (idx + 1)
      | .error err =>
        pure (.error (hostInternal
          ("list_declarations_strings row frame write failed: " ++ err.display)))

def listDeclarationsStrings (progress : Bool) (a : HostAnswers) (w : PipeAnswers) :
    Handling (Except LeanError Nat) := do
  tickIf progress "list_declarations_strings" 0 none w.opening
  tryThen a.strings.run fun names =>
    tryThen (listRows a w names .start 0) fun emitter => do
      tickIf progress "list_declarations_strings" (wireCount names.length)
        (some (wireCount names.length)) w.closing
      pure (.ok emitter.count)

/-- The frames of the stream come after those that the observer has seen already. -/
def runStream (progress : Bool) (a : HostAnswers) :
    Handling (Except StreamRunError StreamSummary) := fun s =>
  let (result, r) := runDataStream a.deserializers progress s.writer a.stream
  let written := s.writer.written ++ r.forwarder.writer.written
  let s := { s with writer := { r.forwarder.writer with written } }
  (a.streamEnd.run >>= fun _ => pure result : Handling _) s

def emitTestRows (a : HostAnswers) (w : PipeAnswers) :
    List String → DataRowEmitter → Nat → Handling Nat
  | [], emitter, _ => pure emitter.count
  | stream :: rest, emitter, idx => do
    let payload ← orEnd ((a.testRowJson stream idx).mapError .json)
    orEnd (← put (.dataRow (emitter.next stream payload).1) (w.row idx))
    emitTestRows a w rest (emitter.next stream payload).2 (idx + 1)

def openHostSession (capacity : Nat) (key : HostSessionKey) (a : HostAnswers) :
    Handling Response := do
  let answers ← a.importing.run
  fun s =>
    let (response, pool) := s.pool.openOrReuseHostSession capacity key answers
    .returned response { s with pool }

def withSession (handler : Handling Response) : Handling Response := do
  let s ← read
  if s.pool.hostSession.isSome then handler else pure missingSessionResponse

def onSession {A : Type} (ok : A → Response) (method : Handling (Except LeanError A)) :
    Handling Response := withSession (hostResponse ok <$> method)

def respond (capacity : Nat) (a : HostAnswers) (w : PipeAnswers) : Request → Handling Response
  | .health => pure .healthOk
  | .loadFixtureCapability _ =>
    hostResponse (fun _ => .capabilityLoaded) <$> a.loadFixtureCapability.run
  | .callFixtureMul _ _ _ => workerCallResponse .u64 <$> a.callFixtureMul.run
  | .triggerLeanPanic _ =>
    workerCallResponse (fun _ => panicFixtureReturned) <$> a.triggerLeanPanic.run
  | .openHostSession projectRoot mode imports importProfile =>
    openHostSession capacity ⟨projectRoot, mode, imports, importProfile⟩ a
  | .elaborate _ _ => onSession .elaboration a.result.run
  | .kernelCheck _ _ progress => onSession .kernelCheck (kernelCheck progress a w)
  | .declarationKinds names progress => onSession .strings (declarationKinds names progress a w)
  | .declarationNames names progress => onSession .strings (declarationNames names progress a w)
  | .runDataStream _ _ progress => withSession (streamResponse <$> runStream progress a)
  | .capabilityMetadata _ _ =>
    withSession (capabilityJsonResponse .capabilityMetadata .capabilityMetadataMalformed <$>
      a.capabilityJson.run)
  | .capabilityDoctor _ _ =>
    withSession (capabilityJsonResponse .capabilityDoctor .capabilityDoctorMalformed <$>
      a.capabilityJson.run)
  | .jsonCommand _ _ => withSession (workerCallResponse .jsonCommand <$> a.jsonCommand.run)
  | .inferType _ _ => onSession .metaExpr a.result.run
  | .whnf _ _ => onSession .metaExpr a.result.run
  | .isDefEq _ _ _ _ => onSession .metaBool a.result.run
  | .describe _ => onSession .declaration a.optionalRow.run
  | .searchDeclarations _ => onSession .declarationSearch a.result.run
  | .declarationType _ _ => onSession .declarationType a.optionalRow.run
  | .inspectDeclaration _ => onSession .declarationInspection a.result.run
  | .attemptProof _ _ progress => onSession .proofAttempt (attemptProof progress a w)
  | .verifyDeclaration _ _ progress =>
    onSession .declarationVerification (verifyDeclaration progress a w)
  | .verifyDeclarationBatch _ _ _ progress =>
    onSession .declarationVerificationBatch (verifyDeclarationBatch progress a w)
  | .listDeclarationsStrings _ progress =>
    onSession .rowsComplete (listDeclarationsStrings progress a w)
  | .describeBulk names progress => onSession .declarationBulk (describeBulk names progress a w)
  | .processModuleQuery _ _ _ => onSession .processModuleQuery a.result.run
  | .processModuleQueryBatch _ _ _ _ => onSession .processModuleQueryBatch a.result.run
  | .clearModuleSnapshotCache => onSession .moduleSnapshotCacheCleared a.result.run
  | .emitTestRows streams => .rowsComplete <$> emitTestRows a w streams .start 0
  | .emitTestRowsThenExit => do
    let _ ← emitTestRows a w ["rows"] .start 0
    raise .finished
  | .emitTestRowsThenPanic => do
    let _ ← emitTestRows a w ["rows"] .start 0
    raise .died
  | .terminate => pure .terminating

def serveRequest (capacity : Nat) (a : HostAnswers) (w : PipeAnswers) (request : Request) :
    Handling Unit := do
  writeResponse (← respond capacity a w request) w.response
  if request = .terminate then raise .finished else pure ()

def serveFrame (capacity : Nat) (a : HostAnswers) (w : PipeAnswers) : Message → Handling Unit
  | .request request => serveRequest capacity a w request
  | _ => writeResponse unexpectedFrameResponse w.response

end ServeLoop

/-- One `read_frame`, and what the outside answers until the next. -/
structure Incoming where
  frame : Except ProtocolError Message
  host : HostAnswers
  pipe : PipeAnswers

/-- A frame that was read and the frames that have gone out for it. -/
structure Answered where
  frame : Message
  written : List Message
  deriving DecidableEq

/-- The observer starts a new list of frames with each frame that is read. -/
def Serving.reading (s : Serving) : Serving := { s with writer := { s.writer with written := [] } }

/-- The loop of `serve_stdio`: a list that runs out is a loop that waits for its next frame. -/
def serveLoop (capacity : Nat) :
    List Incoming → Serving → List Answered × Outcome Serving ChildEnd Unit
  | [], s => ([], .returned () s)
  | incoming :: rest, s =>
    match incoming.frame with
    | .error err => ([], .raised (.failed err) s)
    | .ok frame =>
      match ServeLoop.serveFrame capacity incoming.host incoming.pipe frame s.reading with
      | .returned _ t =>
        let (answered, ended) := serveLoop capacity rest t
        (⟨frame, t.writer.written⟩ :: answered, ended)
      | .raised e t => ([⟨frame, t.writer.written⟩], .raised e t)
      | .waiting t => ([⟨frame, t.writer.written⟩], .waiting t)

def protocolVersion : Nat := 10

def defaultMaxFrameBytes : Nat := 1048576

structure StartAnswers where
  initialized : Except String Unit
  handshake : FrameWriteAnswer
  configured : Except ProtocolError Message
  debugMessage : Message → String
  registries : Registries

/-- A child that has not ended waits for a frame or inside a call. -/
inductive ChildStatus where
  | serving
  | calling
  | ended (e : ChildEnd)
  deriving DecidableEq

structure ChildRun where
  greeting : List Message
  answered : List Answered
  status : ChildStatus
  deriving DecidableEq

def ChildRun.stdout (r : ChildRun) : List Message :=
  r.greeting ++ r.answered.flatMap Answered.written

def greet (workerVersion : String) (start : StartAnswers) : Handling Unit := do
  orEnd (← put (.handshake workerVersion protocolVersion) start.handshake)
  match ← orEnd start.configured with
  | .configureFrameLimit maxFrameBytes =>
    update fun s => { s with writer := { s.writer with maxFrameBytes } }
  | message =>
    raise (.refused ("worker child expected ConfigureFrameLimit, got " ++
      start.debugMessage message))

def ChildStatus.ofOutcome : Outcome Serving ChildEnd Unit → ChildStatus
  | .returned _ _ => serving
  | .raised e _ => ended e
  | .waiting _ => calling

def Serving.new (registries : Registries) : Serving :=
  ⟨⟨defaultMaxFrameBytes, false, []⟩, .fresh registries⟩

def serveStdio (workerVersion : String) (capacity : Nat) (start : StartAnswers)
    (frames : List Incoming) : ChildRun :=
  match start.initialized with
  | .error message => ⟨[], [], .ended (.refused message)⟩
  | .ok () =>
    match greet workerVersion start (.new start.registries) with
    | .returned _ t =>
      let (answered, outcome) := serveLoop capacity frames t
      ⟨t.writer.written, answered, .ofOutcome outcome⟩
    | .raised e t => ⟨t.writer.written, [], .ended e⟩
    | .waiting t => ⟨t.writer.written, [], .calling⟩

def FrameAnswers.smooth : FrameAnswers := ⟨.ok 2, .ok (), .ok (), .ok ()⟩

def PipeAnswers.smooth : PipeAnswers where
  opening := .returns .smooth
  closing := .returns .smooth
  tick _ := .returns .smooth
  row _ := .returns .smooth
  response := ⟨.returns .smooth, .returns .smooth⟩

def HostAnswers.smooth (names : List String) : HostAnswers where
  loadFixtureCapability := .returns (.ok ())
  callFixtureMul := .returns (.ok 0)
  triggerLeanPanic := .dies
  importing := .returns ⟨.ok (), ⟨0, 0, 0⟩, .ok {}⟩
  result := .returns (.ok "null")
  optionalRow := .returns (.ok none)
  capabilityJson := .returns (.ok "null")
  jsonCommand := .returns (.ok "null")
  kernelCheck := .returns (.ok .checked)
  summarizeEvidence := .returns (.ok "null")
  strings := .returns (.ok names)
  item _ := .returns (.ok "")
  types := .returns (.ok [])
  sourceRange _ := .returns (.ok none)
  rowJson _ := "null"
  nameJson name := .ok ("\"" ++ name ++ "\"")
  testRowJson _ _ := .ok "null"
  deserializers := ⟨fun _ => .error "", fun text => .ok text⟩
  stream := ⟨.smooth, .ok (), .ok (), .returns (.ok 0), 0⟩
  streamEnd := .returns ()

def Incoming.smooth (request : Request) (names : List String) : Incoming :=
  ⟨.ok (.request request), .smooth names, .smooth⟩

def StartAnswers.smooth : StartAnswers where
  initialized := .ok ()
  handshake := .returns .smooth
  configured := .ok (.configureFrameLimit defaultMaxFrameBytes)
  debugMessage _ := ""
  registries := ⟨0, 0, 0⟩

end LeanRs
