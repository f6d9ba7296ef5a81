import LeanRs.Child.FrameWriter
import LeanRs.Child.SessionPool
import LeanRs.General.KeyTable
import LeanRs.Runtime.Callback
import LeanRs.Worker.Policy

/-! A streaming command in the child: a Lean export hands envelopes to a string callback, which
turns them into frames, and the request ends with a summary or with an error. -/
namespace LeanRs

structure RowCallbackDiagnostic where
  code : Option String
  message : Option String

structure RowCallbackProgress where
  phase : Option String
  current : Nat
  total : Option Nat

/-- The fields that the deserialiser finds; a `null` is a field that is not there. -/
structure RowCallbackEnvelope where
  stream : Option String
  payload : Option JsonText
  diagnostic : Option RowCallbackDiagnostic
  progress : Option RowCallbackProgress
  metadata : Option JsonText

structure PendingDataRow where
  stream : String
  payload : JsonText
  deriving DecidableEq

inductive StreamCallbackEvent where
  | row (row : PendingDataRow)
  | diagnostic (diagnostic : Diagnostic)
  | progress (tick : ProgressTick)
  | metadata (value : JsonText)

/-- The deserialisers that the child calls, with the texts of their errors. -/
structure Deserializers where
  envelope : String → Except String RowCallbackEnvelope
  value : JsonText → Except String JsonText

def nonEmpty (field : Option String) : Option String := field.filter fun value => value ≠ ""

def orElseError {A : Type} (field : Option A) (message : String) : Except String A :=
  match field with
  | some value => .ok value
  | none => .error message

def parseRowEnvelope (d : Deserializers) (raw : String) : Except String StreamCallbackEvent := do
  let envelope ← (d.envelope raw).mapError
    fun err => "row callback payload is not valid JSON: " ++ err
  match envelope with
  | { diagnostic := some diagnostic, .. } =>
    let code ← orElseError (nonEmpty diagnostic.code)
      "diagnostic callback payload must contain a non-empty string field `code`"
    let message ← orElseError diagnostic.message
      "diagnostic callback payload must contain a string field `message`"
    return .diagnostic ⟨code, message⟩
  | { progress := some progress, .. } =>
    let phase ← orElseError (nonEmpty progress.phase)
      "progress callback payload must contain a non-empty string field `phase`"
    return .progress ⟨phase, progress.current, progress.total⟩
  | { metadata := some metadata, .. } =>
    let value ← (d.value metadata).mapError
      fun err => "metadata callback payload is not valid JSON: " ++ err
    return .metadata value
  | { stream, payload, .. } =>
    let stream ← orElseError (nonEmpty stream)
      "row callback payload must contain a non-empty string field `stream`"
    let payload ← orElseError payload "row callback payload must contain field `payload`"
    return .row ⟨stream, payload⟩

structure DataRowEmitter where
  sequences : List (String × Nat)
  count : Nat

namespace DataRowEmitter

def start : DataRowEmitter := ⟨[], 0⟩

def next (e : DataRowEmitter) (stream : String) (payload : JsonText) : DataRow × DataRowEmitter :=
  (⟨stream, KeyTable.value stream e.sequences, payload⟩,
    ⟨KeyTable.bump u64Max stream e.sequences, saturatingAdd e.count 1⟩)

end DataRowEmitter

structure StreamForwarder where
  writer : ProtocolWriter
  emitter : DataRowEmitter
  progress : Bool
  metadata : Option JsonText

/-- How the frames of one event fare: its own, and the tick that may follow a row. -/
structure EventAnswers where
  frame : FrameWriteAnswer
  tick : FrameWriteAnswer

namespace StreamForwarder

def new (writer : ProtocolWriter) (progress : Bool) : StreamForwarder :=
  ⟨writer, .start, progress, none⟩

def emitRow (f : StreamForwarder) (row : PendingDataRow) (a : EventAnswers) :
    ProtocolWriter.Outcome × StreamForwarder :=
  let (numbered, emitter) := f.emitter.next row.stream row.payload
  let f := { f with emitter }
  match f.writer.write (.dataRow numbered) a.frame with
  | (.returned (.ok ()), writer) =>
    let f := { f with writer }
    if f.progress then
      match f.writer.write (.progressTick ⟨"data_stream", f.emitter.count, none⟩) a.tick with
      -- a tick that cannot be written is dropped
      | (.returned _, writer) => (.returned (.ok ()), { f with writer })
      | (.panicked message, writer) => (.panicked message, { f with writer })
    else (.returned (.ok ()), f)
  | (outcome, writer) => (outcome, { f with writer })

def emitMessage (f : StreamForwarder) (message : Message) (a : EventAnswers) :
    ProtocolWriter.Outcome × StreamForwarder :=
  let (outcome, writer) := f.writer.write message a.frame
  (outcome, { f with writer })

def emit (f : StreamForwarder) (event : StreamCallbackEvent) (a : EventAnswers) :
    ProtocolWriter.Outcome × StreamForwarder :=
  match event with
  | .row row => f.emitRow row a
  | .diagnostic diagnostic => f.emitMessage (.diagnostic diagnostic) a
  | .progress tick => f.emitMessage (.progressTick tick) a
  | .metadata value => (.returned (.ok ()), { f with metadata := some value })

def summary (f : StreamForwarder) (elapsedMicros : Nat) : StreamSummary :=
  ⟨f.emitter.count, f.emitter.sequences, min elapsedMicros u64Max, f.metadata⟩

end StreamForwarder

inductive StreamCallbackError where
  | malformed (message : String)
  | write (message : String)
  deriving DecidableEq

/-- What the callback and the request share: the forwarder behind its lock and the error slot
behind another, which no panic can poison. `emitted` is the observer's list of what the export has
handed to the trampoline. -/
structure StreamRun where
  forwarder : StreamForwarder
  poisoned : Bool
  rowError : Option StreamCallbackError
  emitted : List CallbackPayload

namespace StreamRun

def fail (r : StreamRun) (error : StreamCallbackError) : CallbackOutcome × StreamRun :=
  (.returned .stop, { r with rowError := some error })

def onEvent (d : Deserializers) (a : EventAnswers) (value : String) (r : StreamRun) :
    CallbackOutcome × StreamRun :=
  if r.rowError.isSome then (.returned .stop, r)
  else
    match parseRowEnvelope d value with
    | .error message => r.fail (.malformed message)
    | .ok event =>
      if r.poisoned then r.fail (.malformed "stream forwarder mutex was poisoned")
      else
        match r.forwarder.emit event a with
        | (.returned (.ok ()), forwarder) => (.returned .continues, { r with forwarder })
        | (.returned (.error err), forwarder) =>
          { r with forwarder }.fail (.write err.display)
        | (.panicked message, forwarder) =>
          (.panicked message, { r with forwarder, poisoned := true })

/-- The string trampoline: the closure runs when the payload is a string. -/
def trampoline (d : Deserializers) (a : EventAnswers) (payload : CallbackPayload) (r : StreamRun) :
    UInt8 × StreamRun :=
  let r := { r with emitted := r.emitted ++ [payload] }
  match decodeStringPayload payload with
  | none => (LeanCallbackStatus.wrongPayload.asAbi, r)
  | some value =>
    let (outcome, r) := r.onEvent d a value
    (outcome.status.asAbi, r)

end StreamRun

/-- An export as the child sees it: it hands over one payload after the other, each time going on
as it likes with the status that it gets back, and then returns a status of its own. -/
inductive StreamExport where
  | returns (status : Except LeanError UInt8)
  | emits (payload : CallbackPayload) (a : EventAnswers) (next : UInt8 → StreamExport)

def StreamExport.call (d : Deserializers) :
    StreamExport → StreamRun → Except LeanError UInt8 × StreamRun
  | returns status, r => (status, r)
  | emits payload a next, r =>
    let (status, r) := r.trampoline d a payload
    (next status).call d r

structure WorkerBindingError where
  message : String
  deriving DecidableEq

inductive WorkerCallError where
  | host (err : LeanError)
  | binding (err : WorkerBindingError)

inductive StreamRunError where
  | host (err : LeanError)
  | binding (err : WorkerBindingError)
  | exportStatus (status : UInt8)
  | callbackStatus (status : LeanCallbackStatus)
  | malformedRow (message : String)

def StreamRunError.fromWorkerCall : WorkerCallError → StreamRunError
  | .host err => host err
  | .binding err => binding err

/-- How the calls that leave the child's own code come out in one `RunDataStream`. -/
structure DataStreamAnswers where
  opening : FrameAnswers
  registered : Except LeanError Unit
  bound : Except WorkerCallError Unit
  streamExport : StreamExport
  elapsedMicros : Nat

def hostInternal (message : String) : LeanError :=
  ⟨"lean_rs.internal", "lean-rs: host stage Internal [lean_rs.internal]: " ++ boundMessage message⟩

def StreamRun.conclude (r : StreamRun) (status : UInt8) (elapsedMicros : Nat) :
    Except StreamRunError StreamSummary :=
  match r.rowError with
  | some (.malformed message) => .error (.malformedRow message)
  | some (.write message) =>
    .error (.host (hostInternal ("worker stream frame write failed: " ++ message)))
  | none =>
    match LeanCallbackStatus.fromAbi status with
    | some .ok =>
      if r.poisoned then .error (.malformedRow "stream forwarder mutex was poisoned")
      else .ok (r.forwarder.summary elapsedMicros)
    | some status => .error (.callbackStatus status)
    | none => .error (.exportStatus status)

/-- The observer starts a new list of frames with each request. -/
def runDataStream (d : Deserializers) (progress : Bool) (writer : ProtocolWriter)
    (a : DataStreamAnswers) : Except StreamRunError StreamSummary × StreamRun :=
  let writer := { writer with written := [] }
  let writer :=
    if progress then (writer.write (.progressTick ⟨"data_stream", 0, none⟩) (.returns a.opening)).2
    else writer
  let r : StreamRun := ⟨.new writer progress, false, none, []⟩
  match a.registered with
  | .error err => (.error (.host err), r)
  | .ok () =>
    match a.bound with
    | .error err => (.error (.fromWorkerCall err), r)
    | .ok () =>
      match a.streamExport.call d r with
      | (.error err, r) => (.error (.host err), r)
      | (.ok status, r) => (r.conclude status a.elapsedMicros, r)

end LeanRs
