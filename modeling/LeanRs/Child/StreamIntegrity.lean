import LeanRs.Child.DataStream

/-! What a summary says about the frames of its request. -/
namespace LeanRs

open Fallible

def Message.dataRow? : Message → Option DataRow
  | .dataRow row => some row
  | _ => none

def DataRow.pending (row : DataRow) : PendingDataRow := ⟨row.stream, row.payload⟩

def DataRow.numbered (row : DataRow) : String × Nat := (row.stream, row.sequence)

namespace StreamCallbackEvent

def row? : StreamCallbackEvent → Option PendingDataRow
  | .row pending => some pending
  | _ => none

def metadata? : StreamCallbackEvent → Option JsonText
  | .metadata value => some value
  | _ => none

end StreamCallbackEvent

/-- The event that a payload stands for, if it is a string that parses. -/
def CallbackPayload.event? (d : Deserializers) (payload : CallbackPayload) :
    Option StreamCallbackEvent :=
  (decodeStringPayload payload).bind fun value => (parseRowEnvelope d value).toOption

def StreamForwarder.rows (f : StreamForwarder) : List DataRow :=
  f.writer.written.filterMap Message.dataRow?

namespace StreamRun

def events (d : Deserializers) (r : StreamRun) : List StreamCallbackEvent :=
  r.emitted.filterMap (CallbackPayload.event? d)

/-- The rows of the payloads, in the order in which the export has emitted them. -/
def pendingRows (d : Deserializers) (r : StreamRun) : List PendingDataRow :=
  (r.events d).filterMap StreamCallbackEvent.row?

def Clean (r : StreamRun) : Prop := r.rowError = none ∧ r.poisoned = false

end StreamRun

namespace StreamForwarder

variable {f f' : StreamForwarder} {a : EventAnswers}

theorem tick_rows (w : ProtocolWriter) (tick : ProgressTick) (answer : FrameWriteAnswer) :
    (w.write (.progressTick tick) answer).2.written.filterMap Message.dataRow? =
      w.written.filterMap Message.dataRow? := by
  obtain same | more := w.write_written (.progressTick tick) answer
  · rw [same]
  · rw [more, List.filterMap_append]
    exact List.append_nil _

theorem emitRow_ok {row : PendingDataRow}
    (emitted : f.emitRow row a = (.returned (.ok ()), f')) :
    f'.rows = f.rows ++ [(f.emitter.next row.stream row.payload).1] ∧
      f'.emitter = (f.emitter.next row.stream row.payload).2 ∧ f'.metadata = f.metadata := by
  unfold emitRow at emitted
  dsimp only at emitted
  cases wrote : f.writer.write (.dataRow (f.emitter.next row.stream row.payload).1) a.frame with
  | mk outcome writer =>
    rw [wrote] at emitted
    cases outcome with
    | panicked => cases emitted
    | returned result =>
      cases result with
      | error => cases emitted
      | ok =>
        have appended : writer.written.filterMap Message.dataRow? =
            f.rows ++ [(f.emitter.next row.stream row.payload).1] := by
          rw [ProtocolWriter.write_ok wrote, List.filterMap_append]
          rfl
        dsimp only at emitted
        split at emitted
        · have ticked := tick_rows writer
            ⟨"data_stream", (f.emitter.next row.stream row.payload).2.count, none⟩ a.tick
          rw [appended] at ticked
          split at emitted
          · rename_i second
            rw [second] at ticked
            obtain rfl := (Prod.mk.inj emitted).2
            exact ⟨ticked, rfl, rfl⟩
          · cases emitted
        · obtain rfl := (Prod.mk.inj emitted).2
          exact ⟨appended, rfl, rfl⟩

theorem emitMessage_ok {message : Message} (other : message.dataRow? = none)
    (emitted : f.emitMessage message a = (.returned (.ok ()), f')) :
    f'.rows = f.rows ∧ f'.emitter = f.emitter ∧ f'.metadata = f.metadata := by
  unfold emitMessage at emitted
  cases wrote : f.writer.write message a.frame with
  | mk outcome writer =>
    rw [wrote] at emitted
    obtain ⟨rfl, rfl⟩ := Prod.mk.inj emitted
    refine ⟨?_, rfl, rfl⟩
    unfold rows
    rw [ProtocolWriter.write_ok wrote, List.filterMap_append]
    simp [other]

end StreamForwarder

namespace StreamRun

variable {d : Deserializers} {a : EventAnswers} {r : StreamRun}

theorem fail_unclean (error : StreamCallbackError) : ¬(r.fail error).2.Clean := by
  rintro ⟨none, -⟩
  cases none

theorem onEvent_clean {value : String} (clean : (r.onEvent d a value).2.Clean) :
    r.Clean ∧ ∃ event forwarder, parseRowEnvelope d value = .ok event ∧
      r.forwarder.emit event a = (.returned (.ok ()), forwarder) ∧
      (r.onEvent d a value).2 = { r with forwarder } := by
  unfold onEvent at clean ⊢
  by_cases failed : r.rowError.isSome
  · rw [if_pos failed] at clean
    rw [clean.1] at failed
    cases failed
  · rw [if_neg failed] at clean ⊢
    cases parsed : parseRowEnvelope d value with
    | error message =>
      rw [parsed] at clean
      exact absurd clean (fail_unclean _)
    | ok event =>
      rw [parsed] at clean
      dsimp only at clean ⊢
      by_cases poisoned : r.poisoned
      · rw [if_pos poisoned] at clean
        exact absurd clean (fail_unclean _)
      · rw [if_neg poisoned] at clean ⊢
        cases emitted : r.forwarder.emit event a with
        | mk outcome forwarder =>
          rw [emitted] at clean
          cases outcome with
          | panicked =>
            obtain ⟨-, sound⟩ := clean
            cases sound
          | returned result =>
            cases result with
            | error => exact absurd clean (fail_unclean _)
            | ok =>
              exact ⟨clean, event, forwarder, rfl, emitted, rfl⟩

/-- What the frames of the request have come to, as long as nothing has gone wrong. -/
structure Faithful (d : Deserializers) (r : StreamRun) : Prop where
  rows : r.forwarder.rows.map DataRow.pending = r.pendingRows d
  numbered : KeyTable.Numbered u64Max (r.forwarder.rows.map DataRow.numbered)
  sequences : KeyTable.Counts u64Max r.forwarder.emitter.sequences
    (r.forwarder.rows.map DataRow.stream)
  count : r.forwarder.emitter.count = min r.forwarder.rows.length u64Max
  metadata : r.forwarder.metadata = ((r.events d).filterMap StreamCallbackEvent.metadata?).getLast?

theorem Faithful.event (faithful : r.Faithful d) {payload : CallbackPayload}
    {event : StreamCallbackEvent} (event? : payload.event? d = some event)
    {forwarder : StreamForwarder}
    (emitted : r.forwarder.emit event a = (.returned (.ok ()), forwarder)) :
    Faithful d { r with forwarder, emitted := r.emitted ++ [payload] } := by
  have events : ({ r with forwarder, emitted := r.emitted ++ [payload] } : StreamRun).events d =
      r.events d ++ [event] := by
    simp [StreamRun.events, event?]
  have unchanged (sameRows : forwarder.rows = r.forwarder.rows)
      (sameEmitter : forwarder.emitter = r.forwarder.emitter) (noRow : event.row? = none)
      (metadata : forwarder.metadata =
        ((r.events d ++ [event]).filterMap StreamCallbackEvent.metadata?).getLast?) :
      Faithful d { r with forwarder, emitted := r.emitted ++ [payload] } := by
    constructor
    · rw [pendingRows, events, List.filterMap_append, sameRows, faithful.rows]
      simp [pendingRows, noRow]
    · rw [sameRows]
      exact faithful.numbered
    · rw [sameRows, sameEmitter]
      exact faithful.sequences
    · rw [sameRows, sameEmitter]
      exact faithful.count
    · rw [events]
      exact metadata
  cases event with
  | row pending =>
    obtain ⟨rows, emitter, metadata⟩ := StreamForwarder.emitRow_ok emitted
    have known : (r.forwarder.rows.map DataRow.numbered).map Prod.fst =
        r.forwarder.rows.map DataRow.stream := by
      rw [List.map_map]
      rfl
    constructor
    · rw [pendingRows, events, List.filterMap_append, rows, List.map_append, faithful.rows]
      rfl
    · rw [rows, List.map_append]
      exact faithful.numbered.next (known ▸ faithful.sequences) pending.stream
    · rw [rows, emitter, List.map_append]
      exact faithful.sequences.bumped pending.stream
    · rw [rows, emitter, List.length_append]
      show saturatingAdd r.forwarder.emitter.count 1 = _
      rw [faithful.count, saturatingAdd]
      generalize u64Max = limit
      simp only [List.length_singleton]
      omega
    · rw [events, metadata, faithful.metadata, List.filterMap_append]
      exact congrArg List.getLast? (List.append_nil _).symm
  | diagnostic diagnostic =>
    obtain ⟨rows, emitter, metadata⟩ := StreamForwarder.emitMessage_ok rfl emitted
    apply unchanged rows emitter rfl
    rw [metadata, faithful.metadata, List.filterMap_append]
    exact congrArg List.getLast? (List.append_nil _).symm
  | progress tick =>
    obtain ⟨rows, emitter, metadata⟩ := StreamForwarder.emitMessage_ok rfl emitted
    apply unchanged rows emitter rfl
    rw [metadata, faithful.metadata, List.filterMap_append]
    exact congrArg List.getLast? (List.append_nil _).symm
  | metadata value =>
    obtain rfl := (Prod.mk.inj emitted).2
    apply unchanged rfl rfl rfl
    rw [List.filterMap_append]
    exact List.getLast?_concat.symm

theorem trampoline_faithful {payload : CallbackPayload} (so_far : r.Clean → r.Faithful d)
    (clean : (r.trampoline d a payload).2.Clean) :
    (r.trampoline d a payload).2.Faithful d := by
  unfold trampoline at clean ⊢
  dsimp only at clean ⊢
  cases text : decodeStringPayload payload with
  | none =>
    rw [text] at clean
    have missing : payload.event? d = none := by rw [CallbackPayload.event?, text]; rfl
    have events : ({ r with emitted := r.emitted ++ [payload] } : StreamRun).events d =
        r.events d := by
      simp [StreamRun.events, missing]
    have faithful := so_far clean
    constructor
    · rw [pendingRows, events]
      exact faithful.rows
    · exact faithful.numbered
    · exact faithful.sequences
    · exact faithful.count
    · rw [events]
      exact faithful.metadata
  | some value =>
    rw [text] at clean
    obtain ⟨before, event, forwarder, parsed, emitted, after⟩ := onEvent_clean clean
    have event? : payload.event? d = some event := by
      rw [CallbackPayload.event?, text, Option.bind_some, parsed]
      rfl
    dsimp only
    rw [after]
    exact (so_far before).event event? emitted

end StreamRun

namespace StreamExport

theorem call_faithful {d : Deserializers} (e : StreamExport) {r : StreamRun}
    (so_far : r.Clean → r.Faithful d) :
    (e.call d r).2.Clean → (e.call d r).2.Faithful d := by
  induction e generalizing r with
  | returns status => exact so_far
  | emits payload a next ih =>
    intro clean
    exact ih _ (fun _ => StreamRun.trampoline_faithful so_far ‹_›) clean

end StreamExport

/-- The frames of the request are the rows of its payloads, and the sequence numbers and counters
count them, where a counter shows `number n` for the number `n`. -/
structure StreamSummary.Accounts (summary : StreamSummary) (d : Deserializers) (r : StreamRun)
    (number : Nat → Nat) : Prop where
  rows : r.forwarder.rows.map DataRow.pending = r.pendingRows d
  sequences : ∀ stream, (r.forwarder.rows.filter fun row => row.stream = stream).map
    DataRow.sequence =
      (List.range (r.forwarder.rows.filter fun row => row.stream = stream).length).map number
  total : summary.totalRows = number r.forwarder.rows.length
  sorted : KeyTable.Sorted summary.perStreamCounts
  perStream : ∀ stream n, (stream, n) ∈ summary.perStreamCounts ↔
    stream ∈ r.forwarder.rows.map DataRow.stream ∧
      n = number (r.forwarder.rows.filter fun row => row.stream = stream).length

theorem rows_filter_length (rows : List DataRow) (stream : String) :
    (rows.filter fun row => row.stream = stream).length = (rows.map DataRow.stream).count stream :=
  by
    rw [List.count_eq_countP, List.countP_map, List.countP_eq_length_filter]
    rfl

theorem rows_sequences (rows : List DataRow) (stream : String) :
    (rows.filter fun row => row.stream = stream).map DataRow.sequence =
      ((rows.map DataRow.numbered).filter fun entry => entry.1 = stream).map Prod.snd := by
  rw [List.filter_map, List.map_map]
  rfl

theorem StreamRun.Faithful.accounts {d : Deserializers} {r : StreamRun} (faithful : r.Faithful d)
    (elapsedMicros : Nat) : (r.forwarder.summary elapsedMicros).Accounts d r (min · u64Max) where
  rows := faithful.rows
  sequences := by
    intro stream
    rw [rows_sequences, faithful.numbered stream, rows_filter_length, List.map_map]
    rfl
  total := faithful.count
  sorted := faithful.sequences.sorted
  perStream := by
    intro stream n
    rw [rows_filter_length]
    exact faithful.sequences.mem_iff

theorem StreamRun.conclude_ok {r : StreamRun} {status : UInt8} {elapsedMicros : Nat}
    {summary : StreamSummary} (concluded : r.conclude status elapsedMicros = .ok summary) :
    r.Clean ∧ summary = r.forwarder.summary elapsedMicros := by
  unfold conclude at concluded
  split at concluded
  · cases concluded
  · cases concluded
  · rename_i noError
    split at concluded
    · split at concluded
      · cases concluded
      · rename_i sound
        cases concluded
        exact ⟨⟨noError, Bool.eq_false_iff.mpr sound⟩, rfl⟩
    · cases concluded
    · cases concluded

theorem StreamRun.start_faithful (d : Deserializers) (writer : ProtocolWriter) (progress : Bool)
    (quiet : writer.written.filterMap Message.dataRow? = []) :
    Faithful d ⟨.new writer progress, false, none, []⟩ where
  rows := congrArg (List.map DataRow.pending) quiet
  numbered := by
    show KeyTable.Numbered u64Max ((writer.written.filterMap Message.dataRow?).map DataRow.numbered)
    rw [quiet]
    exact fun _ => rfl
  sequences := by
    show KeyTable.Counts u64Max [] ((writer.written.filterMap Message.dataRow?).map DataRow.stream)
    rw [quiet]
    exact KeyTable.Counts.start
  count := by
    show 0 = min (writer.written.filterMap Message.dataRow?).length u64Max
    rw [quiet]
    rfl
  metadata := rfl

theorem runDataStream_ok {d : Deserializers} {progress : Bool} {writer : ProtocolWriter}
    {a : DataStreamAnswers} {summary : StreamSummary} {r : StreamRun}
    (returned : runDataStream d progress writer a = (.ok summary, r)) :
    r.Faithful d ∧ summary = r.forwarder.summary a.elapsedMicros := by
  unfold runDataStream at returned
  dsimp only at returned
  have quiet : (if progress then (({ writer with written := [] } : ProtocolWriter).write
      (.progressTick ⟨"data_stream", 0, none⟩) (.returns a.opening)).2
      else { writer with written := [] }).written.filterMap Message.dataRow? = [] := by
    split
    · exact StreamForwarder.tick_rows _ _ _
    · rfl
  generalize (if progress then (({ writer with written := [] } : ProtocolWriter).write
      (.progressTick ⟨"data_stream", 0, none⟩) (.returns a.opening)).2
      else { writer with written := [] }) = opened at returned quiet
  have start := StreamRun.start_faithful d opened progress quiet
  have faithful := a.streamExport.call_faithful fun _ => start
  split at returned
  · cases returned
  · split at returned
    · cases returned
    · split at returned
      · cases returned
      · rename_i status r' called
        rw [called] at faithful
        obtain ⟨concluded, rfl⟩ := Prod.mk.inj returned
        obtain ⟨clean, same⟩ := StreamRun.conclude_ok concluded
        exact ⟨faithful clean, same⟩

/-- A summary is only returned when the frames of the request are exactly the rows that the export
has emitted, numbered stream by stream, and then it counts them. -/
theorem data_stream_integrity (d : Deserializers) (progress : Bool) (writer : ProtocolWriter)
    (a : DataStreamAnswers) {summary : StreamSummary} {r : StreamRun}
    (returned : runDataStream d progress writer a = (.ok summary, r)) :
    summary.Accounts d r (min · u64Max) := by
  obtain ⟨faithful, rfl⟩ := runDataStream_ok returned
  exact faithful.accounts a.elapsedMicros

def rowText : String := "\x7b\"stream\":\"rows\",\"payload\":1\x7d"

def rowDeserializers : Deserializers where
  envelope raw := if raw = rowText then .ok ⟨some "rows", some "1", none, none, none⟩
    else .error "expected value at line 1 column 1"
  value _ := .error "expected value at line 1 column 1"

def goodFrame : FrameAnswers := ⟨.ok 100, .ok (), .ok (), .ok ()⟩

def rowsExport : Nat → StreamExport
  | 0 => .returns (.ok 0)
  | n + 1 => .emits (.string rowText.toUTF8) ⟨.returns goodFrame, .returns goodFrame⟩
      fun _ => rowsExport n

def roomyWriter : ProtocolWriter := ⟨1024, false, []⟩

def rowsAnswers (n : Nat) : DataStreamAnswers := ⟨goodFrame, .ok (), .ok (), rowsExport n, 7⟩

theorem decode_rowText : decodeStringPayload (.string rowText.toUTF8) = some rowText := by
  simp only [decodeStringPayload, String.fromUTF8?, String.toUTF8_eq_toByteArray,
    rowText.isValidUTF8, dite_true]
  rfl

namespace StreamRun

structure Ready (r : StreamRun) : Prop where
  clean : r.Clean
  quiet : r.forwarder.progress = false
  roomy : r.forwarder.writer.maxFrameBytes = 1024
  sound : r.forwarder.writer.poisoned = false

theorem Ready.row {r : StreamRun} (ready : r.Ready) :
    let next := (r.trampoline rowDeserializers ⟨.returns goodFrame, .returns goodFrame⟩
      (.string rowText.toUTF8)).2
    next.Ready ∧ next.forwarder.rows.length = r.forwarder.rows.length + 1 := by
  obtain ⟨⟨⟨maxFrameBytes, poisoned, written⟩, emitter, progress, metadata⟩, lost, rowError,
    emitted⟩ := r
  obtain ⟨⟨noError, whole⟩, quiet, roomy, sound⟩ := ready
  dsimp only at noError whole quiet roomy sound
  subst noError whole quiet roomy sound
  unfold trampoline
  rw [decode_rowText]
  constructor
  · exact ⟨⟨rfl, rfl⟩, rfl, rfl, rfl⟩
  · show ((written ++ [_]).filterMap Message.dataRow?).length = _
    rw [List.filterMap_append, List.length_append]
    rfl

theorem Ready.rows {r : StreamRun} (ready : r.Ready) (n : Nat) :
    let after := (rowsExport n).call rowDeserializers r
    after.1 = .ok 0 ∧ after.2.Ready ∧
      after.2.forwarder.rows.length = r.forwarder.rows.length + n := by
  induction n generalizing r with
  | zero => exact ⟨rfl, ready, rfl⟩
  | succ n ih =>
    obtain ⟨next, more⟩ := ready.row
    obtain ⟨returned, after, total⟩ := ih next
    exact ⟨returned, after, total.trans (by omega)⟩

end StreamRun

theorem rowsExport_returns (n : Nat) : ∃ summary r,
    runDataStream rowDeserializers false roomyWriter (rowsAnswers n) = (.ok summary, r) ∧
      r.forwarder.rows.length = n := by
  have ready : StreamRun.Ready ⟨.new roomyWriter false, false, none, []⟩ :=
    ⟨⟨rfl, rfl⟩, rfl, rfl, rfl⟩
  obtain ⟨returned, after, total⟩ := ready.rows n
  generalize called : (rowsExport n).call rowDeserializers
    ⟨.new roomyWriter false, false, none, []⟩ = result at returned after total
  obtain ⟨status, r⟩ := result
  dsimp only at returned after total
  subst returned
  refine ⟨r.forwarder.summary 7, r, ?_, total.trans (Nat.zero_add n)⟩
  have concluded : r.conclude 0 7 = .ok (r.forwarder.summary 7) := by
    unfold StreamRun.conclude
    rw [after.clean.1, after.clean.2]
    rfl
  have opened : (rowsAnswers n).streamExport.call rowDeserializers
      ⟨.new { roomyWriter with written := [] } false, false, none, []⟩ = (.ok 0, r) := called
  simp only [runDataStream, Bool.false_eq_true, if_false, opened]
  exact Prod.ext concluded rfl

/-- Two rows go through. -/
theorem two_rows_accounted : ∃ summary r,
    runDataStream rowDeserializers false roomyWriter (rowsAnswers 2) = (.ok summary, r) ∧
      r.forwarder.rows.length = 2 ∧ summary.Accounts rowDeserializers r (min · u64Max) := by
  obtain ⟨summary, r, returned, total⟩ := rowsExport_returns 2
  exact ⟨summary, r, returned, total, data_stream_integrity _ _ _ _ returned⟩

/-- A counter stops at its greatest number, one row too early. -/
theorem row_count_saturates :
    ¬∀ (d : Deserializers) (progress : Bool) (writer : ProtocolWriter) (a : DataStreamAnswers)
      (summary : StreamSummary) (r : StreamRun),
      runDataStream d progress writer a = (.ok summary, r) → summary.Accounts d r id := by
  intro exact
  obtain ⟨summary, r, returned, total⟩ := rowsExport_returns (u64Max + 1)
  have all := (exact _ _ _ _ _ _ returned).total
  obtain ⟨faithful, rfl⟩ := runDataStream_ok returned
  have counted : (r.forwarder.summary (rowsAnswers (u64Max + 1)).elapsedMicros).totalRows =
      min r.forwarder.rows.length u64Max := faithful.count
  rw [counted, total] at all
  have less : u64Max + 1 ≤ u64Max := Nat.le_trans (Nat.le_of_eq all.symm) (Nat.min_le_right _ _)
  exact absurd less (Nat.not_succ_le_self _)

end LeanRs
