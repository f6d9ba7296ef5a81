import LeanRs.Child.ServeLoop

/-! What the child puts on its output pipe: for each frame that it reads, events that the request
allows and then one response of a kind that answers it. -/
namespace LeanRs

open Procedures Procedure

namespace Message

/-- A tick of the phase, for a request that asked for ticks, within its total. -/
def ticks (phase : String) (progress : Bool) : Message → Bool
  | .progressTick tick => progress && tick.phase == phase && tick.total.all (tick.current ≤ ·)
  | _ => false

def rowOf (streams : List String) : Message → Bool
  | .dataRow row => streams.contains row.stream
  | _ => false

def isEvent : Message → Bool
  | .diagnostic _ | .progressTick _ | .dataRow _ => true
  | _ => false

end Message

namespace Request

/-- The frames that may come before the response. What a stream emits is the export's choice. -/
def emits : Request → Message → Bool
  | .kernelCheck _ _ progress => Message.ticks "kernel_check" progress
  | .declarationKinds _ progress => Message.ticks "declaration_kind_bulk" progress
  | .declarationNames _ progress => Message.ticks "declaration_name_bulk" progress
  | .attemptProof _ _ progress => Message.ticks "attempt_proof" progress
  | .verifyDeclaration _ _ progress => Message.ticks "verify_declaration" progress
  | .verifyDeclarationBatch _ _ _ progress => Message.ticks "verify_declaration_batch" progress
  | .describeBulk _ progress => Message.ticks "describe_bulk" progress
  | .listDeclarationsStrings _ progress => fun message =>
    message.ticks "list_declarations_strings" progress || message.rowOf ["rows"]
  | .runDataStream _ _ _ => Message.isEvent
  | .emitTestRows streams => Message.rowOf streams
  | .emitTestRowsThenExit | .emitTestRowsThenPanic => Message.rowOf ["rows"]
  | _ => fun _ => false

/-- The responses that the request can get. An error answers every request. -/
def answeredBy : Request → Response → Bool
  | _, .error _ _ => true
  | .health, .healthOk => true
  | .loadFixtureCapability _, .capabilityLoaded => true
  | .callFixtureMul _ _ _, .u64 _ => true
  | .openHostSession _ _ _ _, .hostSessionOpened _ => true
  | .openHostSession _ _ _ _, .hostSessionReused _ => true
  | .elaborate _ _, .elaboration _ => true
  | .kernelCheck _ _ _, .kernelCheck _ => true
  | .declarationKinds _ _, .strings _ => true
  | .declarationNames _ _, .strings _ => true
  | .runDataStream _ _ _, .streamComplete _ => true
  | .runDataStream _ _ _, .streamExportFailed _ => true
  | .runDataStream _ _ _, .streamCallbackFailed _ _ => true
  | .runDataStream _ _ _, .streamRowMalformed _ => true
  | .capabilityMetadata _ _, .capabilityMetadata _ => true
  | .capabilityMetadata _ _, .capabilityMetadataMalformed _ => true
  | .capabilityDoctor _ _, .capabilityDoctor _ => true
  | .capabilityDoctor _ _, .capabilityDoctorMalformed _ => true
  | .jsonCommand _ _, .jsonCommand _ => true
  | .inferType _ _, .metaExpr _ => true
  | .whnf _ _, .metaExpr _ => true
  | .isDefEq _ _ _ _, .metaBool _ => true
  | .describe _, .declaration _ => true
  | .searchDeclarations _, .declarationSearch _ => true
  | .declarationType _ _, .declarationType _ => true
  | .inspectDeclaration _, .declarationInspection _ => true
  | .attemptProof _ _ _, .proofAttempt _ => true
  | .verifyDeclaration _ _ _, .declarationVerification _ => true
  | .verifyDeclarationBatch _ _ _ _, .declarationVerificationBatch _ => true
  | .listDeclarationsStrings _ _, .rowsComplete _ => true
  | .describeBulk _ _, .declarationBulk _ => true
  | .processModuleQuery _ _ _, .processModuleQuery _ => true
  | .processModuleQueryBatch _ _ _ _, .processModuleQueryBatch _ => true
  | .clearModuleSnapshotCache, .moduleSnapshotCacheCleared _ => true
  | .emitTestRows _, .rowsComplete _ => true
  | .terminate, .terminating => true
  | _, _ => false

@[simp] theorem answeredBy_error (r : Request) (code message : String) :
    r.answeredBy (.error code message) = true := by cases r <;> rfl

end Request

def Response.isError : Response → Bool
  | .error _ _ => true
  | _ => false

namespace Message

def emits : Message → Message → Bool
  | .request r => r.emits
  | _ => fun _ => false

def answeredBy : Message → Response → Bool
  | .request r => r.answeredBy
  | _ => Response.isError

end Message

namespace Answered

def Partial (g : Answered) : Prop := ∀ m ∈ g.written, g.frame.emits m = true

/-- Events that the frame allows, and then its response. -/
def Complete (g : Answered) : Prop :=
  ∃ events response, g.written = events ++ [.response response] ∧
    (∀ m ∈ events, g.frame.emits m = true) ∧ g.frame.answeredBy response = true

end Answered

namespace ProtocolWriter

theorem write_tooLarge {w w' : ProtocolWriter} {message : Message} {a : FrameWriteAnswer}
    {len max : Nat}
    (wrote : w.write message a = (.returned (.error (.frameTooLarge len max)), w')) : w' = w := by
  unfold write at wrote
  split at wrote
  · cases wrote
  · cases a with
    | panics => cases wrote
    | returns a =>
      obtain ⟨result, rfl⟩ := Prod.mk.inj wrote
      have refused : writeFrame w.maxFrameBytes a = .error (.frameTooLarge len max) :=
        Outcome.returned.inj result
      cases handed : handOver w.maxFrameBytes a with
      | error err => rfl
      | ok _ =>
        unfold writeFrame at refused
        rw [handed] at refused
        cases flushed : a.flush <;> rw [flushed] at refused <;> cases refused

end ProtocolWriter

/-- From `s` to `t` the child writes frames that are allowed, and no other. -/
def Emits (allowed : Message → Bool) (s t : Serving) : Prop :=
  ∃ new, t.writer.written = s.writer.written ++ new ∧ ∀ m ∈ new, allowed m = true

namespace Emits

variable {allowed : Message → Bool} {s t : Serving}

theorem ofSame (same : t.writer.written = s.writer.written) : Emits allowed s t :=
  ⟨[], by rw [same, List.append_nil], nofun⟩

theorem ofOne {m : Message} (one : allowed m = true)
    (more : t.writer.written = s.writer.written ∨ t.writer.written = s.writer.written ++ [m]) :
    Emits allowed s t := by
  obtain same | more := more
  · exact ofSame same
  · refine ⟨[m], more, fun m' member => ?_⟩
    rw [List.mem_singleton.mp member]
    exact one

end Emits

section

variable {allowed : Message → Bool}

instance : Std.Refl (Emits allowed) := ⟨fun _ => .ofSame rfl⟩

instance : IsTrans Serving (Emits allowed) := ⟨by
  rintro s t u ⟨new, grown, all⟩ ⟨new', grown', all'⟩
  refine ⟨new ++ new', by rw [grown', grown, List.append_assoc], fun m member => ?_⟩
  exact (List.mem_append.mp member).elim (all m) (all' m)⟩

theorem put_written (message : Message) (a : FrameWriteAnswer) (s : Serving) :
    (put message a s).state.writer.written = s.writer.written ∨
      (put message a s).state.writer.written = s.writer.written ++ [message] := by
  have wrote := s.writer.write_written message a
  unfold put
  cases outcome : s.writer.write message a with
  | mk result writer =>
    rw [outcome] at wrote
    cases result <;> exact wrote

theorem put_cases (message : Message) (a : FrameWriteAnswer) (s : Serving) :
    (∃ t, put message a s = .returned (.ok ()) t ∧
      t.writer.written = s.writer.written ++ [message]) ∨
    (∃ len max, put message a s = .returned (.error (.frameTooLarge len max)) s) ∨
    (∃ err t, put message a s = .returned (.error err) t ∧
      (∀ len max, err ≠ .frameTooLarge len max) ∧
      (t.writer.written = s.writer.written ∨ t.writer.written = s.writer.written ++ [message])) ∨
    ∃ t, put message a s = .raised .died t ∧
      (t.writer.written = s.writer.written ∨ t.writer.written = s.writer.written ++ [message]) := by
  have written := put_written message a s
  unfold put at written ⊢
  cases wrote : s.writer.write message a with
  | mk outcome writer =>
    rw [wrote] at written
    cases outcome with
    | panicked text => exact .inr (.inr (.inr ⟨_, rfl, written⟩))
    | returned result =>
      cases result with
      | ok _ => exact .inl ⟨_, rfl, ProtocolWriter.write_ok wrote⟩
      | error err =>
        cases err with
        | frameTooLarge len max =>
          obtain rfl := ProtocolWriter.write_tooLarge wrote
          exact .inr (.inl ⟨len, max, rfl⟩)
        | io _ => exact .inr (.inr (.inl ⟨_, _, rfl, nofun, written⟩))
        | json _ => exact .inr (.inr (.inl ⟨_, _, rfl, nofun, written⟩))
        | versionMismatch _ _ => exact .inr (.inr (.inl ⟨_, _, rfl, nofun, written⟩))

theorem put_ends (message : Message) (a : FrameWriteAnswer) : Ends (put message a) := by
  intro s
  rcases put_cases message a s with
    ⟨t, wrote, -⟩ | ⟨len, max, wrote⟩ | ⟨err, t, wrote, -, -⟩ | ⟨t, wrote, -⟩ <;>
  · rw [wrote]
    rfl

theorem put_moves {message : Message} (may : allowed message = true) (a : FrameWriteAnswer) :
    Moves (Emits allowed) (put message a) := fun s => .ofOne may (put_written message a s)

theorem CallAnswer.run_moves {A : Type} (a : CallAnswer A) : Moves (Emits allowed) a.run := by
  cases a with
  | returns a => exact .pure a
  | dies => exact .raise _
  | hangs => exact .wait

theorem orEnd_ends {A : Type} (result : Except ProtocolError A) : Ends (orEnd result) := by
  cases result with
  | ok a => exact .pure a
  | error err => exact .raise _

theorem orEnd_moves {A : Type} (result : Except ProtocolError A) :
    Moves (Emits allowed) (orEnd result) := by
  cases result with
  | ok a => exact .pure a
  | error err => exact .raise _

namespace ServeLoop

variable {a : HostAnswers} {w : PipeAnswers} {progress : Bool}

theorem tryThen_moves {E A B : Type} {m : Handling (Except E A)} {f : A → Handling (Except E B)}
    (first : Moves (Emits allowed) m) (next : ∀ x, Moves (Emits allowed) (f x)) :
    Moves (Emits allowed) (tryThen m f) := by
  refine .bind first fun result => ?_
  cases result with
  | ok x => exact next x
  | error err => exact .pure _

theorem emitProgress_moves {phase : String} {current : Nat} {total : Option Nat}
    (may : allowed (.progressTick ⟨phase, current, total⟩) = true) (answer : FrameWriteAnswer) :
    Moves (Emits allowed) (emitProgress phase current total answer) :=
  .bind (put_moves may answer) fun _ => .pure _

theorem tickIf_moves {phase : String} {current : Nat} {total : Option Nat}
    (may : progress = true → allowed (.progressTick ⟨phase, current, total⟩) = true)
    (answer : FrameWriteAnswer) :
    Moves (Emits allowed) (tickIf progress phase current total answer) :=
  .choose (fun asked => emitProgress_moves (may asked) answer) fun _ => .pure _

theorem bracketed_moves {A B : Type} {phase : String} {call : CallAnswer (Except LeanError A)}
    {finish : A → Handling (Except LeanError B)}
    (may : ∀ m, Message.ticks phase progress m = true → allowed m = true)
    (next : ∀ x, Moves (Emits allowed) (finish x)) :
    Moves (Emits allowed) (bracketed phase progress w call finish) := by
  refine .bind (tickIf_moves (fun asked => may _ ?_) _) fun _ =>
    tryThen_moves call.run_moves fun x => .bind (tickIf_moves (fun asked => may _ ?_) _) fun _ =>
      next x
  · simp [Message.ticks, asked]
  · simp [Message.ticks, asked]

theorem wireCount_le {m n : Nat} (le : m ≤ n) : wireCount m ≤ wireCount n := by
  unfold wireCount
  omega

theorem eachItem_moves {phase : String} {total : Nat}
    (may : ∀ m, Message.ticks phase true m = true → allowed m = true) (names : List String)
    (idx : Nat) (within : idx + names.length ≤ total) :
    Moves (Emits allowed) (eachItem phase (wireCount total) a w names idx) := by
  induction names generalizing idx with
  | nil => exact .pure _
  | cons name rest ih =>
    rw [List.length_cons] at within
    refine tryThen_moves (a.item idx).run_moves fun value =>
      .bind (emitProgress_moves (may _ ?_) _) fun _ =>
        tryThen_moves (ih (idx + 1) (by omega)) fun values => .pure _
    have below : wireCount (idx + 1) ≤ wireCount total := wireCount_le (by omega)
    simp [Message.ticks, below]

theorem declarationStrings_moves {phase : String}
    (may : ∀ m, Message.ticks phase progress m = true → allowed m = true) (names : List String) :
    Moves (Emits allowed) (declarationStrings phase names progress a w) := by
  refine .choose (fun asked => eachItem_moves (fun m ticks => may m ?_) names 0 ?_) fun _ =>
    a.strings.run_moves
  · rw [asked]
    exact ticks
  · omega

theorem describeRow_moves (name kind : String) (typed : Bool) (idx : Nat) :
    Moves (Emits allowed) (describeRow a name kind typed idx) := by
  refine .choose (fun _ => .pure _) fun _ => tryThen_moves ?_ fun _ =>
    tryThen_moves (a.sourceRange idx).run_moves fun _ => .pure _
  exact .choose (fun _ => tryThen_moves (a.item idx).run_moves fun _ => .pure _) fun _ => .pure _

theorem describeRows_moves {total : Nat}
    (may : ∀ m, Message.ticks "describe_bulk" progress m = true → allowed m = true)
    (kinds : List String) (types : List Bool) (names : List String) (idx : Nat)
    (within : idx + names.length ≤ total) :
    Moves (Emits allowed)
      (describeRows progress (wireCount total) kinds types a w names idx) := by
  induction names generalizing idx with
  | nil => exact .pure _
  | cons name rest ih =>
    rw [List.length_cons] at within
    refine tryThen_moves (describeRow_moves name _ _ idx) fun row =>
      .bind (tickIf_moves (fun asked => may _ ?_) _) fun _ =>
        tryThen_moves (ih (idx + 1) (by omega)) fun rows => .pure _
    have below : wireCount (idx + 1) ≤ wireCount total := wireCount_le (by omega)
    simp [Message.ticks, asked, below]

theorem describeBulk_moves
    (may : ∀ m, Message.ticks "describe_bulk" progress m = true → allowed m = true)
    (names : List String) : Moves (Emits allowed) (describeBulk names progress a w) :=
  tryThen_moves a.strings.run_moves fun kinds => tryThen_moves a.types.run_moves fun types =>
    describeRows_moves may kinds types names 0 (by omega)

theorem listRows_moves (may : ∀ m, Message.rowOf ["rows"] m = true → allowed m = true)
    (names : List String) (emitter : DataRowEmitter) (idx : Nat) :
    Moves (Emits allowed) (listRows a w names emitter idx) := by
  induction names generalizing emitter idx with
  | nil => exact .pure _
  | cons name rest ih =>
    unfold listRows
    split
    · exact .pure _
    · refine .bind (put_moves (may _ rfl) _) fun result => ?_
      cases result with
      | ok _ => exact ih _ _
      | error err => exact .pure _

theorem listDeclarationsStrings_moves
    (rows : ∀ m, Message.rowOf ["rows"] m = true → allowed m = true)
    (ticks : ∀ m, Message.ticks "list_declarations_strings" progress m = true → allowed m = true) :
    Moves (Emits allowed) (listDeclarationsStrings progress a w) := by
  refine .bind (tickIf_moves (fun asked => ticks _ ?_) _) fun _ =>
    tryThen_moves a.strings.run_moves fun names =>
      tryThen_moves (listRows_moves rows names _ _) fun emitter =>
        .bind (tickIf_moves (fun asked => ticks _ ?_) _) fun _ => .pure _
  · simp [Message.ticks, asked]
  · simp [Message.ticks, asked]

theorem emitTestRows_moves {streams : List String}
    (may : ∀ m, Message.rowOf streams m = true → allowed m = true) (rest : List String)
    (part : ∀ stream ∈ rest, stream ∈ streams) (emitter : DataRowEmitter) (idx : Nat) :
    Moves (Emits allowed) (emitTestRows a w rest emitter idx) := by
  induction rest generalizing emitter idx with
  | nil => exact .pure _
  | cons stream rest ih =>
    have here : stream ∈ streams := part stream List.mem_cons_self
    refine .bind (orEnd_moves _) fun payload => .bind (put_moves (may _ ?_) _) fun result =>
      .bind (orEnd_moves _) fun _ => ih (fun other member => part other (.tail _ member)) _ _
    simp [Message.rowOf, DataRowEmitter.next, here]

end ServeLoop

end

def StreamForwarder.Quiet (f : StreamForwarder) : Prop :=
  ∀ m ∈ f.writer.written, m.isEvent = true

namespace StreamForwarder

variable {f : StreamForwarder} {a : EventAnswers}

theorem quiet_write {w : ProtocolWriter} (quiet : ∀ m ∈ w.written, m.isEvent = true)
    (message : Message) (event : message.isEvent = true) (answer : FrameWriteAnswer) :
    ∀ m ∈ (w.write message answer).2.written, m.isEvent = true := by
  obtain same | more := w.write_written message answer
  · rw [same]
    exact quiet
  · rw [more]
    intro m member
    obtain old | new := List.mem_append.mp member
    · exact quiet m old
    · rw [List.mem_singleton.mp new]
      exact event

theorem emitMessage_quiet (quiet : f.Quiet) {message : Message}
    (event : message.isEvent = true) : (f.emitMessage message a).2.Quiet :=
  quiet_write quiet message event a.frame

theorem emitRow_quiet (quiet : f.Quiet) (row : PendingDataRow) : (f.emitRow row a).2.Quiet := by
  have after := quiet_write quiet (.dataRow (f.emitter.next row.stream row.payload).1) rfl a.frame
  unfold emitRow
  dsimp only
  cases wrote : f.writer.write (.dataRow (f.emitter.next row.stream row.payload).1) a.frame with
  | mk outcome writer =>
    rw [wrote] at after
    split
    · rename_i same
      obtain ⟨-, rfl⟩ := Prod.mk.inj same
      split
      · have ticked := quiet_write after (.progressTick
          ⟨"data_stream", (f.emitter.next row.stream row.payload).2.count, none⟩) rfl a.tick
        split
        · rename_i ticks
          rw [ticks] at ticked
          exact ticked
        · rename_i ticks
          rw [ticks] at ticked
          exact ticked
      · exact after
    · rename_i same
      obtain ⟨-, rfl⟩ := Prod.mk.inj same
      exact after

theorem emit_quiet (quiet : f.Quiet) (event : StreamCallbackEvent) : (f.emit event a).2.Quiet := by
  cases event with
  | row row => exact emitRow_quiet quiet row
  | diagnostic diagnostic => exact emitMessage_quiet quiet rfl
  | progress tick => exact emitMessage_quiet quiet rfl
  | metadata value => exact quiet

end StreamForwarder

namespace StreamRun

variable {d : Deserializers} {a : EventAnswers} {r : StreamRun}

theorem onEvent_quiet (quiet : r.forwarder.Quiet) (value : String) :
    (r.onEvent d a value).2.forwarder.Quiet := by
  unfold onEvent
  split
  · exact quiet
  · split
    · exact quiet
    · rename_i event parsed
      split
      · exact quiet
      · have after := StreamForwarder.emit_quiet (a := a) quiet event
        split
        · rename_i emitted; rw [emitted] at after; exact after
        · rename_i emitted; rw [emitted] at after; exact after
        · rename_i emitted; rw [emitted] at after; exact after

theorem trampoline_quiet (quiet : r.forwarder.Quiet) (payload : CallbackPayload) :
    (r.trampoline d a payload).2.forwarder.Quiet := by
  unfold trampoline
  dsimp only
  split
  · exact quiet
  · exact onEvent_quiet (r := { r with emitted := r.emitted ++ [payload] }) quiet _

end StreamRun

theorem StreamExport.call_quiet {d : Deserializers} (e : StreamExport) {r : StreamRun}
    (quiet : r.forwarder.Quiet) : (e.call d r).2.forwarder.Quiet := by
  induction e generalizing r with
  | returns status => exact quiet
  | emits payload a next ih => exact ih _ (StreamRun.trampoline_quiet quiet payload)

theorem runDataStream_quiet (d : Deserializers) (progress : Bool) (writer : ProtocolWriter)
    (a : DataStreamAnswers) : (runDataStream d progress writer a).2.forwarder.Quiet := by
  have empty : ∀ m ∈ ({ writer with written := [] } : ProtocolWriter).written,
      m.isEvent = true := by simp
  have start : (StreamForwarder.new (if progress then
      (({ writer with written := [] } : ProtocolWriter).write
        (.progressTick ⟨"data_stream", 0, none⟩) (.returns a.opening)).2
      else { writer with written := [] }) progress).Quiet := by
    unfold StreamForwarder.Quiet StreamForwarder.new
    split
    · exact StreamForwarder.quiet_write empty _ rfl _
    · exact empty
  unfold runDataStream
  dsimp only
  split
  · exact start
  · split
    · exact start
    · split
      · rename_i r ended
        have same := congrArg Prod.snd ended
        dsimp only at same ⊢
        exact same ▸ StreamExport.call_quiet _ start
      · rename_i r ended
        have same := congrArg Prod.snd ended
        dsimp only at same ⊢
        exact same ▸ StreamExport.call_quiet _ start

namespace ServeLoop

variable {allowed : Message → Bool}

theorem runStream_moves (may : ∀ m, Message.isEvent m = true → allowed m = true)
    (progress : Bool) (a : HostAnswers) : Moves (Emits allowed) (runStream progress a) := by
  intro s
  have quiet := runDataStream_quiet a.deserializers progress s.writer a.stream
  unfold runStream
  dsimp only
  generalize runDataStream a.deserializers progress s.writer a.stream = run at quiet ⊢
  have wrote : Emits allowed s { s with
      writer := { run.2.forwarder.writer with
        written := s.writer.written ++ run.2.forwarder.writer.written } } :=
    ⟨_, rfl, fun m member => may m (quiet m member)⟩
  exact IsTrans.trans _ _ _ wrote
    ((Moves.bind a.streamEnd.run_moves fun _ => .pure _ : Moves (Emits allowed) _) _)

variable {a : HostAnswers} {w : PipeAnswers}

theorem withSession_moves {handler : Handling Response} (moves : Moves (Emits allowed) handler) :
    Moves (Emits allowed) (withSession handler) :=
  .bind .read fun _ => .choose (fun _ => moves) fun _ => .pure _

theorem onSession_moves {A : Type} {ok : A → Response} {method : Handling (Except LeanError A)}
    (moves : Moves (Emits allowed) method) : Moves (Emits allowed) (onSession ok method) :=
  withSession_moves (.map _ moves)

theorem openHostSession_moves (capacity : Nat) (key : HostSessionKey) :
    Moves (Emits allowed) (openHostSession capacity key a) :=
  .bind a.importing.run_moves fun _ _ => .ofSame rfl

theorem respond_moves (capacity : Nat) (request : Request) :
    Moves (Emits request.emits) (respond capacity a w request) := by
  cases request with
  | health => exact .pure _
  | loadFixtureCapability _ => exact .map _ a.loadFixtureCapability.run_moves
  | callFixtureMul _ _ _ => exact .map _ a.callFixtureMul.run_moves
  | triggerLeanPanic _ => exact .map _ a.triggerLeanPanic.run_moves
  | openHostSession _ _ _ _ => exact openHostSession_moves capacity _
  | kernelCheck _ _ _ =>
    refine onSession_moves (bracketed_moves (fun _ ticks => ticks) fun outcome => ?_)
    cases outcome with
    | checked => exact a.summarizeEvidence.run_moves
    | other result => exact .pure _
  | declarationKinds names _ =>
    exact onSession_moves (declarationStrings_moves (fun _ ticks => ticks) names)
  | declarationNames names _ =>
    exact onSession_moves (declarationStrings_moves (fun _ ticks => ticks) names)
  | runDataStream _ _ progress =>
    exact withSession_moves (.map _ (runStream_moves (fun _ event => event) progress a))
  | capabilityMetadata _ _ => exact withSession_moves (.map _ a.capabilityJson.run_moves)
  | capabilityDoctor _ _ => exact withSession_moves (.map _ a.capabilityJson.run_moves)
  | jsonCommand _ _ => exact withSession_moves (.map _ a.jsonCommand.run_moves)
  | describe _ => exact onSession_moves a.optionalRow.run_moves
  | declarationType _ _ => exact onSession_moves a.optionalRow.run_moves
  | attemptProof _ _ _ =>
    exact onSession_moves (bracketed_moves (fun _ ticks => ticks) fun _ => .pure _)
  | verifyDeclaration _ _ _ =>
    exact onSession_moves (bracketed_moves (fun _ ticks => ticks) fun _ => .pure _)
  | verifyDeclarationBatch _ _ _ _ =>
    exact onSession_moves (bracketed_moves (fun _ ticks => ticks) fun _ => .pure _)
  | listDeclarationsStrings _ _ =>
    refine onSession_moves (listDeclarationsStrings_moves (fun _ row => ?_) fun _ ticks => ?_)
    · simp [Request.emits, row]
    · simp [Request.emits, ticks]
  | describeBulk names _ => exact onSession_moves (describeBulk_moves (fun _ ticks => ticks) names)
  | emitTestRows streams =>
    exact .map _ (emitTestRows_moves (fun _ row => row) streams (fun _ member => member) _ _)
  | emitTestRowsThenExit =>
    exact .bind (emitTestRows_moves (fun _ row => row) _ (fun _ member => member) _ _) fun _ =>
      .raise _
  | emitTestRowsThenPanic =>
    exact .bind (emitTestRows_moves (fun _ row => row) _ (fun _ member => member) _ _) fun _ =>
      .raise _
  | terminate => exact .pure _
  | _ => exact onSession_moves a.result.run_moves

section

variable {A : Type} {p : Response → Prop}

def Responds (p : Response → Prop) (m : Handling Response) : Prop :=
  Triple (fun _ => True) m (fun response _ => p response) fun _ _ => True

theorem Responds.map {m : Handling A} {f : A → Response} (kind : ∀ x, p (f x)) :
    Responds p (f <$> m) := by
  intro s _
  show ((m >>= fun x => pure (f x)) s).Meets _ _
  rw [bind_apply]
  cases m s with
  | returned x t => exact kind x
  | raised e t => trivial
  | waiting t => trivial

theorem Responds.withSession {m : Handling Response} (missing : p missingSessionResponse)
    (responds : Responds p m) : Responds p (withSession m) :=
  Triple.after _ fun _ => .choose (fun _ => responds) fun _ => .pure fun _ _ => missing

theorem Responds.onSession {ok : A → Response} {method : Handling (Except LeanError A)}
    (error : ∀ code message, p (.error code message)) (kind : ∀ x, p (ok x)) :
    Responds p (onSession ok method) := by
  refine .withSession (error _ _) (.map fun result => ?_)
  cases result with
  | ok x => exact kind x
  | error err => exact error _ _

theorem Responds.workerCall {ok : A → Response} {m : Handling (Except WorkerCallError A)}
    (error : ∀ code message, p (.error code message)) (kind : ∀ x, p (ok x)) :
    Responds p (workerCallResponse ok <$> m) := by
  refine .map fun result => ?_
  cases result with
  | ok x => exact kind x
  | error err => cases err <;> exact error _ _

theorem Responds.capabilityJson {ok : JsonText → Response} {malformed : String → Response}
    {m : Handling (Except CapabilityJsonError JsonText)}
    (error : ∀ code message, p (.error code message)) (kind : ∀ text, p (ok text))
    (other : ∀ message, p (malformed message)) :
    Responds p (capabilityJsonResponse ok malformed <$> m) := by
  refine .map fun result => ?_
  cases result with
  | ok text => exact kind text
  | error err =>
    cases err with
    | malformed message => exact other message
    | host _ => exact error _ _
    | binding _ => exact error _ _

end

theorem openHostSession_responds (capacity : Nat) (projectRoot : String) (mode : HostSessionMode)
    (imports : List String) (importProfile : LeanWorkerSessionImportProfile) :
    Responds (fun response => Request.answeredBy
        (.openHostSession projectRoot mode imports importProfile) response = true)
      (openHostSession capacity ⟨projectRoot, mode, imports, importProfile⟩ a) := by
  refine .after _ fun answers s _ => ?_
  show Request.answeredBy _ (s.pool.openOrReuseHostSession capacity _ answers).1 = true
  unfold SessionPool.openOrReuseHostSession
  dsimp only
  split
  · rfl
  · split
    · rfl
    · unfold SessionPool.openHostSession
      dsimp only
      split
      · rfl
      · split <;> rfl

theorem respond_responds (capacity : Nat) (request : Request) :
    Responds (fun response => request.answeredBy response = true)
      (respond capacity a w request) := by
  have error : ∀ code message, request.answeredBy (.error code message) = true := by simp
  cases request with
  | health => exact .pure fun _ _ => rfl
  | loadFixtureCapability _ => exact .map fun result => by cases result <;> rfl
  | callFixtureMul _ _ _ => exact .workerCall error fun _ => rfl
  | triggerLeanPanic _ => exact .workerCall error fun _ => rfl
  | openHostSession _ _ _ _ => exact openHostSession_responds capacity _ _ _ _
  | runDataStream _ _ _ =>
    refine .withSession rfl (.map fun result => ?_)
    cases result with
    | ok summary => rfl
    | error err => cases err <;> rfl
  | capabilityMetadata _ _ =>
    exact .withSession rfl (.capabilityJson error (fun _ => rfl) fun _ => rfl)
  | capabilityDoctor _ _ =>
    exact .withSession rfl (.capabilityJson error (fun _ => rfl) fun _ => rfl)
  | jsonCommand _ _ => exact .withSession rfl (.workerCall error fun _ => rfl)
  | emitTestRows _ => exact .map fun _ => rfl
  | emitTestRowsThenExit => exact .after _ fun _ => .raise fun _ _ => trivial
  | emitTestRowsThenPanic => exact .after _ fun _ => .raise fun _ _ => trivial
  | terminate => exact .pure fun _ _ => rfl
  | _ => exact .onSession error fun _ => rfl

end ServeLoop

end LeanRs
