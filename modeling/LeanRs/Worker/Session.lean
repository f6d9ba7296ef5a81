import LeanRs.Worker.Exhaustion

/-! The session that a caller holds over a worker, and what closes it. A request may replace the
child for many causes; the session looks at the error alone. -/
namespace LeanRs

open Procedures Procedure Supervisor

/-- The worker it borrows, with what has been done to the outside, and whether requests are still
let through. -/
structure LeanWorkerSession where
  world : World
  isOpen : Bool

/-- The errors of the layer above the supervisor. In the source they are further constructors of
the one error type. -/
inductive LeanWorkerSessionError where
  | supervisor (error : LeanWorkerError)
  | unsupportedRequest (operation : String)
  | typedCommandRequestEncode (exportName message : String)
  | typedCommandResponseDecode (exportName message : String)
  | typedCommandRowDecode (exportName stream : String) (sequence : Nat) (message : String)
  | typedCommandSummaryDecode (exportName message : String)
  deriving DecidableEq

abbrev SessionProcedure (A : Type) := Procedure LeanWorkerSession LeanWorkerSessionError A

def LeanWorkerError.interrupts : LeanWorkerError → Bool
  | .cancelled _ _ | .timeout _ _ _ => true
  | _ => false

def LeanWorker.attachOpenSession (w : LeanWorker) : LeanWorkerSession := ⟨⟨w, []⟩, true⟩

def ensureOpen : SessionProcedure Unit := do
  let s ← read
  if s.isOpen then pure () else raise (.unsupportedRequest "worker_session_invalidated")

/-- The supervisor's part of a request, and the session with what it left of the worker. -/
def onWorker {A : Type} (f : Supervisor A) : SessionProcedure A := fun s =>
  match f s.world with
  | .returned a t => .returned a { s with world := t }
  | .raised e t => .raised (.supervisor e) { world := t, isOpen := s.isOpen && !e.interrupts }
  | .waiting t => .waiting { s with world := t }

def withSession {A : Type} (f : Supervisor A) : SessionProcedure A := do
  ensureOpen
  onWorker f

section

variable {A : Type}

def orRaise (failure : String → LeanWorkerSessionError) : Except String A → SessionProcedure A
  | .ok a => pure a
  | .error text => raise (failure text)

def runJsonCommand (exportName : String) (requestJson : Except String JsonText)
    (decode : JsonText → Except String A) (progress : Bool) (a : RequestAnswers) :
    SessionProcedure A := do
  let text ← orRaise (.typedCommandRequestEncode exportName) requestJson
  let response ← withSession (workerJsonCommand progress exportName text a)
  orRaise (.typedCommandResponseDecode exportName) (decode response)

def TurnAnswers.rowFails (decode : JsonText → Except String A) (a : TurnAnswers) : Bool :=
  match a.received with
  | .event (.frame (.dataRow row)) _ =>
    match decode row.payload with
    | .ok _ => false
    | .error _ => true
  | _ => false

/-- `TypedRawDataSink`: a row that does not decode sets the cancellation token for good, and is not
handed on. -/
def typedTurns (decode : JsonText → Except String A) : Bool → List TurnAnswers → List TurnAnswers
  | _, [] => []
  | failed, a :: rest =>
    { a with
      cancelled := a.cancelled || failed || a.rowFails decode
      sink := if a.rowFails decode then .accepted else a.sink } ::
        typedTurns decode (failed || a.rowFails decode) rest

/-- `take_decode_error`: of the rows that were delivered, the last that did not decode. -/
def takeDecodeError (exportName : String) (decode : JsonText → Except String A)
    (effects : List Effect) : Option LeanWorkerSessionError :=
  effects.foldl (fun found e =>
    match e with
    | .deliver (.row row) =>
      match decode row.payload with
      | .ok _ => found
      | .error text => some (.typedCommandRowDecode exportName row.stream row.sequence text)
    | _ => found) none

/-- `run_streaming_command`. Its request is rendered twice, as a value and then as text. -/
def runStreamingCommand {B : Type} (exportName : String) (requestValue : Except String Unit)
    (requestJson : Except String JsonText) (decodeRow : JsonText → Except String A)
    (decodeSummary : JsonText → Except String B) (diagnostics progress : Bool)
    (a : RequestAnswers) : SessionProcedure (StreamSummary × Option B) := do
  orRaise (.typedCommandRequestEncode exportName) requestValue
  let before ← read
  let result ← capture (withSession (workerRunDataStream progress exportName requestJson .raw
    diagnostics { a with turns := typedTurns decodeRow false a.turns }))
  let after ← read
  let decodeError := takeDecodeError exportName decodeRow
    (after.world.effects.drop before.world.effects.length)
  match result, decodeError with
  | .ok _, some err => raise err
  | .ok summary, none =>
    match summary.metadata with
    | none => pure (summary, none)
    | some metadata => do
      let decoded ← orRaise (.typedCommandSummaryDecode exportName) (decodeSummary metadata)
      pure (summary, some decoded)
  | .error (.supervisor (.cancelled _ _)), some err => raise err
  | .error (.supervisor (.cancelled _ resource)), none =>
    raise (.supervisor (.cancelled "worker_run_data_stream" resource))
  | .error err, _ => raise err

end

def Op.throughSession : Op → Bool
  | .elaborate _ _ _ _ | .kernelCheck _ _ _ _ | .declarationKinds _ _ _
  | .declarationNames _ _ _ | .inferType _ _ _ _ | .whnf _ _ _ _ | .isDefEq _ _ _ _ _ _
  | .describe _ _ _ | .searchDeclarations _ _ _ | .declarationType _ _ _ _
  | .inspectDeclaration _ _ _ | .attemptProof _ _ _ _ | .describeBulk _ _ _
  | .processModuleQuery _ _ _ _ _ | .clearModuleSnapshotCache _ _ | .capabilityMetadata _ _ _ _
  | .capabilityDoctor _ _ _ _ | .verifyDeclaration _ _ _ _ _ _
  | .verifyDeclarationBatch _ _ _ _ _ _ _ | .processModuleQueryBatch _ _ _ _ _ _ _ _
  | .runDataStream _ _ _ .value _ _ | .listDeclarationsStrings _ _ _ _ => true
  | _ => false

inductive SessionCall where
  | setRequestTimeout (timeout : Duration)
  | request (op : Op) (through : op.throughSession = true)
  | runJsonCommand (exportName : String) (requestJson : Except String JsonText)
      (decode : JsonText → Except String Unit) (progress : Bool) (a : RequestAnswers)
  | runStreamingCommand (exportName : String) (requestValue : Except String Unit)
      (requestJson : Except String JsonText)
      (decodeRow decodeSummary : JsonText → Except String Unit)
      (diagnostics progress : Bool) (a : RequestAnswers)

def SessionCall.sends : SessionCall → Bool
  | .setRequestTimeout _ => false
  | _ => true

def SessionCall.perform : SessionCall → SessionProcedure Unit
  | .setRequestTimeout timeout => onWorker (LeanRs.setRequestTimeout timeout)
  | .request op _ => withSession op.perform
  | .runJsonCommand exportName requestJson decode progress a =>
    LeanRs.runJsonCommand exportName requestJson decode progress a
  | .runStreamingCommand exportName requestValue requestJson decodeRow decodeSummary diagnostics
      progress a => do
    let _ ← LeanRs.runStreamingCommand exportName requestValue requestJson decodeRow decodeSummary
      diagnostics progress a
    pure ()

def LeanWorkerSession.afresh (s : LeanWorkerSession) : LeanWorkerSession :=
  ⟨⟨s.world.worker, []⟩, s.isOpen⟩

/-- The session after a call, with what the call has done to the outside. -/
def LeanWorkerSession.step (s : LeanWorkerSession) (call : SessionCall) :
    Option LeanWorkerSession := (call.perform s.afresh).ended

/-- The cause of a restart that a request makes when it is given up. -/
def LeanWorkerRestartReason.interrupts : LeanWorkerRestartReason → Bool
  | .cancelled _ | .requestTimeout _ _ => true
  | _ => false

/-- The cause of the last restart asked for, and of the last child. -/
abbrev Causes := Option LeanWorkerRestartReason × Option LeanWorkerRestartReason

def Causes.after (causes : Causes) : Effect → Causes
  | .replace reason => (some reason, causes.2)
  | .spawn => (causes.1, causes.1)
  | _ => causes

def causesOf (effects : List Effect) : Causes := effects.foldl Causes.after (none, none)

/-- What the last child that the supervisor asked for was to replace its predecessor for. -/
def startedFor (effects : List Effect) : Option LeanWorkerRestartReason := (causesOf effects).2

theorem causesOf_append (effects : List Effect) (e : Effect) :
    causesOf (effects ++ [e]) = (causesOf effects).after e := by
  rw [causesOf, List.foldl_append]
  rfl

theorem Causes.foldl_stop (new : List Effect) (stop : ∀ e ∈ new, e.ofStop = true)
    (causes : Causes) : new.foldl Causes.after causes = causes := by
  induction new generalizing causes with
  | nil => rfl
  | cons e rest ih =>
    have kept : causes.after e = causes := by
      have stops := stop e List.mem_cons_self
      cases e <;> first | rfl | cases stops
    rw [List.foldl_cons, kept]
    exact ih (fun e member => stop e (.tail _ member)) causes

theorem StopFrame.causes {s t : World} (frame : StopFrame s t) :
    causesOf t.effects = causesOf s.effects := by
  obtain ⟨new, joined, stop⟩ := frame.effects
  rw [joined, causesOf, List.foldl_append]
  exact Causes.foldl_stop new stop _

/-- The child that runs, if any, was not started for an interrupted request since the worker had
generation `g`. -/
def Hosted (g : Nat) (s : World) : Prop :=
  s.worker.generation = g ∨ s.worker.child = none ∨
    ∀ reason, startedFor s.effects = some reason → reason.interrupts = false

theorem Hosted.congr {g : Nat} {s t : World} (hosted : Hosted g s)
    (generation : t.worker.generation = s.worker.generation)
    (child : s.worker.child = none → t.worker.child = none)
    (causes : startedFor t.effects = startedFor s.effects) : Hosted g t := by
  rcases hosted with same | gone | other
  · exact .inl (generation.trans same)
  · exact .inr (.inl (child gone))
  · exact .inr (.inr (by rw [causes]; exact other))

theorem StopFrame.hosted {g : Nat} {s t : World} (frame : StopFrame s t)
    (child : s.worker.child = none → t.worker.child = none) (hosted : Hosted g s) : Hosted g t :=
  hosted.congr (congrArg Ledger.generation frame.ledger) child (congrArg Prod.snd frame.causes)

/-- The child is owned or gone, and it hosts the sessions opened at `g`. -/
def Tended (g : Nat) (s : World) : Prop := Kept s ∧ Hosted g s

/-- An error that closes the session may leave another child. -/
def Closing (g : Nat) (e : LeanWorkerError) (s : World) : Prop :=
  Kept s ∧ (e.interrupts = false → Hosted g s)

theorem shutdownChild_childless (a : ShutdownAnswers) (intent : ShutdownIntent) (s : World)
    (gone : s.worker.child = none) :
    (shutdownChild a intent s).Meets (fun _ t => t.worker.child = none) (fun _ _ => False) := by
  unfold shutdownChild LeanRs.status
  cases recorded : s.worker.lastExit with
  | some exit => simp [recorded, gone]
  | none => simp [recorded, gone]

theorem shutdownChild_hosted {g : Nat} (a : ShutdownAnswers) (intent : ShutdownIntent) :
    Triple (Hosted g) (shutdownChild a intent) (fun _ => Hosted g) (fun _ => Hosted g) := by
  intro s hosted
  have frame := shutdownChild_frame a intent s
  have childless := shutdownChild_childless a intent s
  cases outcome : shutdownChild a intent s with
  | waiting t => trivial
  | raised e t =>
    rw [outcome] at frame childless
    exact frame.hosted (fun gone => (childless gone).elim) hosted
  | returned report t =>
    rw [outcome] at frame childless
    exact frame.hosted childless hosted

theorem spawnReplacement_hosted (config : LeanWorkerConfig) (reason : LeanWorkerRestartReason)
    (a : RestartAnswers) (s : World) (gone : s.worker.child = none) :
    (spawnReplacement config reason a s).Meets
      (fun _ t => startedFor t.effects = (causesOf s.effects).1)
      (fun _ t => t.worker.child = none) := by
  have comes := spawn_comes config a.spawn ⟨{ s.worker.counted
    (fun stats => stats.budgetAdmitted.recordRestart reason) with budget := {} }, s.effects⟩
  have way := spawnReplacement_way config reason a s
  generalize spawnReplacement config reason a s = outcome at way ⊢
  cases way with
  | waiting spawned => trivial
  | failed spawned =>
    rw [spawned] at comes
    obtain ⟨rfl, _, _⟩ := comes
    exact gone
  | started spawned =>
    rw [spawned] at comes
    obtain ⟨rfl, _, _⟩ := comes
    show startedFor (s.effects ++ [.spawn]) = _
    rw [startedFor, causesOf_append]
    rfl

theorem restartWithReason_hosted (reason : LeanWorkerRestartReason) (a : RestartAnswers)
    (g : Nat) :
    Triple (Tended g) (restartWithReason reason a)
      (fun _ t => Kept t ∧ startedFor t.effects = some reason) (fun _ t => Tended g t) := by
  intro s ⟨kept, hosted⟩
  suffices moved : (restartWithReason reason a s).Meets
      (fun _ t => startedFor t.effects = some reason) (fun _ t => Hosted g t) by
    have keeps := restartWithReason_kept reason a s kept
    cases outcome : restartWithReason reason a s with
    | waiting t => trivial
    | returned _ t => rw [outcome] at moved keeps; exact ⟨keeps, moved⟩
    | raised e t => rw [outcome] at moved keeps; exact ⟨keeps.1, moved⟩
  have asked : causesOf (s.effects ++ [.replace reason]) =
      (some reason, startedFor s.effects) := by
    rw [causesOf_append]
    rfl
  have begun : Hosted g
      ⟨s.worker.counted LeanWorkerStats.attempted, s.effects ++ [.replace reason]⟩ :=
    hosted.congr rfl id (by rw [startedFor, asked])
  have stops := shutdownChild_kept a.stop (stopIntent reason)
    ⟨s.worker.counted LeanWorkerStats.attempted, s.effects ++ [.replace reason]⟩
    (kept.congr rfl rfl rfl)
  have hosts := shutdownChild_hosted a.stop (stopIntent reason) _ begun
  have frame := shutdownChild_frame a.stop (stopIntent reason)
    ⟨s.worker.counted LeanWorkerStats.attempted, s.effects ++ [.replace reason]⟩
  have way := restartWithReason_way reason a s
  generalize restartWithReason reason a s = outcome at way ⊢
  cases way with
  | stopping stop => trivial
  | unstopped stop =>
    rw [stop] at hosts
    exact hosts.congr rfl id rfl
  | full stop room =>
    rw [stop] at stops
    exact .inr (.inl stops.1)
  | @admitted report t stop room =>
    rw [stop] at stops frame
    have cause : (causesOf t.effects).1 = some reason := by
      rw [show causesOf t.effects = _ from frame.causes, asked]
    refine (spawnReplacement_hosted s.worker.config reason a _ ?_).weaken
      (fun _ _ started => started.trans cause) fun _ _ gone => .inr (.inl gone)
    exact stops.1

theorem restartWithReason_tended {reason : LeanWorkerRestartReason}
    (other : reason.interrupts = false) (a : RestartAnswers) (g : Nat) :
    Keeping (Tended g) (Closing g) (restartWithReason reason a) :=
  (restartWithReason_hosted reason a g).consequence (fun _ held => held)
    (fun _ _ held => ⟨held.1, .inr (.inr fun _ started =>
      Option.some.inj (held.2.symm.trans started) ▸ other)⟩)
    fun _ _ held => ⟨held.1, fun _ => held.2⟩

theorem tended_status (g : Nat) (answer : TryWait) : Preserves (Tended g) (status answer) := by
  intro s ⟨kept, hosted⟩
  have keeps := status_kept answer s kept
  have frame := status_frame answer s
  have child : s.worker.child = none → (status answer s).state.worker.child = none := by
    intro gone
    unfold status
    cases recorded : s.worker.lastExit <;> simp [recorded, gone]
  cases outcome : status answer s with
  | waiting t => trivial
  | returned _ t =>
    rw [outcome] at keeps frame child
    exact ⟨keeps, frame.hosted child hosted⟩
  | raised e t =>
    rw [outcome] at keeps frame child
    exact ⟨keeps, frame.hosted child hosted⟩

theorem tended_waitForExit (g : Nat) (answer : WaitAnswer) :
    Preserves (Tended g) (waitForExit answer) := by
  intro s ⟨kept, hosted⟩
  have keeps := contract_kept.waitForExit answer s kept
  have frame := waitForExit_frame answer s
  have child : s.worker.child = none → (waitForExit answer s).state.worker.child = none := by
    intro gone
    simp [waitForExit, gone]
  cases outcome : waitForExit answer s with
  | waiting t => trivial
  | returned _ t =>
    rw [outcome] at keeps frame child
    exact ⟨keeps, frame.hosted child hosted⟩
  | raised e t =>
    rw [outcome] at keeps frame child
    exact ⟨keeps, frame.hosted child hosted⟩

theorem tended_book {f : LeanWorker → LeanWorker} (books : Bookkeeping f) (g : Nat) :
    Preserves (Tended g) (modify f) := by
  refine Triple.update fun s held => ?_
  have same := books.lifeline s.worker
  have child : (f s.worker).child = s.worker.child := congrArg Lifeline.child same
  refine ⟨held.1.congr child (congrArg Lifeline.lastExit same) (congrArg Lifeline.stdin same), ?_⟩
  exact held.2.congr (congrArg Lifeline.generation same) (fun gone => child.trans gone) rfl

theorem tended_emit (g : Nat) (e : Effect) (request : e.ofRequest = true) :
    Preserves (Tended g) (Supervisor.emit e) := by
  refine Triple.update fun s held => ⟨held.1.congr rfl rfl rfl, held.2.congr rfl id ?_⟩
  show startedFor (s.effects ++ [e]) = _
  rw [startedFor, causesOf_append]
  cases e <;> first | rfl | cases request

theorem tended_steps (g : Nat) : Steps (Tended g) (Closing g) where
  raises _ _ _ held := ⟨held.1, fun _ => held.2⟩
  book _ books _ := tended_book books g
  emit e request := tended_emit g e request
  running answer := by
    have turned (e : LeanWorkerError) :
        Keeping (Tended g) (Closing g) (raise e : Supervisor Unit) :=
      Triple.raise fun _ held => ⟨held.1, fun _ => held.2⟩
    refine .bind .worker fun w => .choose (fun _ => turned _) fun _ => Triple.bind
      ((tended_status g answer).consequence (fun _ held => held) (fun _ _ held => held)
        fun _ _ held => ⟨held.1, fun _ => held.2⟩) fun found => ?_
    cases found
    · exact Keeping.pure _
    · exact turned _
  exited answer := by
    have crashes : Bookkeeping fun w => { w with state := .crashed w.generation } :=
      ⟨fun _ => rfl, fun _ => nofun⟩
    have waits : Preserves (Tended g) (recordExitError answer) :=
      (tended_book crashes g).bind fun _ => (tended_waitForExit g answer).bind fun _ => .raise _
    exact waits.consequence (fun _ held => held) (fun _ _ held => held)
      fun _ _ held => ⟨held.1, fun _ => held.2⟩

theorem replaceAndFail_tended (g : Nat) (c : RequestContext) (waits : Nat) (a : TurnAnswers)
    (reason : LeanWorkerRestartReason) (error : LeanWorkerStats → LeanWorkerError)
    (announced : reason.interrupts = true → ∀ stats, (error stats).interrupts = true) :
    Keeping (Tended g) (Closing g) (replaceAndFail c waits a reason error) := by
  have steps := tended_steps g
  have finish (s : World) (kept : Kept s) : Kept { s with worker := s.worker.finishInFlight } :=
    contract_kept.book _ .finishInFlight s kept
  refine Keeping.bind (steps.recordStreamFailure c waits _) fun _ =>
    Triple.captured (restartWithReason_hosted reason a.restart g) ?_ ?_
  · intro _ s ⟨kept, started⟩
    refine ⟨finish s kept, fun other => .inr (.inr fun cause same => ?_)⟩
    obtain rfl : reason = cause := Option.some.inj (started.symm.trans same)
    cases interrupts : reason.interrupts
    · rfl
    · exact absurd (announced interrupts _) (by rw [other]; exact nofun)
  · intro err
    exact Keeping.bind steps.finishInFlight fun _ => Triple.raise fun _ held =>
      ⟨held.1, fun _ => held.2⟩

theorem replaces_tended (g : Nat) (c : RequestContext) (a : TurnAnswers) :
    Replaces (Tended g) (Closing g) c a where
  overLimit waits _ _ s held := by
    refine Keeping.bind .worker (fun _ => replaceAndFail_tended g c waits a _ _ ?_) s held.1
    exact nofun
  late waits := replaceAndFail_tended g c waits a _ _ fun _ _ => rfl
  cancelled waits := replaceAndFail_tended g c waits a _ _ fun _ _ => rfl

theorem LeanWorker.policyRestart_interrupts {w : LeanWorker} {importLike : Bool}
    {a : PrepareAnswers} {reason : LeanWorkerRestartReason}
    (asked : w.policyRestart importLike a = some reason) : reason.interrupts = false := by
  unfold LeanWorker.policyRestart at asked
  rcases Option.or_eq_some_iff.mp asked with counted | ⟨_, asked⟩
  · unfold LeanWorker.countedLimitReached at counted
    rcases Option.or_eq_some_iff.mp counted with requests | ⟨_, imports⟩
    · obtain ⟨limit, _, rfl⟩ := Option.map_eq_some_iff.mp requests
      rfl
    · split at imports
      · unfold GenerationBudget.importLimitReached at imports
        grind [LeanWorkerRestartReason.interrupts]
      · cases imports
  · rcases Option.or_eq_some_iff.mp asked with ceiling | ⟨_, idle⟩
    · obtain ⟨limitKib, _, reached⟩ := Option.bind_eq_some_iff.mp ceiling
      obtain ⟨currentKib, _, rfl⟩ := Option.map_eq_some_iff.mp reached
      rfl
    · unfold LeanWorker.idleLimitReached at idle
      grind [LeanWorkerRestartReason.interrupts]

theorem admits_tended (g : Nat) (importLike : Bool) (a : RequestAnswers) :
    Admits (Tended g) (Tended g) (Closing g) importLike a where
  start _ held := held
  prepare := (tended_steps g).prepareRequest importLike a.prepare fun _ _ asked =>
    restartWithReason_tended (LeanWorker.policyRestart_interrupts asked) a.prepare.restart g
  replaces c turn _ := replaces_tended g c turn

theorem degradable_tended {A D : Type} (g : Nat) (truncate : String → String)
    (operation : String) {trip : Supervisor A} (verdict : LeanWorkerError → LeanWorker → D)
    (recover : RestartAnswers) (body : Keeping (Tended g) (Closing g) trip) :
    Keeping (Tended g) (Closing g) (degradable truncate operation trip verdict recover) := by
  refine .captured body (fun _ => .pure _) fun err => ?_
  refine Triple.bind (M := fun _ => Closing g err) (fun _ held => held) fun w =>
    Triple.bind (M := fun _ => Tended g) ?_ fun _ => Triple.pure fun _ held => held
  cases err with
  | childPanicOrAbort exit =>
    have other : (childAbortReason truncate operation exit).interrupts = false := rfl
    exact fun s held => restartWithReason_tended other recover g s ⟨held.1, held.2 rfl⟩
  | _ => exact Triple.raise fun _ held => held

theorem perform_tended (g : Nat) (op : Op) (through : op.throughSession = true) :
    Keeping (Tended g) (Closing g) op.perform := by
  have steps := tended_steps g
  have trip {A : Type} (operation : String) (request : Request) (progress : Bool)
      (select : Response → Option A) (a : RequestAnswers) : Keeping (Tended g) (Closing g)
        (roundTrip operation request false progress (expecting operation select) a) :=
    steps.roundTrip (admits_tended g false a) _ _ _ _ (expecting_other _ _)
  cases op with
  | capabilityMetadata progress exportName requestJson a =>
    exact Keeping.discard
      (steps.workerCapabilityMetadata (admits_tended g false a) progress exportName requestJson)
  | capabilityDoctor progress exportName requestJson a =>
    exact Keeping.discard
      (steps.workerCapabilityDoctor (admits_tended g false a) progress exportName requestJson)
  | verifyDeclaration progress truncate request options a recover =>
    exact Keeping.discard (degradable_tended g truncate _ _ recover (trip _ _ _ _ a))
  | verifyDeclarationBatch progress truncate targets request options a recover =>
    exact Keeping.discard (degradable_tended g truncate _ _ recover (trip _ _ _ _ a))
  | processModuleQueryBatch progress truncate source selectors budgets options a recover =>
    exact Keeping.discard (degradable_tended g truncate _ _ recover (trip _ _ _ _ a))
  | runDataStream progress exportName requestJson rows diagnostics a =>
    exact Keeping.discard (steps.workerRunDataStream (admits_tended g false a) progress exportName
      requestJson rows diagnostics)
  | listDeclarationsStrings progress decode filter a =>
    exact Keeping.discard
      (steps.workerListDeclarationsStrings (admits_tended g false a) progress decode filter)
  | status | rssKib | setRequestTimeout | recordCapabilityOpenTiming | recordCommandTiming | cycle
  | cycleWithRestartReason | killForTest | shutdown | health | loadFixtureCapability
  | callFixtureMul | triggerLeanPanicFixture | emitTestRows | emitTestRowsThenExit
  | emitTestRowsThenPanic | openWorkerSession | jsonCommand => cases through
  | _ => exact Keeping.discard (trip _ _ _ _ _)

/-- As long as the session is open, no interrupted request has left it another child. -/
def Attached (g : Nat) (s : LeanWorkerSession) : Prop :=
  Kept s.world ∧ (s.isOpen = true → Hosted g s.world)

def KeepsAttached (g : Nat) {A : Type} (m : SessionProcedure A) : Prop :=
  Triple (Attached g) m (fun _ => Attached g) (fun _ => Attached g)

section

variable {g : Nat} {A B : Type}

theorem KeepsAttached.bind {m : SessionProcedure A} {f : A → SessionProcedure B}
    (first : KeepsAttached g m) (next : ∀ a, KeepsAttached g (f a)) : KeepsAttached g (m >>= f) :=
  Triple.bind first next

theorem KeepsAttached.pure (a : A) : KeepsAttached g (pure a : SessionProcedure A) :=
  Triple.pure fun _ h => h

theorem KeepsAttached.raise (e : LeanWorkerSessionError) :
    KeepsAttached g (raise e : SessionProcedure A) := Triple.raise fun _ h => h

theorem KeepsAttached.orRaise (failure : String → LeanWorkerSessionError)
    (result : Except String A) : KeepsAttached g (orRaise failure result) := by
  cases result
  · exact .raise _
  · exact .pure _

theorem withSession_closed (f : Supervisor A) {s : LeanWorkerSession} (closed : s.isOpen = false) :
    withSession f s = .raised (.unsupportedRequest "worker_session_invalidated") s := by
  simp [withSession, ensureOpen, closed]

theorem withSession_open (f : Supervisor A) {s : LeanWorkerSession} (opened : s.isOpen = true) :
    withSession f s = onWorker f s := by
  simp [withSession, ensureOpen, opened]

theorem withSession_attached {f : Supervisor A} (body : Keeping (Tended g) (Closing g) f) :
    KeepsAttached g (withSession f) := by
  intro s ⟨kept, hosted⟩
  cases opened : s.isOpen with
  | false =>
    rw [withSession_closed f opened]
    exact ⟨kept, hosted⟩
  | true =>
    rw [withSession_open f opened]
    have held := body s.world ⟨kept, hosted opened⟩
    unfold onWorker
    cases outcome : f s.world with
    | waiting t => trivial
    | returned a t =>
      rw [outcome] at held
      exact ⟨held.1, fun _ => held.2⟩
    | raised e t =>
      rw [outcome] at held
      refine ⟨held.1, fun still => held.2 ?_⟩
      simpa [opened] using still

theorem setRequestTimeout_attached (timeout : Duration) :
    KeepsAttached g (onWorker (setRequestTimeout timeout)) := fun _ held =>
  ⟨held.1.congr rfl rfl rfl, fun opened => (held.2 opened).congr rfl id rfl⟩

theorem runJsonCommand_attached (exportName : String) (requestJson : Except String JsonText)
    (decode : JsonText → Except String A) (progress : Bool) (a : RequestAnswers) :
    KeepsAttached g (runJsonCommand exportName requestJson decode progress a) :=
  (KeepsAttached.orRaise _ _).bind fun _ => (withSession_attached
    ((tended_steps g).roundTrip (admits_tended g false a) _ _ _ _ (expecting_other _ _))).bind
      fun _ => .orRaise _ _

theorem runStreamingCommand_attached (exportName : String) (requestValue : Except String Unit)
    (requestJson : Except String JsonText) (decodeRow : JsonText → Except String A)
    (decodeSummary : JsonText → Except String B) (diagnostics progress : Bool)
    (a : RequestAnswers) :
    KeepsAttached g (runStreamingCommand exportName requestValue requestJson decodeRow
      decodeSummary diagnostics progress a) := by
  have reads : KeepsAttached g (read : SessionProcedure LeanWorkerSession) := fun _ held => held
  have streamed := withSession_attached ((tended_steps g).workerRunDataStream
    (admits_tended g false { a with turns := typedTurns decodeRow false a.turns }) progress
    exportName requestJson .raw diagnostics)
  refine (KeepsAttached.orRaise _ _).bind fun _ => reads.bind fun before =>
    KeepsAttached.bind (Triple.capture streamed) fun result => reads.bind fun after => ?_
  dsimp only
  split
  · exact .raise _
  · split
    · exact .pure _
    · exact (KeepsAttached.orRaise _ _).bind fun _ => .pure _
  all_goals exact .raise _

theorem SessionCall.perform_attached (call : SessionCall) : KeepsAttached g call.perform := by
  cases call with
  | setRequestTimeout timeout => exact setRequestTimeout_attached timeout
  | request op through => exact withSession_attached (perform_tended g op through)
  | runJsonCommand exportName requestJson decode progress a =>
    exact runJsonCommand_attached _ _ _ _ _
  | runStreamingCommand exportName requestValue requestJson decodeRow decodeSummary diagnostics
      progress a =>
    exact (runStreamingCommand_attached _ _ _ _ _ _ _ _).bind fun _ => .pure _

end

theorem LeanWorkerSession.step_attached {s s' : LeanWorkerSession} {call : SessionCall}
    (kept : Kept s.world) (moved : s.step call = some s') :
    Attached s.world.worker.generation s' :=
  (call.perform_attached s.afresh ⟨kept.congr rfl rfl rfl, fun _ => .inl rfl⟩).ended moved

theorem LeanWorkerSession.run_kept {s s' : LeanWorkerSession} {calls : List SessionCall}
    (kept : Kept s.world) (reached : Runs.run LeanWorkerSession.step s calls = some s') :
    Kept s'.world :=
  Runs.invariant (I := fun s : LeanWorkerSession => Kept s.world)
    (fun _ _ _ kept moved => (LeanWorkerSession.step_attached kept moved).1) kept reached

theorem SessionCall.perform_closed (call : SessionCall) (sends : call.sends = true)
    {s : LeanWorkerSession} (closed : s.isOpen = false) : ∃ e, call.perform s = .raised e s := by
  cases call with
  | setRequestTimeout timeout => cases sends
  | request op through => exact ⟨_, withSession_closed _ closed⟩
  | runJsonCommand exportName requestJson decode progress a =>
    cases requestJson with
    | error text => exact ⟨_, rfl⟩
    | ok text =>
      refine ⟨.unsupportedRequest "worker_session_invalidated", ?_⟩
      simp [SessionCall.perform, LeanRs.runJsonCommand, orRaise, withSession_closed _ closed]
  | runStreamingCommand exportName requestValue requestJson decodeRow decodeSummary diagnostics
      progress a =>
    cases requestValue with
    | error text => exact ⟨_, rfl⟩
    | ok _ =>
      refine ⟨.unsupportedRequest "worker_session_invalidated", ?_⟩
      simp [SessionCall.perform, LeanRs.runStreamingCommand, orRaise,
        withSession_closed _ closed]

theorem LeanWorkerSession.step_closed {s s' : LeanWorkerSession} {call : SessionCall}
    (closed : s.isOpen = false) (moved : s.step call = some s') : s'.isOpen = false := by
  cases sends : call.sends with
  | true =>
    obtain ⟨e, raised⟩ := call.perform_closed sends (s := s.afresh) closed
    rw [LeanWorkerSession.step, raised] at moved
    cases moved
    exact closed
  | false =>
    cases call with
    | setRequestTimeout timeout =>
      cases moved
      exact closed
    | _ => cases sends

/-- A request that leaves its session the replacement of an interrupted child closes it, and
nothing is sent to the replacement through that session. -/
theorem session_abandons_interrupted_child (config : LeanWorkerConfig) (pid : Nat) (stderr : Bool)
    (elapsed : Duration) (now : Instant) (ops : List Op) (w : LeanWorker)
    (reached : Runs.run operate (.fresh config pid stderr elapsed now) ops = some w)
    (calls : List SessionCall) (s : LeanWorkerSession)
    (attached : Runs.run LeanWorkerSession.step w.attachOpenSession calls = some s)
    (call : SessionCall) (s' : LeanWorkerSession) (moved : s.step call = some s')
    (replaced : s'.world.worker.generation ≠ s.world.worker.generation)
    (present : s'.world.worker.child.isSome = true) (reason : LeanWorkerRestartReason)
    (started : startedFor s'.world.effects = some reason) (interrupts : reason.interrupts = true)
    (later : List SessionCall) (s'' : LeanWorkerSession)
    (reached' : Runs.run LeanWorkerSession.step s' later = some s'') :
    s''.isOpen = false ∧
      ∀ next : SessionCall, next.sends = true → ∃ e, next.perform s''.afresh =
        .raised e s''.afresh := by
  have settled := reachable_settled config pid stderr elapsed now ops w reached
  have kept : Kept s.world := LeanWorkerSession.run_kept (s := w.attachOpenSession) ?_ attached
  · have attached := LeanWorkerSession.step_attached kept moved
    have closed : s'.isOpen = false := by
      cases opened : s'.isOpen with
      | false => rfl
      | true =>
        rcases attached.2 opened with same | gone | other
        · exact absurd same replaced
        · rw [gone] at present
          cases present
        · exact absurd interrupts (by rw [other reason started]; exact nofun)
    have closed' : s''.isOpen = false :=
      Runs.invariant (I := fun s : LeanWorkerSession => s.isOpen = false)
        (fun _ _ _ closed moved => LeanWorkerSession.step_closed closed moved) closed reached'
    exact ⟨closed', fun next sends => next.perform_closed sends (s := s''.afresh) closed'⟩
  · rcases settled.formed with owned | gone
    · exact .inl owned
    · exact .inr ⟨gone.child, gone.exit_isSome⟩

/-- An elaboration of the empty text whose read loop has these turns. -/
def SessionCall.elaborating (turns : List TurnAnswers) : SessionCall :=
  .request (.elaborate false "" "null" (.smooth turns)) rfl

def SessionCall.answered : SessionCall :=
  .elaborating [.smooth (.event (.frame (.response (.elaboration "null"))) 0)]

def SessionCall.late : SessionCall :=
  .elaborating [{ TurnAnswers.smooth .nothing with now := Duration.fromSecs 30 }]

/-- The second request times out, and its session answers no third one. -/
theorem late_request_closes_session :
    ∃ s s' : LeanWorkerSession,
      Runs.run LeanWorkerSession.step (LeanWorker.spawned {}).attachOpenSession [.answered] =
        some s ∧ s.step .late = some s' ∧ s'.world.worker.generation = 1 ∧
      s'.isOpen = false ∧ ∀ next : SessionCall, next.sends = true → ∃ e,
        next.perform s'.afresh = .raised e s'.afresh := by
  refine ⟨_, _, rfl, rfl, rfl, ?_⟩
  exact session_abandons_interrupted_child { executable := ⟨[]⟩ } 1 true 0 0 [] _ rfl [.answered] _
    rfl .late _ rfl (by decide +kernel) rfl _ rfl rfl [] _ rfl

def LeanWorker.shortLived : LeanWorker :=
  .spawned (LeanWorkerRestartPolicy.disabled.withMaxRequests 2)

/-- The third request is preceded by a policy restart. Its session stays open, and writes the
fourth request to the second child. -/
theorem policy_restart_leaves_session_open :
    ∃ s s' s'' : LeanWorkerSession,
      Runs.run LeanWorkerSession.step LeanWorker.shortLived.attachOpenSession
        [.answered, .answered] = some s ∧
      s.step .answered = some s' ∧
      s'.world.worker.generation ≠ s.world.worker.generation ∧ s'.isOpen = true ∧
      s'.step .answered = some s'' ∧ s''.world.worker.generation = s'.world.worker.generation ∧
      .write (.elaborate "" "null") .written ∈ s''.world.effects := by
  refine ⟨_, _, _, rfl, rfl, by decide +kernel, rfl, rfl, rfl, by decide +kernel⟩

end LeanRs
