import LeanRs.Worker.Memory
import LeanRs.Worker.ReadLoop

/-! Both pipes, over runs of public operations: which operations keep them with the
supervisor, and what a request can count on. -/
namespace LeanRs

open Procedures Procedure Supervisor

def SameConfig (s t : World) : Prop := t.worker.config = s.worker.config

instance : Framed SameConfig where
  refl _ := rfl
  trans _ _ _ first second := second.trans first
  count _ _ _ := rfl
  emit _ _ _ := rfl
  track _ same s := (congrArg LeanWorker.config (same s.worker) :)
  stop frame s := congrArg Ledger.config (frame s).ledger
  restart reason a s := CoreFrame.config (restartWithReason_core reason a s)
  send _ _ _ := rfl
  deliver _ _ := rfl

theorem prepareRequest_config (importLike : Bool) (a : PrepareAnswers) :
    Moves SameConfig (prepareRequest importLike a) := prepareRequest_moves importLike a

theorem sendRequest_config (poll : TryWait) (request : Request) (answer : WriteAnswer) :
    Moves SameConfig (sendRequest poll request answer) := sendRequest_moves poll request answer

theorem issueRequest_config (request : Request) (importLike : Bool) (a : RequestAnswers) :
    Moves SameConfig (issueRequest request importLike a) :=
  .bind (prepareRequest_config _ _) fun _ => .bind (sendRequest_config _ _ _) fun _ => fun _ => rfl

/-- What decides about the turns of a read: the sinks and the deadline. -/
def Sinks.context (sinks : Sinks) (timeout : Duration) (started : Instant) : RequestContext where
  operation := ""
  timeout := timeout
  deadline := Instant.checkedAdd started timeout
  progress := sinks.progress
  data := sinks.data
  diagnostics := sinks.diagnostics
  generation := 0
  requestId := 0

def readLoses (config : LeanWorkerConfig) (sinks : Sinks) (started : Instant)
    (turns : List TurnAnswers) : Bool :=
  (sinks.context config.requestTimeout started).loopLoses config turns

theorem loopLoses_requestContext (w : LeanWorker) (operation : String) (sinks : Sinks)
    (started : Instant) (turns : List TurnAnswers) :
    (w.requestContext operation sinks started).loopLoses w.config turns =
      readLoses w.config sinks started turns := by
  unfold readLoses
  induction turns with
  | nil => rfl
  | cons a rest ih =>
    have fate : (w.requestContext operation sinks started).turnFate w.config a =
        (sinks.context w.config.requestTimeout started).turnFate w.config a := rfl
    rw [RequestContext.loopLoses, RequestContext.loopLoses, fate, ih]

/-- An operation loses the output pipe when its read does. -/
def Op.loses (config : LeanWorkerConfig) : Op → Bool
  | .status _ | .rssKib _ | .setRequestTimeout _ | .recordCapabilityOpenTiming _ _
  | .recordCommandTiming _ _ | .cycle _ | .cycleWithRestartReason _ _ | .killForTest _
  | .shutdown _ => false
  | .health a | .loadFixtureCapability _ a | .callFixtureMul _ _ _ a
  | .triggerLeanPanicFixture _ a => readLoses config {} a.started a.turns
  | .emitTestRows _ data a | .emitTestRowsThenExit data a | .emitTestRowsThenPanic data a =>
    readLoses config { data := if data then some .value else none } a.started a.turns
  | .openWorkerSession _ progress a =>
    readLoses config { progress := progress } a.request.started a.request.turns
  | .elaborate progress _ _ a | .kernelCheck progress _ _ a | .declarationKinds progress _ a
  | .declarationNames progress _ a | .inferType progress _ _ a | .whnf progress _ _ a
  | .isDefEq progress _ _ _ _ a | .describe progress _ a | .searchDeclarations progress _ a
  | .declarationType progress _ _ a | .inspectDeclaration progress _ a
  | .attemptProof progress _ _ a | .describeBulk progress _ a
  | .processModuleQuery progress _ _ _ a | .clearModuleSnapshotCache progress a
  | .jsonCommand progress _ _ a | .capabilityMetadata progress _ _ a
  | .capabilityDoctor progress _ _ a | .verifyDeclaration progress _ _ _ a _
  | .verifyDeclarationBatch progress _ _ _ _ a _
  | .processModuleQueryBatch progress _ _ _ _ _ a _ =>
    readLoses config { progress := progress } a.started a.turns
  | .runDataStream progress _ _ rows diagnostics a =>
    readLoses config { progress := progress, data := some rows, diagnostics := diagnostics }
      a.started a.turns
  | .listDeclarationsStrings progress _ _ a =>
    readLoses config { progress := progress, data := some .raw } a.started a.turns

/-- A worker that takes an operation. `silent` says that nothing is promised about its errors;
otherwise it is ready. -/
structure Entering (lossy silent : Prop) (config : LeanWorkerConfig) (s : World) : Prop where
  settled : s.worker.Settled lossy
  ready : silent ∨ s.worker.Ready
  config : s.worker.config = config

structure Failed (lossy silent : Prop) (e : LeanWorkerError) (s : World) : Prop where
  settled : s.worker.Settled lossy
  running : silent ∨ e.saysNotRunning = false

/-- The contract of one operation whose read may lose the pipe when `loses`. -/
abbrev Keeps {A : Type} (lossy silent : Prop) (config : LeanWorkerConfig) (loses : Bool)
    (m : Supervisor A) : Prop :=
  Triple (Entering lossy silent config) m (fun _ s => s.worker.Settled (lossy ∨ loses = true))
    (Failed (lossy ∨ loses = true) silent)

/-- A step that looks at a result and either passes it on or raises. -/
def Concludes {A : Type} (m : Supervisor A) : Prop :=
  ∀ s, (m s).Meets (fun _ t => t = s) (fun e t => t = s ∧ e.saysNotRunning = false)

theorem Concludes.pure {A : Type} (a : A) : Concludes (pure a : Supervisor A) := fun _ => rfl

theorem Concludes.raise {A : Type} {e : LeanWorkerError} (running : e.saysNotRunning = false) :
    Concludes (raise e : Supervisor A) := fun _ => ⟨rfl, running⟩

theorem Concludes.triple {A : Type} {m : Supervisor A} (concludes : Concludes m)
    {P : World → Prop} {Q : A → World → Prop} {R : LeanWorkerError → World → Prop}
    (returns : ∀ a s, P s → Q a s)
    (raises : ∀ e s, P s → e.saysNotRunning = false → R e s) : Triple P m Q R := by
  intro s held
  refine (concludes s).weaken (fun a t same => ?_) fun e t same => ?_
  · rw [same]; exact returns a s held
  · rw [same.1]; exact raises e s held same.2

section Contracts

variable {lossy silent : Prop} {config : LeanWorkerConfig} {loses : Bool} {A B : Type}

theorem Keeps.andThen {m : Supervisor A} {f : A → Supervisor B}
    (body : Keeps lossy silent config loses m) (concludes : ∀ a, Concludes (f a)) :
    Keeps lossy silent config loses (m >>= f) :=
  Triple.bind body fun a => (concludes a).triple (fun _ _ settled => settled)
    fun _ _ settled running => ⟨settled, .inr running⟩

theorem Keeps.after {m : Supervisor A} {f : A → Supervisor B} (concludes : Concludes m)
    (body : ∀ a, Keeps lossy silent config loses (f a)) :
    Keeps lossy silent config loses (m >>= f) :=
  Triple.bind (concludes.triple (fun _ _ entering => entering)
    fun _ _ entering running => ⟨entering.settled.weaken .inl, .inr running⟩) body

theorem Keeps.discard {m : Supervisor A} (body : Keeps lossy silent config loses m) :
    Keeps lossy silent config loses (discard m) := body.andThen fun _ => .pure _

theorem checkCancelled_concludes (operation : String) (cancelled : Bool) :
    Concludes (checkCancelled operation cancelled) := by
  unfold checkCancelled
  split
  · exact .raise rfl
  · exact .pure _

variable (quiet : lossy → silent)

include quiet

theorem issueRequest_keeps (request : Request) (importLike : Bool) (a : RequestAnswers) :
    Triple (Entering lossy silent config) (issueRequest request importLike a)
      (fun _ s => s.worker.Accepting lossy ∧ s.worker.config = config)
      (Failed (lossy ∨ loses = true) silent) := by
  intro s entering
  refine (Triple.frame (issueRequest_config request importLike a)
    (issueRequest_accepting request importLike a) s entering.settled).weaken
    (fun _ t held => ⟨held.2, held.1.trans entering.config⟩) fun e t held => ?_
  exact ⟨held.2.settled.weaken .inl, held.2.running.imp quiet id⟩

theorem readResponseWithEvents_keeps (operation : String) (sinks : Sinks) (started : Instant)
    (turns : List TurnAnswers) :
    Triple (fun s => s.worker.Accepting lossy ∧ s.worker.config = config)
      (readResponseWithEvents operation sinks started turns) (fun _ s => s.worker.Ready)
      (Failed (lossy ∨ readLoses config sinks started turns = true) silent) := by
  intro s held
  obtain ⟨accepting, rfl⟩ := held
  cases accepting with
  | lost allowed lost =>
    simpa [readResponseWithEvents, lost.stdout] using
      ⟨LeanWorker.Settled.lost (.inl allowed) lost, .inl (quiet allowed)⟩
  | ready ready =>
    have inLoop : (LeanWorker.beginInFlight { s.worker with stdout := false } operation).InLoop
        (s.worker.requestContext operation sinks started) s.worker.config :=
      ⟨⟨ready.child, ready.lastExit, ready.stdin⟩, rfl, rfl, rfl, _, rfl, .inl rfl⟩
    simp only [readResponseWithEvents, bind_apply, worker_apply, Outcome.andThen_returned,
      ready.stdout, if_true, modify_apply]
    refine (readLoop_looping 0 turns _ inLoop).weaken (fun _ _ h => h) fun e t gaveUp => ?_
    rw [loopLoses_requestContext] at gaveUp
    exact ⟨gaveUp.settled.weaken .inr, .inr gaveUp.running⟩

theorem exchange_keeps (operation : String) (request : Request) (importLike : Bool)
    (sinks : Sinks) (a : RequestAnswers) :
    Keeps lossy silent config (readLoses config sinks a.started a.turns)
      (exchange operation request importLike sinks a) :=
  Triple.bind (issueRequest_keeps quiet request importLike a) fun _ =>
    (readResponseWithEvents_keeps quiet operation sinks a.started a.turns).consequence
      (fun _ h => h) (fun _ _ ready => .ready ready) (fun _ _ h => h)

theorem roundTrip_keeps (operation : String) (request : Request) (importLike progress : Bool)
    (extract : Response → Except LeanWorkerError A)
    (running : ∀ response e, extract response = .error e → e.saysNotRunning = false)
    (a : RequestAnswers) :
    Keeps lossy silent config (readLoses config { progress := progress } a.started a.turns)
      (roundTrip operation request importLike progress extract a) := by
  refine .after (checkCancelled_concludes _ _) fun _ =>
    (exchange_keeps quiet operation request importLike _ a).andThen fun response => ?_
  cases extracted : extract response with
  | ok value => exact .pure _
  | error e => exact .raise (running response e extracted)

omit quiet in
theorem restartWithReason_settles (reason : LeanWorkerRestartReason) (a : RestartAnswers)
    (s : World) (settled : s.worker.Settled lossy)
    (piped : silent ∨ stopIntent reason = .killOnly ∨ s.worker.stdout = true) :
    (restartWithReason reason a s).Meets
      (fun _ t => t.worker.Ready ∧ t.worker.config = s.worker.config) (Failed lossy silent) := by
  refine (restartWithReason_ends reason a s settled.formed).weaken
    (fun _ t renewed => ⟨renewed.ready, renewed.config⟩) fun e t failed => ?_
  cases failed with
  | refused restarts window w' gone state memory unchanged full => exact ⟨.gone gone, .inr rfl⟩
  | spawnFailed err w' gone memory restarts running => exact ⟨.gone gone, .inr running⟩
  | stopFailed err w' memory restarts owned unreaped system left =>
    refine ⟨?_, piped.imp id fun piped =>
      LeanWorkerError.saysNotRunning_of_ofSystem (system piped)⟩
    rcases left with stopping | ⟨owned', state, stdout, _⟩
    · exact .stopping stopping
    · cases settled with
      | gone gone => exact absurd gone owned.not_gone
      | stopping stopping => exact .stopping ⟨owned', by rw [state]; exact stopping.rejects⟩
      | ready ready =>
        exact .ready ⟨owned', stdout.trans ready.stdout, by rw [state]; exact ready.idle⟩
      | lost allowed lost =>
        exact .lost allowed ⟨owned', stdout.trans lost.stdout, by rw [state]; exact lost.idle⟩

omit quiet in
theorem restartWithReason_entering (reason : LeanWorkerRestartReason) (a : RestartAnswers) :
    Triple (Entering lossy silent config) (restartWithReason reason a)
      (fun _ s => s.worker.Ready ∧ s.worker.config = config)
      (Failed (lossy ∨ loses = true) silent) := fun s entering =>
  (restartWithReason_settles reason a s entering.settled
    (entering.ready.imp id fun ready => .inr ready.stdout)).weaken
    (fun _ _ held => ⟨held.1, held.2.trans entering.config⟩)
    fun _ _ failed => ⟨failed.settled.weaken .inl, failed.running⟩

omit quiet in
theorem restartWithReason_keeps (reason : LeanWorkerRestartReason) (a : RestartAnswers) :
    Keeps lossy silent config loses (restartWithReason reason a) :=
  (restartWithReason_entering reason a).consequence (fun _ h => h) (fun _ _ held => .ready held.1)
    fun _ _ failed => failed

omit quiet in
theorem shutdown_keeps (a : ShutdownAnswers) :
    Keeps lossy silent config loses (shutdown a) := by
  intro s entering
  have stops := shutdownChild_stops a .graceful s entering.settled.formed
  have fails := shutdownChild_fails a .graceful s entering.settled.formed
  unfold shutdown
  cases outcome : shutdownChild a .graceful s with
  | waiting t => trivial
  | returned report t => rw [outcome] at stops; exact .gone stops.1
  | raised e t =>
    rw [outcome] at stops fails
    refine ⟨?_, entering.ready.imp id fun ready =>
      LeanWorkerError.saysNotRunning_of_ofSystem (fails.2.2 (.inr ready.stdout))⟩
    rcases stops with stopping | ⟨same, _⟩
    · exact .stopping stopping
    · rw [same]; exact entering.settled.weaken .inl

def LeanWorker.handles (w : LeanWorker) :
    Option Nat × Option LeanWorkerExit × Bool × Bool × WorkerSupervisorState :=
  (w.child, w.lastExit, w.stdin, w.stdout, w.state)

omit quiet in
theorem LeanWorker.Settled.congr {w w' : LeanWorker} (settled : w.Settled lossy)
    (same : w'.handles = w.handles) : w'.Settled lossy := by
  simp only [handles, Prod.mk.injEq] at same
  obtain ⟨child, lastExit, stdin, stdout, state⟩ := same
  cases settled with
  | gone gone =>
    refine .gone ⟨child.trans gone.child, ?_, stdin.trans gone.stdin, stdout.trans gone.stdout, ?_,
      ?_⟩
    · rw [lastExit]; exact gone.lastExit
    · rw [state]; exact gone.notIdle
    · rw [state]; exact gone.notInFlight
  | stopping stopping =>
    refine .stopping ⟨⟨?_, lastExit.trans stopping.lastExit, stdin.trans stopping.stdin⟩, ?_⟩
    · rw [child]; exact stopping.child
    · rw [state]; exact stopping.rejects
  | ready ready =>
    refine .ready ⟨⟨?_, lastExit.trans ready.lastExit, stdin.trans ready.stdin⟩,
      stdout.trans ready.stdout, ?_⟩
    · rw [child]; exact ready.child
    · rw [state]; exact ready.idle
  | lost allowed lost =>
    refine .lost allowed ⟨⟨?_, lastExit.trans lost.lastExit, stdin.trans lost.stdin⟩,
      stdout.trans lost.stdout, ?_⟩
    · rw [child]; exact lost.child
    · rw [state]; exact lost.idle

omit quiet in
theorem modify_settled (f : LeanWorker → LeanWorker) (same : ∀ w, (f w).handles = w.handles)
    {R : LeanWorkerError → World → Prop} :
    Triple (fun s => s.worker.Settled lossy) (modify f) (fun _ s => s.worker.Settled lossy) R :=
  Triple.update fun s settled => settled.congr (same s.worker)

omit quiet in
theorem modify_keeps (f : LeanWorker → LeanWorker) (same : ∀ w, (f w).handles = w.handles) :
    Keeps lossy silent config loses (modify f) :=
  (modify_settled f same).consequence (fun _ entering => entering.settled.weaken .inl)
    (fun _ _ h => h) (fun _ _ h => h)

omit quiet in
theorem status_keeps (answer : TryWait) : Keeps lossy silent config loses (status answer) := by
  intro s entering
  rcases entering.settled.formed with owned | gone
  · rw [status_owned answer s owned]
    cases answer with
    | failed source => exact ⟨entering.settled.weaken .inl, .inr rfl⟩
    | running => exact entering.settled.weaken .inl
    | exited exitStatus stderr => exact .gone (LeanWorker.gone_reaped _ _ _ _)
  · obtain ⟨exit, _, _, polled⟩ := status_gone answer s gone
    rw [polled]
    exact .gone gone.exited

omit quiet in
theorem killForTest_keeps (answer : KillAnswer) :
    Keeps lossy silent config loses (killForTest answer) := by
  intro s entering
  rcases entering.settled.formed with owned | gone
  · cases answer with
    | failed source =>
      simpa [killForTest, killChild, owned.child] using
        ⟨entering.settled.weaken .inl, .inr rfl⟩
    | asked => simpa [killForTest, killChild, owned.child] using entering.settled.weaken .inl
  · obtain ⟨exit, recorded, rendered⟩ := gone.lastExit
    simpa [killForTest, gone.child, LeanWorker.deadError, recorded] using
      ⟨entering.settled.weaken .inl, .inr (by simpa using rendered)⟩

omit quiet in
theorem takePendingRestart_entering (a : RestartAnswers) :
    Triple (Entering lossy silent config) (takePendingRestart a)
      (fun _ => Entering lossy silent config) (Failed (lossy ∨ loses = true) silent) := by
  refine Triple.bind (worker_keeps (P := Entering lossy silent config)) fun w => ?_
  split
  · refine Triple.bind (M := fun _ => Entering lossy silent config)
      (Triple.update fun s held => ?_) fun _ =>
      (restartWithReason_entering _ a).consequence (fun _ h => h)
        (fun _ _ held => ⟨.ready held.1, .inr held.1, held.2⟩) (fun _ _ h => h)
    obtain ⟨_, entering⟩ := held
    refine ⟨entering.settled.congr rfl, entering.ready.imp id fun ready => ?_, entering.config⟩
    exact ⟨⟨ready.child, ready.lastExit, ready.stdin⟩, ready.stdout, ready.idle⟩
  · exact Triple.pure fun _ held => held.2

omit quiet in
theorem hostSessionOpened_settled (opened : LeanWorkerSessionConfig) (expectReuse : Bool)
    (beforeRestarts : Nat) (importStats : LeanWorkerImportStats) (elapsed : Duration)
    {R : LeanWorkerError → World → Prop} :
    Triple (fun s => s.worker.Settled lossy)
      (hostSessionOpened opened expectReuse beforeRestarts importStats elapsed)
      (fun _ s => s.worker.Settled lossy) R :=
  Triple.bind (modify_settled _ (by intro w; rfl)) fun _ =>
    Triple.bind (modify_settled _ (by intro w; rfl)) fun _ =>
    Triple.bind (modify_settled _ (by intro w; rfl)) fun _ =>
    Triple.bind (modify_settled _ (by intro w; rfl)) fun _ =>
    modify_settled _ (by intro w; rfl)

omit quiet in
theorem hostSessionReused_settled (opened : LeanWorkerSessionConfig)
    (importStats : LeanWorkerImportStats) {R : LeanWorkerError → World → Prop} :
    Triple (fun s => s.worker.Settled lossy) (hostSessionReused opened importStats)
      (fun _ s => s.worker.Settled lossy) R :=
  Triple.bind (modify_settled _ (by intro w; rfl)) fun _ => modify_settled _ (by intro w; rfl)

theorem readWorkerSession_keeps (opened : LeanWorkerSessionConfig) (progress expectReuse : Bool)
    (beforeRestarts : Nat) (a : OpenAnswers) :
    Triple (fun s => s.worker.Accepting lossy ∧ s.worker.config = config)
      (readWorkerSession opened progress expectReuse beforeRestarts a)
      (fun _ s => s.worker.Settled (lossy ∨
        readLoses config { progress := progress } a.request.started a.request.turns = true))
      (Failed (lossy ∨
        readLoses config { progress := progress } a.request.started a.request.turns = true)
        silent) := by
  have read := @readResponseWithEvents_keeps lossy silent config quiet "open_worker_session"
    { progress := progress } a.request.started a.request.turns
  have forget : ∀ e : LeanWorkerError, Triple (Failed (lossy ∨
      readLoses config { progress := progress } a.request.started a.request.turns = true) silent e)
      (forgetSessionKeys >>= fun _ => raise e) (fun (_ : Unit) s => s.worker.Settled (lossy ∨
        readLoses config { progress := progress } a.request.started a.request.turns = true))
      (Failed (lossy ∨
        readLoses config { progress := progress } a.request.started a.request.turns = true)
        silent) := fun e =>
    Triple.bind (Triple.update fun _ failed => ⟨failed.settled.congr rfl, failed.running⟩) fun _ =>
      Triple.raise fun _ failed => failed
  apply Triple.captured read _ forget
  intro response
  cases response with
  | hostSessionOpened importStats =>
    exact (hostSessionOpened_settled opened expectReuse beforeRestarts importStats _).consequence
      (fun _ ready => .ready ready) (fun _ _ h => h) (fun _ _ h => h)
  | hostSessionReused importStats =>
    exact (hostSessionReused_settled opened importStats).consequence
      (fun _ ready => .ready ready) (fun _ _ h => h) (fun _ _ h => h)
  | _ =>
    exact (forget _).consequence (fun _ ready => ⟨.ready ready, .inr rfl⟩) (fun _ _ h => h)
      (fun _ _ h => h)

theorem openWorkerSession_keeps (opened : LeanWorkerSessionConfig) (progress : Bool)
    (a : OpenAnswers) :
    Keeps lossy silent config
      (readLoses config { progress := progress } a.request.started a.request.turns)
      (openWorkerSession opened progress a) := by
  refine .after (checkCancelled_concludes _ _) fun _ =>
    Triple.bind (worker_keeps.consequence (fun _ h => h) (fun _ _ h => h.2) fun _ _ h => h)
    fun before => Triple.bind (takePendingRestart_entering a.deferred) fun _ =>
    Triple.bind (worker_keeps.consequence (fun _ h => h) (fun _ _ h => h.2) fun _ _ h => h)
    fun w => ?_
  refine Triple.bind (M := fun _ s => s.worker.Accepting lossy ∧ s.worker.config = config) ?_
    fun _ => Triple.bind (worker_keeps.consequence (fun _ h => h) (fun _ _ h => h.2)
    fun _ _ h => h) fun w' => Triple.bind (M := fun _ s => s.worker.Accepting lossy ∧
      s.worker.config = config) ?_ fun _ => Triple.bind (Triple.update fun s held => ?_)
    fun _ => readWorkerSession_keeps quiet opened progress _ _ a
  · intro s entering
    exact (Triple.frame (prepareRequest_config _ _)
      (prepareRequest_accepting _ _) s entering.settled).weaken
      (fun _ t held => ⟨held.2, held.1.trans entering.config⟩)
      fun _ _ held => ⟨held.2.settled.weaken .inl, held.2.running.imp quiet id⟩
  · intro s held
    exact (Triple.frame (sendRequest_config _ _ _)
      (sendRequest_accepting _ _ _) s held.1).weaken
      (fun _ t after => ⟨after.2, after.1.trans held.2⟩)
      fun _ _ after => ⟨after.2.settled.weaken .inl, after.2.running.imp quiet id⟩
  · exact ⟨held.1.congr ⟨held.1.owned.child, held.1.owned.lastExit, held.1.owned.stdin⟩ rfl rfl,
      held.2⟩

omit quiet in
theorem fixtureCapabilityManifest_concludes (built : Except String PathBuf) :
    Concludes (fixtureCapabilityManifest built) := by
  cases built
  · exact .raise rfl
  · exact .pure _

omit quiet in
theorem encoded_concludes (requestJson : Except String JsonText)
    (failure : String → ProtocolText) : Concludes (encoded requestJson failure) := by
  cases requestJson
  · exact .raise rfl
  · exact .pure _

omit quiet in
theorem expecting_running (operation : String) (select : Response → Option A)
    (response : Response) (e : LeanWorkerError)
    (failed : expecting operation select response = .error e) : e.saysNotRunning = false := by
  unfold expecting at failed
  split at failed
  · cases failed
  · cases failed; rfl

theorem expecting_keeps (operation : String) (request : Request) (progress : Bool)
    (select : Response → Option A) (a : RequestAnswers) :
    Keeps lossy silent config (readLoses config { progress := progress } a.started a.turns)
      (roundTrip operation request false progress (expecting operation select) a) :=
  roundTrip_keeps quiet operation request false progress _ (expecting_running operation select) a

theorem health_keeps (a : RequestAnswers) :
    Keeps lossy silent config (readLoses config {} a.started a.turns) (health a) := by
  refine (exchange_keeps quiet _ _ _ _ a).andThen fun response => ?_
  split
  · exact .pure _
  · exact .raise rfl

theorem loadFixtureCapability_keeps (built : Except String PathBuf) (a : RequestAnswers) :
    Keeps lossy silent config (readLoses config {} a.started a.turns)
      (loadFixtureCapability built a) := by
  refine .after (fixtureCapabilityManifest_concludes built) fun _ =>
    (exchange_keeps quiet _ _ _ _ a).andThen fun response => ?_
  split
  · exact .pure _
  · exact .raise rfl

theorem callFixtureMul_keeps (built : Except String PathBuf) (lhs rhs : Nat)
    (a : RequestAnswers) :
    Keeps lossy silent config (readLoses config {} a.started a.turns)
      (callFixtureMul built lhs rhs a) := by
  refine .after (fixtureCapabilityManifest_concludes built) fun _ =>
    (exchange_keeps quiet _ _ _ _ a).andThen fun response => ?_
  split
  · exact .pure _
  · exact .raise rfl

theorem triggerLeanPanicFixture_keeps (built : Except String PathBuf) (a : RequestAnswers) :
    Keeps lossy silent config (readLoses config {} a.started a.turns)
      (triggerLeanPanicFixture built a) := by
  refine .after (fixtureCapabilityManifest_concludes built) fun _ =>
    Triple.bind (issueRequest_keeps quiet _ _ a) fun _ =>
    Triple.captured (readResponseWithEvents_keeps quiet _ {} a.started a.turns) ?_ ?_
  · exact fun response => Triple.raise fun _ ready => ⟨.ready ready, .inr rfl⟩
  · intro err
    cases err with
    | childPanicOrAbort exit =>
      exact Triple.pure (E := LeanWorkerError) fun _ (failed : Failed _ _ _ _) => failed.settled
    | _ => exact Triple.raise fun _ failed => failed

theorem emitTestRows_keeps (streams : List String) (data : Bool) (a : RequestAnswers) :
    Keeps lossy silent config
      (readLoses config { data := if data then some .value else none } a.started a.turns)
      (emitTestRows streams data a) := by
  refine .after (checkCancelled_concludes _ _) fun _ =>
    (exchange_keeps quiet _ _ _ _ a).andThen fun response => ?_
  split
  · exact .pure _
  · exact .raise rfl

theorem emitTestRowsThen_keeps (operation : String) (request : Request) (data : Bool)
    (a : RequestAnswers) :
    Keeps lossy silent config
      (readLoses config { data := if data then some .value else none } a.started a.turns)
      (emitTestRowsThen operation request data a) :=
  .after (checkCancelled_concludes _ _) fun _ =>
    (exchange_keeps quiet _ _ _ _ a).andThen fun _ => .raise rfl

theorem workerCapabilityMetadata_keeps (progress : Bool) (exportName : String)
    (requestJson : Except String JsonText) (a : RequestAnswers) :
    Keeps lossy silent config (readLoses config { progress := progress } a.started a.turns)
      (workerCapabilityMetadata progress exportName requestJson a) := by
  refine .after (encoded_concludes _ _) fun text => roundTrip_keeps quiet _ _ _ _ _ ?_ a
  intro response e failed
  split at failed <;> cases failed <;> rfl

theorem workerCapabilityDoctor_keeps (progress : Bool) (exportName : String)
    (requestJson : Except String JsonText) (a : RequestAnswers) :
    Keeps lossy silent config (readLoses config { progress := progress } a.started a.turns)
      (workerCapabilityDoctor progress exportName requestJson a) := by
  refine .after (encoded_concludes _ _) fun text => roundTrip_keeps quiet _ _ _ _ _ ?_ a
  intro response e failed
  split at failed <;> cases failed <;> rfl

omit quiet in
theorem degradable_keeps {D : Type} (truncate : String → String) (operation : String)
    (trip : Supervisor A) (verdict : LeanWorkerError → LeanWorker → D) (recover : RestartAnswers)
    (body : Keeps lossy silent config loses trip) :
    Keeps lossy silent config loses (degradable truncate operation trip verdict recover) := by
  apply Triple.captured body
  · exact fun value => Triple.pure fun _ settled => settled
  · intro err
    refine Triple.bind (worker_keeps.consequence (fun _ h => h) (fun _ _ h => h.2)
      fun _ _ h => h) fun w => Triple.bind (M := fun _ s =>
        s.worker.Settled (lossy ∨ loses = true)) ?_ fun _ => Triple.pure fun _ settled => settled
    cases err with
    | childPanicOrAbort exit =>
      intro s failed
      exact (restartWithReason_settles (childAbortReason truncate operation exit) recover s
        (Failed.settled failed) (.inr (.inl rfl))).weaken (fun _ _ held => .ready held.1)
        fun _ _ h => h
    | _ => exact Triple.raise fun _ failed => failed

theorem workerRunDataStream_keeps (progress : Bool) (exportName : String)
    (requestJson : Except String JsonText) (rows : DataSinkTarget) (diagnostics : Bool)
    (a : RequestAnswers) :
    Keeps lossy silent config
      (readLoses config { progress := progress, data := some rows, diagnostics := diagnostics }
        a.started a.turns)
      (workerRunDataStream progress exportName requestJson rows diagnostics a) := by
  refine .after (checkCancelled_concludes _ _) fun _ => .after (encoded_concludes _ _) fun text =>
    Triple.bind (issueRequest_keeps quiet _ _ a) fun _ =>
    Triple.bind (M := fun _ s => s.worker.Accepting lossy ∧ s.worker.config = config)
      (Triple.update fun s held =>
        ⟨held.1.congr (held.1.owned.counted fun stats => stats.streamRequested) rfl rfl, held.2⟩)
    fun _ => Triple.bind (readResponseWithEvents_keeps quiet _ _ a.started a.turns)
    fun response => ?_
  split
  · exact Triple.pure fun _ ready => .ready ready
  all_goals exact Triple.raise fun _ ready => ⟨.ready ready, .inr rfl⟩

theorem workerListDeclarationsStrings_keeps (progress : Bool)
    (decode : JsonText → Except String String) (filter : JsonText) (a : RequestAnswers) :
    Keeps lossy silent config
      (readLoses config { progress := progress, data := some .raw } a.started a.turns)
      (workerListDeclarationsStrings progress decode filter a) := by
  refine .after (checkCancelled_concludes _ _) fun _ =>
    Triple.bind (issueRequest_keeps quiet _ _ a) fun _ =>
    Triple.bind (M := fun _ s => s.worker.Accepting lossy ∧ s.worker.config = config)
      (Triple.read fun _ held => held) fun before =>
    Triple.bind (readResponseWithEvents_keeps quiet _ _ a.started a.turns) fun response =>
    Triple.bind (M := fun _ s => s.worker.Ready) (Triple.read fun _ ready => ready) fun after => ?_
  have raises : ∀ text : ProtocolText, Triple (fun s => s.worker.Ready)
      (raise (.protocol text) : Supervisor (List String))
      (fun _ s => s.worker.Settled (lossy ∨ readLoses config
        { progress := progress, data := some .raw } a.started a.turns = true))
      (Failed (lossy ∨ readLoses config { progress := progress, data := some .raw } a.started
        a.turns = true) silent) := fun text =>
    Triple.raise fun _ ready => ⟨.ready ready, .inr rfl⟩
  split
  split
  · exact raises _
  · split
    · split
      · exact Triple.pure fun _ ready => .ready ready
      · exact raises _
    · exact raises _

theorem Op.perform_keeps (op : Op) : Keeps lossy silent config (op.loses config) op.perform := by
  cases op with
  | status answer => exact (status_keeps answer).discard
  | rssKib sample =>
    exact Keeps.discard (Triple.bind (worker_keeps.consequence (fun _ h => h) (fun _ _ h => h.2)
      fun _ _ h => h) fun w => Triple.bind ((modify_settled _ (by intro w; rfl)).consequence
        (fun _ entering => entering.settled.weaken .inl) (fun _ _ h => h) fun _ _ h => h)
        fun _ => Triple.pure fun _ settled => settled)
  | setRequestTimeout timeout =>
    exact modify_keeps (fun w => { w with config := { w.config with requestTimeout := timeout } })
      fun _ => rfl
  | recordCapabilityOpenTiming load opened =>
    exact modify_keeps (fun w => w.counted fun stats => stats.capabilityOpenTimed load opened)
      fun _ => rfl
  | recordCommandTiming first elapsed =>
    exact modify_keeps (fun w => w.counted fun stats => stats.commandTimed first elapsed)
      fun _ => rfl
  | cycle a => exact restartWithReason_keeps _ a
  | cycleWithRestartReason reason a => exact restartWithReason_keeps reason a
  | killForTest answer => exact killForTest_keeps answer
  | shutdown a => exact (shutdown_keeps a).discard
  | health a => exact health_keeps quiet a
  | loadFixtureCapability built a => exact loadFixtureCapability_keeps quiet built a
  | callFixtureMul built lhs rhs a => exact (callFixtureMul_keeps quiet built lhs rhs a).discard
  | triggerLeanPanicFixture built a =>
    exact (triggerLeanPanicFixture_keeps quiet built a).discard
  | emitTestRows streams data a => exact (emitTestRows_keeps quiet streams data a).discard
  | emitTestRowsThenExit data a => exact emitTestRowsThen_keeps quiet _ _ data a
  | emitTestRowsThenPanic data a => exact emitTestRowsThen_keeps quiet _ _ data a
  | openWorkerSession opened progress a => exact openWorkerSession_keeps quiet opened progress a
  | capabilityMetadata progress exportName requestJson a =>
    exact (workerCapabilityMetadata_keeps quiet progress exportName requestJson a).discard
  | capabilityDoctor progress exportName requestJson a =>
    exact (workerCapabilityDoctor_keeps quiet progress exportName requestJson a).discard
  | verifyDeclaration progress truncate request options a recover =>
    exact (degradable_keeps truncate _ _ _ recover
      (expecting_keeps quiet _ _ progress _ a)).discard
  | verifyDeclarationBatch progress truncate targets request options a recover =>
    exact (degradable_keeps truncate _ _ _ recover
      (expecting_keeps quiet _ _ progress _ a)).discard
  | processModuleQueryBatch progress truncate source selectors budgets options a recover =>
    exact (degradable_keeps truncate _ _ _ recover
      (expecting_keeps quiet _ _ progress _ a)).discard
  | runDataStream progress exportName requestJson rows diagnostics a =>
    exact (workerRunDataStream_keeps quiet progress exportName requestJson rows diagnostics
      a).discard
  | listDeclarationsStrings progress decode filter a =>
    exact (workerListDeclarationsStrings_keeps quiet progress decode filter a).discard
  | _ => exact Keeps.discard (expecting_keeps quiet _ _ _ _ _)

end Contracts

theorem operate_settled (lossy : Prop) (w w' : LeanWorker) (op : Op)
    (settled : w.Settled lossy) (moved : operate w op = some w') :
    w'.Settled (lossy ∨ op.loses w.config = true) := by
  obtain ⟨t, ends, rfl⟩ := Option.map_eq_some_iff.mp moved
  have keeps := @Op.perform_keeps lossy True w.config (fun _ => trivial) op ⟨w, []⟩
    ⟨settled, .inl trivial, rfl⟩
  exact Outcome.Meets.ended (I := fun s => s.worker.Settled (lossy ∨ op.loses w.config = true))
    (keeps.weaken (fun _ _ h => h) fun _ _ failed => failed.settled) ends

section FromSpawn

variable (config : LeanWorkerConfig) (pid : Nat) (stderr : Bool) (elapsed : Duration)
  (now : Instant)

theorem LeanWorker.ready_fresh : (LeanWorker.fresh config pid stderr elapsed now).Ready :=
  ⟨owned_fresh config pid stderr elapsed now, rfl, rfl⟩

theorem reachable_settled (ops : List Op) (w : LeanWorker)
    (reached : Runs.run operate (.fresh config pid stderr elapsed now) ops = some w) :
    w.Settled True :=
  Runs.invariant (fun w op w' settled moved =>
    (operate_settled True w w' op settled moved).weaken fun _ => trivial)
    (.ready (LeanWorker.ready_fresh config pid stderr elapsed now)) reached

/-- While no read loses the output pipe, an idle worker with a child holds both pipes, and no
operation on it fails because the worker were not running. -/
theorem idle_worker_holds_both_pipes (ops : List Op) (w : LeanWorker)
    (kept : Runs.Guarded operate (fun w op => op.loses w.config = false)
      (.fresh config pid stderr elapsed now) ops)
    (reached : Runs.run operate (.fresh config pid stderr elapsed now) ops = some w)
    (idle : w.state.isIdle = true) (alive : w.child.isSome) :
    w.stdin = true ∧ w.stdout = true ∧
      ∀ op e t, Op.perform op ⟨w, []⟩ = .raised e t → e.saysNotRunning = false := by
  have settled : w.Settled False := Runs.invariant_of_guarded
    (C := fun w op => op.loses w.config = false) (fun w op w' settled keeps moved =>
      (operate_settled False w w' op settled moved).weaken (by simp [keeps]))
    (.ready (LeanWorker.ready_fresh config pid stderr elapsed now)) kept reached
  have ready : w.Ready := by
    cases settled with
    | ready ready => exact ready
    | lost never lost => exact never.elim
    | gone gone => rw [gone.child] at alive; cases alive
    | stopping stopping =>
      have accepts : w.state.rejectsNewRequests = false := by
        cases state : w.state <;> rw [state] at idle <;> first | rfl | cases idle
      rw [stopping.rejects] at accepts
      cases accepts
  refine ⟨ready.stdin, ready.stdout, fun op e t raised => ?_⟩
  have keeps := @Op.perform_keeps False False w.config id op ⟨w, []⟩
    ⟨.ready ready, .inr ready, rfl⟩
  rw [raised] at keeps
  exact keeps.running.resolve_left id

end FromSpawn

def Op.panickingRows : Op :=
  .emitTestRows ["rows"] true (.smooth [{ TurnAnswers.smooth
    (.event (.frame (.dataRow ⟨"rows", 0, "null"⟩)) 0) with sink := .panicked "sink" }])

/-- The panic leaves an idle worker with a living child and without its output pipe, and the next
request writes its frame before it finds out. -/
theorem panicking_sink_loses_stdout :
    ∃ w : LeanWorker, Runs.run operate (.spawned {}) [.panickingRows] = some w ∧
      w.state.isIdle = true ∧ w.child.isSome = true ∧ w.stdout = false ∧
      ∃ t, (Op.health (.smooth [])).perform ⟨w, []⟩ = .raised w.deadError t ∧
        w.deadError.saysNotRunning = true ∧ .write .health .written ∈ t.effects :=
  ⟨_, rfl, rfl, rfl, rfl, _, rfl, rfl, by simp [RequestAnswers.smooth]⟩

/-- The same request with a sink that takes the row, up to its end. -/
def Op.acceptedRows : Op :=
  .emitTestRows ["rows"] true (.smooth
    [.smooth (.event (.frame (.dataRow ⟨"rows", 0, "null"⟩)) 0),
      .smooth (.event (.frame (.response (.rowsComplete 1))) 0)])

theorem accepted_rows_keep_both_pipes :
    ∃ w : LeanWorker, Runs.run operate (.spawned {}) [.acceptedRows] = some w ∧
      w.stdin = true ∧ w.stdout = true ∧
      ∀ op e t, Op.perform op ⟨w, []⟩ = .raised e t → e.saysNotRunning = false :=
  ⟨_, rfl, idle_worker_holds_both_pipes { executable := ⟨[]⟩ } 1 true 0 0 [.acceptedRows] _
    ⟨rfl, fun _ _ => trivial⟩ rfl rfl rfl⟩

end LeanRs
