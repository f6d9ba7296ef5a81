import LeanRs.Worker.StreamOutcome

/-! Whether every streaming request that went out has been recorded as a success or a failure,
over runs of public operations. -/
namespace LeanRs

open Procedures Procedure Supervisor

section Quiet

variable {c : RequestContext} (quiet : c.streaming = false)

include quiet

theorem fixes_of_records {m : Supervisor Turn}
    (body : ∀ k, Triple (fun s => s.streams = k) m (TurnCounts c k)
      (fun _ s => k.Records c.streaming s.streams)) : Fixes World.streams m := by
  have same : ∀ {k k' : StreamCounts}, k.Records c.streaming k' → k' = k := by
    intro k k' records
    rwa [StreamCounts.Records, quiet, if_neg Bool.false_ne_true] at records
  refine fun k => (body k).consequence (fun _ h => h) (fun turn s counts => ?_)
    fun _ _ records => same records
  cases turn with
  | again waits => exact counts
  | complete response => exact same counts

theorem handleEvent_quiet (waits : Nat) (a : TurnAnswers) (event : RequestReaderEvent) :
    Fixes World.streams (handleEvent c waits a event) := by
  refine .bind worker_streams fun w => .choose
    (fun _ => .bind finish_streams fun _ => .raise _) fun _ => .choose
    (fun _ => .bind finish_streams fun _ => .bind worker_streams fun _ => .raise _) fun _ => ?_
  refine .bind (count_streams _ fun _ => rfl) fun _ => ?_
  cases event with
  | message generation requestId message backpressure =>
    exact fixes_of_records quiet fun _ => handleMessage_records _ a message
  | terminal generation requestId message backpressure =>
    exact fixes_of_records quiet fun _ => handleTerminal_records _ a message
  | readError generation requestId text eof backpressure =>
    exact fixes_of_records quiet fun _ => handleFrame_records _ a (.failed text eof)

theorem handleReception_quiet (waits : Nat) (a : TurnAnswers) (reception : Reception) :
    Fixes World.streams (handleReception c waits a reception) := by
  cases reception with
  | event event => exact handleEvent_quiet quiet waits a event
  | sampleAgain => exact .pure _
  | timedOut => exact fixes_of_records quiet fun _ => replaceAndFail_records waits a _ _ _
  | disconnected => exact .bind finish_streams fun _ => .raise _

theorem readTurn_quiet (waits : Nat) (a : TurnAnswers) :
    Fixes World.streams (readTurn c waits a) := by
  refine .bind (hardRssLimitExceeded_streams a.rss) fun exceeded => ?_
  cases exceeded with
  | some pair => exact fixes_of_records quiet fun _ => hardLimitExit_records waits a _ _ _
  | none =>
    exact .bind (receiveEvent_streams c a) fun reception => handleReception_quiet quiet waits a _

theorem readLoop_quiet (waits : Nat) (turns : List TurnAnswers) :
    Fixes World.streams (readLoop c waits turns) := by
  induction turns generalizing waits with
  | nil => exact .wait
  | cons a rest ih =>
    refine .bind (readTurn_quiet quiet waits a) fun turn => ?_
    cases turn with
    | again waits' => exact ih waits'
    | complete response => exact .pure _

end Quiet

theorem readResponseWithEvents_quiet (operation : String) (sinks : Sinks) (started : Instant)
    (turns : List TurnAnswers) (quiet : sinks.data = none) :
    Fixes World.streams (readResponseWithEvents operation sinks started turns) := by
  refine .bind worker_streams fun w => .choose (fun _ => ?_) fun _ => .raise _
  have silent : (w.requestContext operation sinks started).streaming = false := by
    simp [RequestContext.streaming, LeanWorker.requestContext, quiet]
  exact .bind (modify_streams _ fun _ => rfl) fun _ => readLoop_quiet silent 0 turns

section Plain

variable {A : Type}

theorem checkCancelled_streams (operation : String) (cancelled : Bool) :
    Fixes World.streams (checkCancelled operation cancelled) :=
  .choose (fun _ => .raise _) fun _ => .pure _

theorem liftResult_streams (result : Except LeanWorkerError A) :
    Fixes World.streams (liftResult result) := by
  cases result
  · exact .raise _
  · exact .pure _

theorem manifest_streams (built : Except String PathBuf) :
    Fixes World.streams (fixtureCapabilityManifest built) := by
  cases built
  · exact .raise _
  · exact .pure _

theorem encoded_streams (requestJson : Except String JsonText)
    (failure : String → ProtocolText) : Fixes World.streams (encoded requestJson failure) := by
  cases requestJson
  · exact .raise _
  · exact .pure _

theorem exchange_quiet (operation : String) (request : Request) (importLike : Bool)
    (sinks : Sinks) (a : RequestAnswers) (quiet : sinks.data = none) :
    Fixes World.streams (exchange operation request importLike sinks a) :=
  .bind (issueRequest_streams request importLike a) fun _ =>
    readResponseWithEvents_quiet operation sinks a.started a.turns quiet

theorem roundTrip_streams (operation : String) (request : Request) (importLike progress : Bool)
    (extract : Response → Except LeanWorkerError A) (a : RequestAnswers) :
    Fixes World.streams (roundTrip operation request importLike progress extract a) :=
  .bind (checkCancelled_streams _ _) fun _ => .bind (exchange_quiet _ _ _ _ _ rfl) fun _ =>
    liftResult_streams _

theorem triggerLeanPanicFixture_streams (built : Except String PathBuf) (a : RequestAnswers) :
    Fixes World.streams (triggerLeanPanicFixture built a) := by
  refine .bind (manifest_streams built) fun _ => .bind (issueRequest_streams _ _ _) fun _ =>
    .bind (.capture (readResponseWithEvents_quiet _ _ _ _ rfl)) fun result => ?_
  cases result with
  | ok response => exact .raise _
  | error err =>
    cases err with
    | childPanicOrAbort exit => exact .pure _
    | _ => exact .raise _

theorem degradable_streams {D : Type} (truncate : String → String) (operation : String)
    {trip : Supervisor A} (verdict : LeanWorkerError → LeanWorker → D) (a : RestartAnswers)
    (body : Fixes World.streams trip) :
    Fixes World.streams (degradable truncate operation trip verdict a) := by
  refine .bind body.capture fun result => ?_
  cases result with
  | ok value => exact .pure _
  | error err =>
    refine .bind worker_streams fun w => .bind ?_ fun _ => .pure _
    cases err with
    | childPanicOrAbort exit => exact restartWithReason_streams _ a
    | _ => exact .raise _

theorem openWorkerSession_streams (config : LeanWorkerSessionConfig) (progress : Bool)
    (a : OpenAnswers) : Fixes World.streams (openWorkerSession config progress a) := by
  have deferred : Fixes World.streams (takePendingRestart a.deferred) := by
    refine .bind worker_streams fun w => ?_
    split
    · exact .bind (modify_streams _ fun _ => rfl) fun _ => restartWithReason_streams _ _
    · exact .pure _
  have opened : ∀ expectReuse beforeRestarts importStats, Fixes World.streams
      (hostSessionOpened config expectReuse beforeRestarts importStats a.importElapsed) :=
    fun _ _ _ => .bind (modify_streams _ fun _ => rfl) fun _ =>
      .bind (modify_streams _ fun _ => rfl) fun _ => .bind (modify_streams _ fun _ => rfl)
      fun _ => .bind (count_streams _ fun _ => rfl) fun _ => modify_streams _ fun _ => rfl
  have reused : ∀ importStats, Fixes World.streams (hostSessionReused config importStats) :=
    fun _ => .bind (modify_streams _ fun _ => rfl) fun _ => count_streams _ fun _ => rfl
  refine .bind (checkCancelled_streams _ _) fun _ => .bind worker_streams fun _ =>
    .bind deferred fun _ => .bind worker_streams fun _ => .bind (prepareRequest_streams _ _)
    fun _ => .bind worker_streams fun _ => .bind (sendRequest_streams _ _ _) fun _ =>
    .bind (modify_streams _ fun _ => rfl) fun _ =>
    .bind (.capture (readResponseWithEvents_quiet _ _ _ _ rfl)) fun result => ?_
  split
  · exact .bind (modify_streams _ fun _ => rfl) fun _ => .raise _
  · exact opened _ _ _
  · exact reused _
  · exact .bind (modify_streams _ fun _ => rfl) fun _ => .raise _

theorem discard_streams {m : Supervisor A} (body : Fixes World.streams m) :
    Fixes World.streams (discard m) := .bind body fun _ => .pure _

end Plain

/-- A request whose rows go to a sink. `counted` says whether the supervisor counts it among the
streaming requests. -/
structure StreamCall where
  counted : Bool
  request : Request
  sinks : Sinks
  answers : RequestAnswers

/-- The request an operation makes with a row sink, unless it gives up before it asks for the
child. Only `worker_run_data_stream` counts it. -/
def Op.streamCall : Op → Option StreamCall
  | .runDataStream progress exportName (.ok text) rows diagnostics a =>
    if a.cancelled then none
    else some ⟨true, .runDataStream exportName text progress,
      { progress := progress, data := some rows, diagnostics := diagnostics }, a⟩
  | .listDeclarationsStrings progress _ filter a =>
    if a.cancelled then none
    else some ⟨false, .listDeclarationsStrings filter progress,
      { progress := progress, data := some .raw }, a⟩
  | .emitTestRows streams true a =>
    if a.cancelled then none else some ⟨false, .emitTestRows streams, { data := some .value }, a⟩
  | .emitTestRowsThenExit true a =>
    if a.cancelled then none else some ⟨false, .emitTestRowsThenExit, { data := some .value }, a⟩
  | .emitTestRowsThenPanic true a =>
    if a.cancelled then none else some ⟨false, .emitTestRowsThenPanic, { data := some .value }, a⟩
  | _ => none

/-- The worker that waits for the answer, when the request goes out. -/
def StreamCall.issued (call : StreamCall) (w : LeanWorker) : Option LeanWorker :=
  match issueRequest call.request false call.answers ⟨w, []⟩ with
  | .returned _ t => some t.worker
  | _ => none

/-- The read of the answer records how the stream ended: the output pipe is there, and its reader
does not disconnect. -/
def StreamCall.recorded (call : StreamCall) (w : LeanWorker) : Bool :=
  w.stdout && !(w.requestContext "" call.sinks call.answers.started).loopDisconnects w.config
    call.answers.turns

/-- A streaming request that goes out is counted exactly if its end is recorded. -/
def Op.Accounted (w : LeanWorker) (op : Op) : Prop :=
  ∀ call ∈ op.streamCall, ∀ v ∈ call.issued w, call.recorded v = call.counted

theorem RequestContext.loopDisconnects_operation (w : LeanWorker) (operation : String)
    (sinks : Sinks) (started : Instant) (turns : List TurnAnswers) :
    (w.requestContext operation sinks started).loopDisconnects w.config turns =
      (w.requestContext "" sinks started).loopDisconnects w.config turns := by
  induction turns with
  | nil => rfl
  | cons a rest ih =>
    have fate : (w.requestContext operation sinks started).turnFate w.config a =
        (w.requestContext "" sinks started).turnFate w.config a := rfl
    have gone : (w.requestContext operation sinks started).turnDisconnects w.config a =
        (w.requestContext "" sinks started).turnDisconnects w.config a := rfl
    rw [loopDisconnects, loopDisconnects, fate, gone, ih]

theorem readResponseWithEvents_records (call : StreamCall) (operation : String) (s : World)
    (accepting : s.worker.Accepting True) (streaming : call.sinks.data.isSome) :
    let settled := fun (t : World) =>
      if call.recorded s.worker then s.streams.Settles t.streams else t.streams = s.streams
    (readResponseWithEvents operation call.sinks call.answers.started call.answers.turns s).Meets
      (fun _ t => settled t) fun _ t => settled t := by
  intro settled
  cases accepting with
  | lost _ lost => simp [readResponseWithEvents, lost.stdout, settled, StreamCall.recorded]
  | ready ready =>
    have inLoop : (LeanWorker.beginInFlight { s.worker with stdout := false } operation).InLoop
        (s.worker.requestContext operation call.sinks call.answers.started) s.worker.config :=
      ⟨⟨ready.child, ready.lastExit, ready.stdin⟩, rfl, rfl, rfl, _, rfl, .inl rfl⟩
    have agrees : ∀ t : World, (s.worker.requestContext operation call.sinks
        call.answers.started).Counted s.streams ((s.worker.requestContext operation call.sinks
        call.answers.started).loopDisconnects s.worker.config call.answers.turns) t →
        settled t := by
      intro t counted
      have requested : (s.worker.requestContext operation call.sinks
        call.answers.started).streaming = true := streaming
      simp only [RequestContext.Counted, StreamCounts.Records, requested, if_true,
        RequestContext.loopDisconnects_operation] at counted
      simp only [settled, StreamCall.recorded, ready.stdout, Bool.true_and]
      cases gone : (s.worker.requestContext "" call.sinks call.answers.started).loopDisconnects
        s.worker.config call.answers.turns <;> rw [gone] at counted <;> simpa using counted
    simp only [readResponseWithEvents, bind_apply, worker_apply, Outcome.andThen_returned,
      ready.stdout, if_true, modify_apply]
    exact (readLoop_records 0 call.answers.turns _ ⟨inLoop, rfl⟩).weaken
      (fun _ t => agrees t) fun _ t => agrees t

section Streaming

variable {w : LeanWorker} (call : StreamCall)

structure StreamCall.Waits (w : LeanWorker) (s : World) : Prop where
  issued : s.worker ∈ call.issued w
  accepting : s.worker.Accepting True
  conserved : s.streams.Conserved

theorem checkCancelled_starts (operation : String) (cancelled : Bool)
    (conserved : w.stats.streams.Conserved) :
    Triple (fun s => s = ⟨w, []⟩) (checkCancelled operation cancelled)
      (fun _ s => s = ⟨w, []⟩ ∧ cancelled = false) (fun _ s => s.streams.Conserved) := by
  refine .choose (fun _ => Triple.raise fun s start => ?_) fun goesOn =>
    Triple.pure fun s start => ?_
  · rw [start]; exact conserved
  · exact ⟨start, by simpa using goesOn⟩

theorem issueRequest_waits (settled : w.Settled True) (conserved : w.stats.streams.Conserved) :
    Triple (fun s => s = ⟨w, []⟩) (issueRequest call.request false call.answers)
      (fun _ => call.Waits w) (fun _ s => s.streams.Conserved) := by
  rintro s rfl
  have kept := (issueRequest_streams call.request false call.answers).keeps
    StreamCounts.Conserved ⟨w, []⟩ conserved
  have accepting := issueRequest_accepting call.request false call.answers ⟨w, []⟩ settled
  cases outcome : issueRequest call.request false call.answers ⟨w, []⟩ with
  | waiting t => trivial
  | raised e t => rw [outcome] at kept; exact kept
  | returned _ t =>
    rw [outcome] at kept accepting
    exact ⟨by simp [StreamCall.issued, outcome], accepting, kept⟩

theorem respond_silent (operation : String) (streaming : call.sinks.data.isSome)
    (silent : ∀ v ∈ call.issued w, call.recorded v = false) :
    Triple (call.Waits w)
      (readResponseWithEvents operation call.sinks call.answers.started call.answers.turns)
      (fun _ s => s.streams.Conserved) (fun _ s => s.streams.Conserved) := by
  intro s waits
  have unrecorded := silent s.worker waits.issued
  refine (readResponseWithEvents_records call operation s waits.accepting streaming).weaken
    (fun _ t counts => ?_) fun _ t counts => ?_
  · rw [unrecorded, if_neg Bool.false_ne_true] at counts
    exact counts ▸ waits.conserved
  · rw [unrecorded, if_neg Bool.false_ne_true] at counts
    exact counts ▸ waits.conserved

/-- The state in which the answer of a counted request is waited for. -/
structure StreamCall.Entered (s : World) : Prop where
  recorded : call.recorded s.worker = true
  accepting : s.worker.Accepting True
  counted : ∃ k : StreamCounts, k.Conserved ∧ s.streams = k.requested

theorem streamRequested_enters (records : ∀ v ∈ call.issued w, call.recorded v = true)
    {R : LeanWorkerError → World → Prop} :
    Triple (call.Waits w) (count fun stats => stats.streamRequested) (fun _ => call.Entered) R :=
  Triple.update fun s waits => ⟨records s.worker waits.issued,
    waits.accepting.congr (waits.accepting.owned.counted _) rfl rfl, s.streams, waits.conserved,
    rfl⟩

theorem respond_counted (operation : String) (streaming : call.sinks.data.isSome) :
    Triple call.Entered
      (readResponseWithEvents operation call.sinks call.answers.started call.answers.turns)
      (fun _ s => s.streams.Conserved) (fun _ s => s.streams.Conserved) := by
  intro s entered
  obtain ⟨k, conserved, same⟩ := entered.counted
  refine (readResponseWithEvents_records call operation s entered.accepting streaming).weaken
    (fun _ t counts => ?_) fun _ t counts => ?_
  · rw [entered.recorded, if_pos rfl, same] at counts
    exact conserved.settled counts
  · rw [entered.recorded, if_pos rfl, same] at counts
    exact conserved.settled counts

theorem conserved_after {A B : Type} {m : Supervisor A} {f : A → Supervisor B} {P : World → Prop}
    (body : Triple P m (fun _ s => s.streams.Conserved) fun _ s => s.streams.Conserved)
    (rest : ∀ a, Fixes World.streams (f a)) :
    Triple P (m >>= f) (fun _ s => s.streams.Conserved) fun _ s => s.streams.Conserved :=
  Triple.bind body fun a => (rest a).keeps StreamCounts.Conserved

theorem workerRunDataStream_conserved (progress : Bool) (exportName : String)
    (requestJson : Except String JsonText) (rows : DataSinkTarget) (diagnostics : Bool)
    (a : RequestAnswers) (settled : w.Settled True) (conserved : w.stats.streams.Conserved)
    (accounted :
      Op.Accounted w (.runDataStream progress exportName requestJson rows diagnostics a)) :
    Triple (fun s => s = ⟨w, []⟩)
      (workerRunDataStream progress exportName requestJson rows diagnostics a)
      (fun _ s => s.streams.Conserved) (fun _ s => s.streams.Conserved) := by
  refine Triple.bind (checkCancelled_starts _ _ conserved) fun _ =>
    Triple.given fun uncancelled => ?_
  cases requestJson with
  | error text =>
    refine Triple.bind (M := fun _ _ => False) (Triple.raise fun s start => ?_)
      fun _ _ never => never.elim
    rw [start]
    exact conserved
  | ok text =>
    refine Triple.bind (M := fun found s => s = ⟨w, []⟩ ∧ found = text)
      (Triple.pure fun s start => ⟨start, rfl⟩) fun found => Triple.given fun same => ?_
    subst same
    let call : StreamCall := ⟨true, .runDataStream exportName found progress,
      { progress := progress, data := some rows, diagnostics := diagnostics }, a⟩
    have records : ∀ v ∈ call.issued w, call.recorded v = true :=
      accounted call (by simp [Op.streamCall, uncancelled, call])
    refine Triple.bind (issueRequest_waits call settled conserved) fun _ =>
      Triple.bind (streamRequested_enters call records) fun _ =>
      conserved_after (respond_counted call "worker_run_data_stream" rfl) fun response => ?_
    split
    · exact .pure _
    all_goals exact .raise _

theorem exchange_conserved {A : Type} (operation : String) (request : Request) (sinks : Sinks)
    (a : RequestAnswers) {f : Response → Supervisor A} (settled : w.Settled True)
    (conserved : w.stats.streams.Conserved) (streaming : sinks.data.isSome)
    (accounted : a.cancelled = false → ∀ v ∈ StreamCall.issued ⟨false, request, sinks, a⟩ w,
      StreamCall.recorded ⟨false, request, sinks, a⟩ v = false)
    (rest : ∀ response, Fixes World.streams (f response)) :
    Triple (fun s => s = ⟨w, []⟩)
      (checkCancelled operation a.cancelled >>= fun _ =>
        exchange operation request false sinks a >>= f)
      (fun _ s => s.streams.Conserved) (fun _ s => s.streams.Conserved) := by
  refine Triple.bind (checkCancelled_starts _ _ conserved) fun _ =>
    Triple.given fun uncancelled => conserved_after ?_ rest
  exact Triple.bind (issueRequest_waits ⟨false, request, sinks, a⟩ settled conserved)
    fun _ => respond_silent ⟨false, request, sinks, a⟩ operation streaming
      (accounted uncancelled)

theorem workerListDeclarationsStrings_conserved (progress : Bool)
    (decode : JsonText → Except String String) (filter : JsonText) (a : RequestAnswers)
    (settled : w.Settled True) (conserved : w.stats.streams.Conserved)
    (accounted : Op.Accounted w (.listDeclarationsStrings progress decode filter a)) :
    Triple (fun s => s = ⟨w, []⟩) (workerListDeclarationsStrings progress decode filter a)
      (fun _ s => s.streams.Conserved) (fun _ s => s.streams.Conserved) := by
  refine Triple.bind (checkCancelled_starts _ _ conserved) fun _ =>
    Triple.given fun uncancelled => ?_
  let call : StreamCall := ⟨false, .listDeclarationsStrings filter progress,
    { progress := progress, data := some .raw }, a⟩
  have silent : ∀ v ∈ call.issued w, call.recorded v = false :=
    accounted call (by simp [Op.streamCall, uncancelled, call])
  refine Triple.bind (issueRequest_waits call settled conserved) fun _ =>
    Triple.bind (M := fun _ => call.Waits w) (Triple.read fun _ waits => waits)
    fun before => conserved_after (respond_silent call _ rfl silent) fun response =>
    .bind .read fun after => ?_
  split
  split
  · exact .raise _
  · split
    · split
      · exact .pure _
      · exact .raise _
    · exact .raise _

end Streaming

def Op.asksForRows : Op → Bool
  | .runDataStream _ _ _ _ _ _ | .listDeclarationsStrings _ _ _ _ => true
  | .emitTestRows _ data _ | .emitTestRowsThenExit data _ | .emitTestRowsThenPanic data _ => data
  | _ => false

theorem perform_streams (op : Op) (plain : op.asksForRows = false) :
    Fixes World.streams op.perform := by
  have trip {A : Type} (operation : String) (request : Request) (progress : Bool)
      (extract : Response → Except LeanWorkerError A) (a : RequestAnswers) : Fixes World.streams
      (discard (roundTrip operation request false progress extract a)) :=
    discard_streams (roundTrip_streams operation request false progress extract a)
  cases op with
  | runDataStream progress exportName requestJson rows diagnostics a =>
    cases plain
  | listDeclarationsStrings progress decode filter a => cases plain
  | emitTestRows streams data a =>
    cases data with
    | true => cases plain
    | false =>
      refine discard_streams (.bind (checkCancelled_streams _ _) fun _ =>
        .bind (exchange_quiet _ _ _ _ _ rfl) fun response => ?_)
      split
      · exact .pure _
      · exact .raise _
  | emitTestRowsThenExit data a =>
    cases data with
    | true => cases plain
    | false =>
      exact .bind (checkCancelled_streams _ _) fun _ => .bind (exchange_quiet _ _ _ _ _ rfl)
        fun _ => .raise _
  | emitTestRowsThenPanic data a =>
    cases data with
    | true => cases plain
    | false =>
      exact .bind (checkCancelled_streams _ _) fun _ => .bind (exchange_quiet _ _ _ _ _ rfl)
        fun _ => .raise _
  | openWorkerSession config progress a => exact openWorkerSession_streams config progress a
  | status answer => exact discard_streams (stop_streams (status_frame answer))
  | rssKib sample =>
    exact discard_streams (.bind worker_streams fun w =>
      .bind (count_streams _ (rssSampled_streams _)) fun _ => .pure _)
  | setRequestTimeout timeout => exact modify_streams _ fun _ => rfl
  | recordCapabilityOpenTiming load opened => exact count_streams _ fun _ => rfl
  | recordCommandTiming first elapsed =>
    refine count_streams _ fun stats => ?_
    cases first <;> rfl
  | cycle a => exact restartWithReason_streams _ a
  | cycleWithRestartReason reason a => exact restartWithReason_streams reason a
  | killForTest answer =>
    exact .bind worker_streams fun w => .choose (fun _ => stop_streams (killChild_frame answer))
      fun _ => .raise _
  | shutdown a => exact discard_streams (stop_streams (shutdownChild_frame a .graceful))
  | health a =>
    refine .bind (exchange_quiet _ _ _ _ _ rfl) fun response => ?_
    split
    · exact .pure _
    · exact .raise _
  | loadFixtureCapability built a =>
    refine .bind (manifest_streams built) fun _ => .bind (exchange_quiet _ _ _ _ _ rfl)
      fun response => ?_
    split
    · exact .pure _
    · exact .raise _
  | callFixtureMul built lhs rhs a =>
    refine discard_streams (.bind (manifest_streams built) fun _ =>
      .bind (exchange_quiet _ _ _ _ _ rfl) fun response => ?_)
    split
    · exact .pure _
    · exact .raise _
  | triggerLeanPanicFixture built a =>
    exact discard_streams (triggerLeanPanicFixture_streams built a)
  | capabilityMetadata progress exportName requestJson a =>
    exact discard_streams (.bind (encoded_streams _ _) fun _ => roundTrip_streams _ _ _ _ _ a)
  | capabilityDoctor progress exportName requestJson a =>
    exact discard_streams (.bind (encoded_streams _ _) fun _ => roundTrip_streams _ _ _ _ _ a)
  | verifyDeclaration progress truncate request options a recover =>
    exact discard_streams (degradable_streams truncate _ _ recover (roundTrip_streams _ _ _ _ _ a))
  | verifyDeclarationBatch progress truncate targets request options a recover =>
    exact discard_streams (degradable_streams truncate _ _ recover (roundTrip_streams _ _ _ _ _ a))
  | processModuleQueryBatch progress truncate source selectors budgets options a recover =>
    exact discard_streams (degradable_streams truncate _ _ recover (roundTrip_streams _ _ _ _ _ a))
  | _ => exact trip _ _ _ _ _

theorem emitTestRowsThen_conserved {w : LeanWorker} (operation : String) (request : Request)
    (a : RequestAnswers) (settled : w.Settled True) (conserved : w.stats.streams.Conserved)
    (accounted : a.cancelled = false →
      ∀ v ∈ StreamCall.issued ⟨false, request, { data := some .value }, a⟩ w,
        StreamCall.recorded ⟨false, request, { data := some .value }, a⟩ v = false) :
    Triple (fun s => s = ⟨w, []⟩) (emitTestRowsThen operation request true a)
      (fun _ s => s.streams.Conserved) (fun _ s => s.streams.Conserved) :=
  exchange_conserved operation request { data := some .value } a settled conserved rfl accounted
    fun _ => .raise _

theorem perform_conserved {w : LeanWorker} (op : Op) (settled : w.Settled True)
    (conserved : w.stats.streams.Conserved) (accounted : op.Accounted w) :
    Triple (fun s => s = ⟨w, []⟩) op.perform (fun _ s => s.streams.Conserved)
      (fun _ s => s.streams.Conserved) := by
  have plain : op.asksForRows = false → Triple (fun s => s = ⟨w, []⟩) op.perform
      (fun _ s => s.streams.Conserved) (fun _ s => s.streams.Conserved) := by
    rintro plain s rfl
    exact (perform_streams op plain).keeps StreamCounts.Conserved ⟨w, []⟩ conserved
  cases op with
  | runDataStream progress exportName requestJson rows diagnostics a =>
    exact conserved_after (workerRunDataStream_conserved progress exportName requestJson rows
      diagnostics a settled conserved accounted) fun _ => .pure _
  | listDeclarationsStrings progress decode filter a =>
    exact conserved_after (workerListDeclarationsStrings_conserved progress decode filter a settled
      conserved accounted) fun _ => .pure _
  | emitTestRows streams data a =>
    cases data with
    | false => exact plain rfl
    | true =>
      refine conserved_after (exchange_conserved "emit_test_rows" (.emitTestRows streams)
        { data := some .value } a settled conserved rfl (fun uncancelled => ?_) fun response => ?_)
        fun _ => .pure _
      · exact accounted ⟨false, .emitTestRows streams, { data := some .value }, a⟩
          (by simp [Op.streamCall, uncancelled])
      · split
        · exact .pure _
        · exact .raise _
  | emitTestRowsThenExit data a =>
    cases data with
    | false => exact plain rfl
    | true =>
      exact emitTestRowsThen_conserved _ _ a settled conserved fun uncancelled =>
        accounted ⟨false, .emitTestRowsThenExit, { data := some .value }, a⟩
          (by simp [Op.streamCall, uncancelled])
  | emitTestRowsThenPanic data a =>
    cases data with
    | false => exact plain rfl
    | true =>
      exact emitTestRowsThen_conserved _ _ a settled conserved fun uncancelled =>
        accounted ⟨false, .emitTestRowsThenPanic, { data := some .value }, a⟩
          (by simp [Op.streamCall, uncancelled])
  | _ => exact plain rfl

theorem operate_conserved {w w' : LeanWorker} (op : Op) (settled : w.Settled True)
    (conserved : w.stats.streams.Conserved) (accounted : op.Accounted w)
    (moved : operate w op = some w') : w'.stats.streams.Conserved := by
  obtain ⟨t, ends, rfl⟩ := Option.map_eq_some_iff.mp moved
  exact Outcome.Meets.ended (I := fun s => s.streams.Conserved)
    (perform_conserved op settled conserved accounted ⟨w, []⟩ rfl) ends

/-- In a run in which every streaming request that goes out is counted exactly if its end is
recorded, the requests are the successes and the failures. -/
theorem streams_conserved (config : LeanWorkerConfig) (pid : Nat) (stderr : Bool)
    (elapsed : Duration) (now : Instant) (ops : List Op) (w : LeanWorker)
    (accounted : Runs.Guarded operate (fun w op => op.Accounted w)
      (.fresh config pid stderr elapsed now) ops)
    (reached : Runs.run operate (.fresh config pid stderr elapsed now) ops = some w)
    (below : w.stats.streamRequests < u64Max) :
    w.stats.streamRequests = w.stats.streamSuccesses + w.stats.streamFailures := by
  have held : w.Settled True ∧ w.stats.streams.Conserved := by
    refine Runs.invariant_of_guarded (C := fun w op => op.Accounted w)
      (I := fun w => w.Settled True ∧ w.stats.streams.Conserved) (fun w op w' held allowed moved =>
        ⟨?_, operate_conserved op held.1 held.2 allowed moved⟩) ⟨?_, fun _ => rfl⟩ accounted reached
    · exact (operate_settled True w w' op held.1 moved).weaken fun _ => trivial
    · exact .ready (LeanWorker.ready_fresh config pid stderr elapsed now)
  exact held.2 below

def Op.oneRowStream : Op :=
  .runDataStream false "rows" (.ok "\x7b\x7d") .value false (.smooth
    [.smooth (.event (.frame (.dataRow ⟨"rows", 0, "null"⟩)) 0),
      .smooth (.event (.frame (.response (.streamComplete ⟨1, [("rows", 1)], 0, none⟩))) 0)])

theorem oneRowStream_conserved :
    ∃ w : LeanWorker, Runs.run operate (.spawned {}) [.oneRowStream] = some w ∧
      w.stats.streamRequests = 1 ∧
      w.stats.streamRequests = w.stats.streamSuccesses + w.stats.streamFailures :=
  ⟨_, rfl, rfl, streams_conserved { executable := ⟨[]⟩ } 1 true 0 0 [.oneRowStream] _
    ⟨fun call asked v issued => by cases asked; cases issued; rfl, fun _ _ => trivial⟩ rfl
    (by decide)⟩

/-- A listing of no declarations, and a stream whose reader thread is found gone. -/
def Op.emptyListing : Op :=
  .listDeclarationsStrings false (fun text => .ok text) "null"
    (.smooth [.smooth (.event (.frame (.response (.rowsComplete 0))) 0)])

def Op.cutStream : Op :=
  .runDataStream false "rows" (.ok "\x7b\x7d") .value false (.smooth [.smooth .disconnected])

/-- The listing is recorded as a success of no request, and the stream that was cut counts as a
request that neither succeeded nor failed. -/
theorem listing_and_cut_stream_unbalanced :
    (∃ w : LeanWorker, Runs.run operate (.spawned {}) [.emptyListing] = some w ∧
      w.stats.streams = ⟨0, 1, 0⟩) ∧
    ∃ w : LeanWorker, Runs.run operate (.spawned {}) [.cutStream] = some w ∧
      w.stats.streams = ⟨1, 0, 0⟩ :=
  ⟨⟨_, rfl, rfl⟩, _, rfl, rfl⟩

end LeanRs
