import LeanRs.Worker.Conversation

/-! Supervisor and child over whole runs: every operation leaves its pipe empty, every answer is
that of its own request, and neither side ever finds the other breaking the protocol. -/
namespace LeanRs

open Procedures Procedure Supervisor

section

variable {start : Pipe} {blame : Prop}

theorem takePendingRestart_calm (a : RestartAnswers) :
    Preserves (Calm start) (takePendingRestart a) := by
  refine .bind .worker fun w => ?_
  split
  · exact .bind (modify_calm (fun w => { w with pendingRestart := none }) fun _ => rfl)
      fun _ => restartWithReason_calm _ a
  · exact .pure _

theorem takePendingRestart_blameless (a : RestartAnswers) : Blameless (takePendingRestart a) := by
  refine .bind worker_raises fun w => ?_
  split
  · exact .bind (modify_raises _) fun _ => restartWithReason_blameless _ a
  · exact .pure _

theorem killForTest_calm (answer : KillAnswer) : Preserves (Calm start) (killForTest answer) := by
  intro s calm
  have asked : Calm start { s with effects := s.effects ++ [.kill answer] } :=
    calm.onwards [.kill answer] calm.settled id rfl (by simp [Effect.idle])
  by_cases child : s.worker.child.isSome = true
  · cases answer with
    | failed source => simpa [killForTest, killChild, child] using asked
    | asked => simpa [killForTest, killChild, child] using asked
  · simpa [killForTest, child] using calm

theorem rssKib_calm (sample : Option Nat) : Preserves (Calm start) (rssKib sample) :=
  .bind .worker fun _ => .bind (count_calm _) fun _ => .pure _

theorem hostSessionOpened_calm (opened : LeanWorkerSessionConfig) (expectReuse : Bool)
    (beforeRestarts : Nat) (importStats : LeanWorkerImportStats) (elapsed : Duration)
    {R : LeanWorkerError → World → Prop} :
    Triple (Calm start) (hostSessionOpened opened expectReuse beforeRestarts importStats elapsed)
      (fun _ => Calm start) R :=
  Triple.bind (modify_calm _ (by intro w; rfl)) fun _ =>
    Triple.bind (modify_calm _ (by intro w; rfl)) fun _ =>
    Triple.bind (modify_calm _ (by intro w; rfl)) fun _ =>
    Triple.bind (modify_calm _ (by intro w; rfl)) fun _ => modify_calm _ (by intro w; rfl)

theorem hostSessionReused_calm (opened : LeanWorkerSessionConfig)
    (importStats : LeanWorkerImportStats) {R : LeanWorkerError → World → Prop} :
    Triple (Calm start) (hostSessionReused opened importStats) (fun _ => Calm start) R :=
  Triple.bind (modify_calm _ (by intro w; rfl)) fun _ => modify_calm _ (by intro w; rfl)

variable (sound : start.Sound)

include sound

theorem health_converses (a : RequestAnswers) : Converses start a.turns blame (health a) := by
  refine exchange_converses sound _ _ _ a (fun lacks => absurd lacks (not_lacks fun _ => rfl))
    fun response s => ?_
  cases response with
  | healthOk => rfl
  | error code message => exact ⟨rfl, nofun⟩
  | _ => exact ⟨rfl, fun _ answers => nomatch answers⟩

theorem loadFixtureCapability_converses (built : Except String PathBuf) (a : RequestAnswers) :
    Converses start a.turns blame (loadFixtureCapability built a) := by
  refine .after (fixtureCapabilityManifest_checks built) fun _ => exchange_converses sound _ _ _ a
    (fun lacks => absurd lacks (not_lacks fun _ => rfl)) fun response s => ?_
  cases response with
  | capabilityLoaded => rfl
  | error code message => exact ⟨rfl, nofun⟩
  | _ => exact ⟨rfl, fun _ answers => nomatch answers⟩

theorem callFixtureMul_converses (built : Except String PathBuf) (lhs rhs : Nat)
    (a : RequestAnswers) : Converses start a.turns blame (callFixtureMul built lhs rhs a) := by
  refine .after (fixtureCapabilityManifest_checks built) fun _ => exchange_converses sound _ _ _ a
    (fun lacks => absurd lacks (not_lacks fun _ => rfl)) fun response s => ?_
  cases response with
  | u64 value => rfl
  | error code message => exact ⟨rfl, nofun⟩
  | _ => exact ⟨rfl, fun _ answers => nomatch answers⟩

theorem triggerLeanPanicFixture_converses (built : Except String PathBuf) (a : RequestAnswers) :
    Converses start a.turns blame (triggerLeanPanicFixture built a) := by
  refine .after (fixtureCapabilityManifest_checks built) fun manifestPath =>
    Triple.bind ((issueRequest_stalls sound true a).consequence (fun _ h => h) (fun _ _ h => h)
      fun e t stalled => ⟨stalled.calm, fun _ _ blames =>
        absurd blames (by simp [stalled.innocent])⟩) fun _ =>
    Triple.captured (readResponseWithEvents_hears _ {} a.started) (fun response => ?_)
      fun err => ?_
  · refine Triple.raise fun s replied => ⟨replied.1, fun q after _ => ?_⟩
    have reply := replied.2 q after
    have genuine := reply.genuine
    have answers := reply.answers
    cases response with
    | error code message => cases genuine
    | _ => cases answers
  · have unreplied : Triple (fun t => Calm start t ∧ ∀ q, start.After t q →
        Unreplied start (.triggerLeanPanic manifestPath) {} err t)
        (raise err : Supervisor LeanWorkerExit) (fun _ => Calm start)
        (fun e t => Calm start t ∧ ∀ q, start.After t q → e.blamesChild = true → blame) :=
      Triple.raise fun _ held => ⟨held.1, fun q after blames =>
        absurd ((held.2 q after).blamed blames) (not_lacks fun _ => rfl)⟩
    cases err with
    | childPanicOrAbort exit => exact Triple.pure fun _ held => held.1
    | _ => exact unreplied

theorem emitTestRows_converses (streams : List String) (data : Bool) (a : RequestAnswers) :
    Converses start a.turns (data = false) (emitTestRows streams data a) := by
  refine .after (checkCancelled_checks _ _) fun _ => exchange_converses sound _ _ _ a ?_
    fun response s => ?_
  · rintro ⟨none, _⟩
    cases data
    · rfl
    · cases none
  · cases response with
    | rowsComplete count => rfl
    | error code message => exact ⟨rfl, nofun⟩
    | _ => exact ⟨rfl, fun _ answers => nomatch answers⟩

theorem emitTestRowsThen_converses (operation : String) (request : Request)
    (silent : ∀ response, response.isError = false → request.answeredBy response = false)
    (data : Bool) (a : RequestAnswers) :
    Converses start a.turns (data = false) (emitTestRowsThen operation request data a) := by
  refine .after (checkCancelled_checks _ _) fun _ => exchange_converses sound _ _ _ a ?_
    fun response s => ⟨rfl, fun genuine answers => ?_⟩
  · rintro ⟨none, _⟩
    cases data
    · rfl
    · cases none
  · rw [silent response genuine] at answers
    cases answers

theorem workerRunDataStream_converses (progress : Bool) (exportName : String)
    (requestJson : Except String JsonText) (rows : DataSinkTarget) (diagnostics : Bool)
    (a : RequestAnswers) :
    Converses start a.turns blame
      (workerRunDataStream progress exportName requestJson rows diagnostics a) := by
  have sinks : ∀ request, ¬Sinks.Lacks
      { progress := progress, data := some rows, diagnostics := diagnostics } request :=
    fun _ lacks => nomatch lacks.1
  refine .after (checkCancelled_checks _ _) fun _ => .after (encoded_checks _ _ fun _ => rfl)
    fun text => Triple.bind ((issueRequest_stalls sound false a).consequence (fun _ h => h)
      (fun _ _ h => h) fun e t stalled => ⟨stalled.calm, fun _ _ blames =>
        absurd blames (by simp [stalled.innocent])⟩) fun _ =>
    Triple.bind (M := fun _ s => Posted start (.runDataStream exportName text progress) s ∧
      Unheard start a.turns s)
      (Triple.update fun s held => ⟨held.1.congr rfl rfl, ⟨held.2.turns, held.2.silent⟩⟩) fun _ =>
    Triple.bind ((readResponseWithEvents_hears _ _ a.started).consequence (fun _ h => h)
      (fun _ _ h => h) fun _ _ held => ⟨held.1, fun q after blames =>
        absurd ((held.2 q after).blamed blames) (sinks _)⟩) (Judges.triple ?_ _)
  intro response s
  cases response with
  | streamComplete summary => rfl
  | error code message => exact ⟨rfl, nofun⟩
  | streamExportFailed statusByte => exact ⟨rfl, fun _ _ => rfl⟩
  | streamCallbackFailed statusByte description => exact ⟨rfl, fun _ _ => rfl⟩
  | streamRowMalformed message => exact ⟨rfl, fun _ _ => rfl⟩
  | _ => exact ⟨rfl, fun _ answers => nomatch answers⟩

theorem workerListDeclarationsStrings_converses (progress : Bool)
    (decode : JsonText → Except String String) (filter : JsonText) (a : RequestAnswers) :
    Converses start a.turns blame (workerListDeclarationsStrings progress decode filter a) := by
  have sinks : ∀ request, ¬Sinks.Lacks { progress := progress, data := some .raw } request :=
    fun _ lacks => nomatch lacks.1
  refine .after (checkCancelled_checks _ _) fun _ =>
    Triple.bind ((issueRequest_stalls sound false a).consequence (fun _ h => h)
      (fun _ _ h => h) fun e t stalled => ⟨stalled.calm, fun _ _ blames =>
        absurd blames (by simp [stalled.innocent])⟩) fun _ =>
    Triple.bind (Triple.read fun _ held => held) fun before =>
    Triple.bind ((readResponseWithEvents_hears _ _ a.started).consequence (fun _ h => h)
      (fun _ _ h => h) fun _ _ held => ⟨held.1, fun q after blames =>
        absurd ((held.2 q after).blamed blames) (sinks _)⟩) fun response =>
    Triple.bind (M := fun _ t => Calm start t ∧ ∀ q, start.After t q →
      Replied start (.listDeclarationsStrings filter progress)
        { progress := progress, data := some .raw } response t) (Triple.read fun _ held => held)
    fun after s replied => ?_
  generalize collectNames decode (after.effects.drop before.effects.length) = collected
  obtain ⟨names, decodeError⟩ := collected
  cases decodeError with
  | some text => exact ⟨replied.1, fun _ _ blames => nomatch blames⟩
  | none =>
    cases response with
    | rowsComplete count =>
      dsimp only
      split
      · exact replied.1
      · exact ⟨replied.1, fun _ _ blames => nomatch blames⟩
    | error code message => exact ⟨replied.1, fun q after _ => nomatch (replied.2 q after).genuine⟩
    | _ => exact ⟨replied.1, fun q after _ => nomatch (replied.2 q after).answers⟩

omit sound in
theorem degradable_converses {turns : List TurnAnswers} {A D : Type} (truncate : String → String)
    (operation : String) {trip : Supervisor A} (verdict : LeanWorkerError → LeanWorker → D)
    (recover : RestartAnswers) (body : Converses start turns blame trip) :
    Converses start turns blame (degradable truncate operation trip verdict recover) := by
  apply Triple.captured body
  · exact fun value => Triple.pure fun _ calm => calm
  · intro err
    refine Triple.bind (worker_keeps.consequence (fun _ h => h) (fun _ _ h => h.2)
      fun _ _ h => h) fun w => Triple.bind (M := fun _ => Calm start) ?_
        fun _ => Triple.pure fun _ calm => calm
    cases err with
    | childPanicOrAbort exit =>
      intro s held
      have calm := @restartWithReason_calm start (childAbortReason truncate operation exit) recover
        s held.1
      have innocent := restartWithReason_blameless (childAbortReason truncate operation exit)
        recover s trivial
      simp only [recoverChildAbort]
      cases outcome : restartWithReason (childAbortReason truncate operation exit) recover s with
      | waiting t => trivial
      | returned _ t => rw [outcome] at calm; exact calm
      | raised e t =>
        rw [outcome] at calm innocent
        have innocent : e.blamesChild = false := innocent
        exact ⟨calm, fun _ _ blames => absurd blames (by simp [innocent])⟩
    | _ => exact Triple.raise fun _ held => held

theorem openWorkerSession_converses (config : LeanWorkerSessionConfig) (progress : Bool)
    (a : OpenAnswers) :
    Converses start a.request.turns blame (openWorkerSession config progress a) := by
  have stalled {A : Type} {m : Supervisor A} {P : World → Prop} {Q : A → World → Prop}
      (body : Triple P m Q (Stalled start)) : Triple P m Q
      (fun e t => Calm start t ∧ ∀ q, start.After t q → e.blamesChild = true → blame) :=
    body.consequence (fun _ h => h) (fun _ _ h => h) fun e t stalled =>
      ⟨stalled.calm, fun _ _ blames => absurd blames (by simp [stalled.innocent])⟩
  have keeps {P : World → Prop} {R : LeanWorkerError → World → Prop} :
      Triple P worker (fun _ => P) R :=
    worker_keeps.consequence (fun _ h => h) (fun _ _ h => h.2) fun _ _ h => h
  have replaces : ∀ reason, (Effect.replace reason).Unheard := fun _ => ⟨rfl, rfl⟩
  refine .after (checkCancelled_checks _ _) fun _ => Triple.bind keeps fun before =>
    Triple.bind (stalled (stalls (takePendingRestart_calm _)
      (takePendingRestart_appends Effect.unheard_of_ofStop ⟨rfl, rfl⟩ replaces _)
      (takePendingRestart_blameless _))) fun _ => Triple.bind keeps fun w =>
    Triple.bind (stalled (stalls (prepareRequest_calm _ _)
      (prepareRequest_appends Effect.unheard_of_ofStop ⟨rfl, rfl⟩ replaces _ _)
      (prepareRequest_blameless _ _))) fun _ => Triple.bind keeps fun w' =>
    Triple.bind (stalled (stalls (sendRequest_posts sound _ _)
      (sendRequest_appends Effect.unheard_of_ofStop (unheard_write config.openRequest) _ _)
      (sendRequest_blameless _ _ _))) fun _ =>
    Triple.bind (M := fun _ s => Posted start config.openRequest s ∧
      Unheard start a.request.turns s)
      (Triple.update fun s held =>
        ⟨held.1.congr rfl rfl, ⟨held.2.turns, held.2.silent⟩⟩) fun _ => ?_
  have forget (e : LeanWorkerError) : Triple (fun t => Calm start t ∧
      ∀ q, start.After t q → e.blamesChild = true → blame) (forgetSessionKeys >>= fun _ => raise e)
      (fun (_ : Unit) => Calm start)
      (fun e t => Calm start t ∧ ∀ q, start.After t q → e.blamesChild = true → blame) :=
    Triple.bind (M := fun _ t => Calm start t ∧
      ∀ q, start.After t q → e.blamesChild = true → blame) (Triple.update fun s held =>
        ⟨held.1.onwards [] (held.1.settled.congr rfl) (fun ready => ready.congr rfl)
          (List.append_nil _).symm nofun, held.2⟩) fun _ => Triple.raise fun _ held => held
  refine Triple.captured (readResponseWithEvents_hears _ { progress := progress }
    a.request.started) (fun response => ?_) fun err => ?_
  · cases response with
    | hostSessionOpened importStats =>
      exact (hostSessionOpened_calm config _ _ importStats _).consequence
        (fun _ held => And.left held) (fun _ _ h => h) fun _ _ h => h
    | hostSessionReused importStats =>
      exact (hostSessionReused_calm config importStats).consequence
        (fun _ held => And.left held) (fun _ _ h => h) fun _ _ h => h
    | error code message =>
      refine (forget _).consequence (fun t held => ⟨held.1, fun q after _ => ?_⟩) (fun _ _ h => h)
        fun _ _ h => h
      exact nomatch (held.2 q after).genuine
    | _ =>
      refine (forget _).consequence (fun t held => ⟨held.1, fun q after _ => ?_⟩) (fun _ _ h => h)
        fun _ _ h => h
      exact nomatch (held.2 q after).answers
  · refine (forget err).consequence (fun t held => ⟨held.1, fun q after blames => ?_⟩)
      (fun _ _ h => h) fun _ _ h => h
    exact absurd ((held.2 q after).blamed blames) (not_lacks fun _ => rfl)

end

namespace Op

def turns : Op → List TurnAnswers
  | .status _ | .rssKib _ | .setRequestTimeout _ | .recordCapabilityOpenTiming _ _
  | .recordCommandTiming _ _ | .cycle _ | .cycleWithRestartReason _ _ | .killForTest _
  | .shutdown _ => []
  | .health a | .loadFixtureCapability _ a | .callFixtureMul _ _ _ a
  | .triggerLeanPanicFixture _ a | .emitTestRows _ _ a | .emitTestRowsThenExit _ a
  | .emitTestRowsThenPanic _ a | .elaborate _ _ _ a | .kernelCheck _ _ _ a
  | .declarationKinds _ _ a | .declarationNames _ _ a | .inferType _ _ _ a | .whnf _ _ _ a
  | .isDefEq _ _ _ _ _ a | .describe _ _ a | .searchDeclarations _ _ a
  | .declarationType _ _ _ a | .inspectDeclaration _ _ a | .attemptProof _ _ _ a
  | .describeBulk _ _ a | .processModuleQuery _ _ _ _ a | .clearModuleSnapshotCache _ a
  | .jsonCommand _ _ _ a | .capabilityMetadata _ _ _ a | .capabilityDoctor _ _ _ a
  | .verifyDeclaration _ _ _ _ a _ | .verifyDeclarationBatch _ _ _ _ _ a _
  | .processModuleQueryBatch _ _ _ _ _ _ a _ | .runDataStream _ _ _ _ _ a
  | .listDeclarationsStrings _ _ _ a => a.turns
  | .openWorkerSession _ _ a => a.request.turns

def sinkless : Op → Bool
  | .emitTestRows _ data _ | .emitTestRowsThenExit data _ | .emitTestRowsThenPanic data _ => !data
  | _ => false

theorem perform_converses {start : Pipe} (sound : start.Sound) (op : Op) :
    Converses start op.turns (op.sinkless = true) op.perform := by
  have sinkless {turns : List TurnAnswers} {A : Type} {m : Supervisor A} {data : Bool}
      (body : Converses start turns (data = false) m) :
      Converses start turns ((!data) = true) m :=
    body.consequence (fun _ h => h) (fun _ _ h => h) fun _ _ held =>
      ⟨held.1, fun q after blames => by rw [held.2 q after blames]; rfl⟩
  cases op with
  | status answer => exact (Converses.ofPreserves (status_calm answer) (status_blameless _)).discard
  | rssKib sample =>
    exact (Converses.ofPreserves (rssKib_calm sample) (.bind worker_raises fun _ =>
      .bind (modify_raises _) fun _ => .pure _)).discard
  | setRequestTimeout timeout =>
    exact .ofPreserves (modify_calm (fun w => { w with
      config := { w.config with requestTimeout := timeout } }) fun _ => rfl) (.update _)
  | recordCapabilityOpenTiming load opened => exact .ofPreserves (count_calm _) (.update _)
  | recordCommandTiming first elapsed => exact .ofPreserves (count_calm _) (.update _)
  | cycle a => exact .ofPreserves (restartWithReason_calm _ a) (restartWithReason_blameless _ a)
  | cycleWithRestartReason reason a =>
    exact .ofPreserves (restartWithReason_calm _ a) (restartWithReason_blameless _ a)
  | killForTest answer =>
    exact .ofPreserves (killForTest_calm answer) (.bind worker_raises fun w =>
      .choose (fun _ => killChild_blameless answer) fun _ => dead_blameless w)
  | shutdown a =>
    exact (Converses.ofPreserves (shutdown_calm a) (shutdownChild_blameless a _)).discard
  | health a => exact health_converses sound a
  | loadFixtureCapability built a => exact loadFixtureCapability_converses sound built a
  | callFixtureMul built lhs rhs a => exact (callFixtureMul_converses sound built lhs rhs a).discard
  | triggerLeanPanicFixture built a =>
    exact (triggerLeanPanicFixture_converses sound built a).discard
  | emitTestRows streams data a =>
    exact sinkless (emitTestRows_converses sound streams data a).discard
  | emitTestRowsThenExit data a =>
    refine sinkless (emitTestRowsThen_converses sound _ _ (fun response genuine => ?_) data a)
    cases response <;> first | rfl | cases genuine
  | emitTestRowsThenPanic data a =>
    refine sinkless (emitTestRowsThen_converses sound _ _ (fun response genuine => ?_) data a)
    cases response <;> first | rfl | cases genuine
  | openWorkerSession config progress a => exact openWorkerSession_converses sound config progress a
  | capabilityMetadata progress exportName requestJson a =>
    refine Converses.discard (.after (encoded_checks _ _ fun _ => rfl) fun text =>
      roundTrip_converses sound _ false progress (fun response e genuine answers failed => ?_)
        (fun _ => rfl) a)
    cases response <;>
      first | (cases genuine; done) | (cases answers; done) | (cases failed <;> rfl)
  | capabilityDoctor progress exportName requestJson a =>
    refine Converses.discard (.after (encoded_checks _ _ fun _ => rfl) fun text =>
      roundTrip_converses sound _ false progress (fun response e genuine answers failed => ?_)
        (fun _ => rfl) a)
    cases response <;>
      first | (cases genuine; done) | (cases answers; done) | (cases failed <;> rfl)
  | verifyDeclaration progress truncate request options a recover =>
    refine (degradable_converses truncate _ _ recover (expecting_converses sound _ progress
      (fun response genuine answers => ?_) (fun _ => rfl) a)).discard
    cases response <;> first | rfl | (cases genuine; done) | cases answers
  | verifyDeclarationBatch progress truncate targets request options a recover =>
    refine (degradable_converses truncate _ _ recover (expecting_converses sound _ progress
      (fun response genuine answers => ?_) (fun _ => rfl) a)).discard
    cases response <;> first | rfl | (cases genuine; done) | cases answers
  | processModuleQueryBatch progress truncate source selectors budgets options a recover =>
    refine (degradable_converses truncate _ _ recover (expecting_converses sound _ progress
      (fun response genuine answers => ?_) (fun _ => rfl) a)).discard
    cases response <;> first | rfl | (cases genuine; done) | cases answers
  | runDataStream progress exportName requestJson rows diagnostics a =>
    exact (workerRunDataStream_converses sound progress exportName requestJson rows diagnostics
      a).discard
  | listDeclarationsStrings progress decode filter a =>
    exact (workerListDeclarationsStrings_converses sound progress decode filter a).discard
  | _ =>
    refine Converses.discard (expecting_converses sound _ _ (fun response genuine answers => ?_)
      (fun _ => rfl) _)
    cases response <;> first | rfl | (cases genuine; done) | cases answers

end Op

structure Joint where
  worker : LeanWorker
  pipe : Pipe

/-- The pipes at the start of an operation whose read loop takes these turns. -/
def Pipe.before (p : Pipe) (turns : List TurnAnswers) : Pipe := { p with turns := turns }

/-- An operation that has ended, and whose turns received what the children wrote. -/
def converse (j : Joint) (op : Op) : Option Joint := do
  let s ← (op.perform ⟨j.worker, []⟩).ended
  let p ← (j.pipe.before op.turns).replay s.effects
  pure ⟨s.worker, p⟩

/-- What a child has written by the time it ends is what its own model writes. -/
def Genuine (written : List Answered) : Prop :=
  ∃ workerVersion capacity start frames,
    written = (serveStdio workerVersion capacity start frames).answered

theorem Genuine.sound {written : List Answered} (genuine : Genuine written) :
    ∀ g ∈ written, g.Sound := by
  obtain ⟨workerVersion, capacity, start, frames, rfl⟩ := genuine
  exact serveStdio_sound workerVersion capacity start frames

structure Joint.Good (j : Joint) : Prop where
  sound : j.pipe.Sound
  settled : j.worker.Settled True
  drained : j.worker.Ready → j.pipe.unread = []

theorem Joint.Good.poised {j : Joint} (good : j.Good) (turns : List TurnAnswers) :
    Poised (j.pipe.before turns) turns ⟨j.worker, []⟩ := by
  have same {p : Pipe} (after : (j.pipe.before turns).After ⟨j.worker, []⟩ p) :
      j.pipe.before turns = p := Option.some.inj after
  refine ⟨⟨good.settled, fun p after ready => ?_⟩, fun p after => ?_, rfl⟩
  · rw [← same after]
    exact good.drained ready
  · rw [← same after, Pipe.before]

theorem Joint.Good.converse {j j' : Joint} {op : Op} (good : j.Good)
    (moved : converse j op = some j') : j'.Good := by
  obtain ⟨s, ends, moved⟩ := Option.bind_eq_some_iff.mp moved
  obtain ⟨p, after, same⟩ := Option.bind_eq_some_iff.mp moved
  obtain rfl := Option.some.inj same
  have sound : (j.pipe.before op.turns).Sound := good.sound.congr rfl rfl
  have calm := Outcome.Meets.ended (I := Calm (j.pipe.before op.turns))
    ((op.perform_converses sound ⟨j.worker, []⟩ (good.poised op.turns)).weaken (fun _ _ h => h)
      fun _ _ held => held.1) ends
  exact ⟨Pipe.replay_sound sound after, calm.settled, calm.drained p after⟩

section

variable (config : LeanWorkerConfig) (pid : Nat) (stderr : Bool) (elapsed : Duration)
  (now : Instant) {child : List Answered} {spawned : List (List Answered)} (real : Genuine child)
  (reals : ∀ written ∈ spawned, Genuine written)

include real reals

theorem good_of_reached {ops : List Op} {j : Joint}
    (reached : Runs.run converse
      ⟨.fresh config pid stderr elapsed now, child, spawned, [], []⟩ ops = some j) : j.Good :=
  Runs.invariant (fun _ _ _ good moved => good.converse moved)
    ⟨⟨real.sound, fun written member => (reals written member).sound⟩,
      .ready (LeanWorker.ready_fresh config pid stderr elapsed now), fun _ => rfl⟩ reached

/-- After any run, whatever the operations met: a response that comes back from a request is the
response that the child wrote for that very request, which it got when nothing else was left to
read; the sinks were shown what the child wrote before it, in its order; and nothing is left to
read. A request that fails showed a first part of what the child wrote for it. -/
theorem exchange_answered (ops : List Op) (j : Joint)
    (reached : Runs.run converse
      ⟨.fresh config pid stderr elapsed now, child, spawned, [], []⟩ ops = some j)
    (operation : String) (request : Request) (importLike : Bool) (sinks : Sinks)
    (a : RequestAnswers) :
    (exchange operation request importLike sinks a ⟨j.worker, []⟩).Meets
      (fun response t => ∀ q, (j.pipe.before a.turns).After t q → q.unread = [] ∧
        Replied (j.pipe.before a.turns) request sinks response t)
      (fun e t => ∀ q, (j.pipe.before a.turns).After t q → (t.worker.Ready → q.unread = []) ∧
        Unreplied (j.pipe.before a.turns) request sinks e t) := by
  have good := good_of_reached config pid stderr elapsed now real reals reached
  have sound : (j.pipe.before a.turns).Sound := good.sound.congr rfl rfl
  refine (exchange_hears sound operation importLike sinks a ⟨j.worker, []⟩
    (good.poised a.turns)).weaken (fun response t held q after => ?_) fun e t held q after =>
      ⟨held.1.drained q after, held.2 q after⟩
  have replied := held.2 q after
  exact ⟨held.1.drained q after replied.ready, replied⟩

/-- After any run, no operation finds its child breaking the protocol: neither a frame of a wrong
kind, nor the response to another request, nor output that is out of date. The test operations that
ask for rows without a sink for them are the exception. -/
theorem no_child_is_blamed (ops : List Op) (j : Joint)
    (reached : Runs.run converse
      ⟨.fresh config pid stderr elapsed now, child, spawned, [], []⟩ ops = some j)
    (op : Op) (e : LeanWorkerError) (t : World) (q : Pipe)
    (raised : op.perform ⟨j.worker, []⟩ = .raised e t)
    (after : (j.pipe.before op.turns).After t q) (sinks : op.sinkless = false) :
    e.blamesChild = false := by
  have good := good_of_reached config pid stderr elapsed now real reals reached
  have sound : (j.pipe.before op.turns).Sound := good.sound.congr rfl rfl
  have converses := op.perform_converses sound ⟨j.worker, []⟩ (good.poised op.turns)
  rw [raised] at converses
  cases blames : e.blamesChild with
  | false => rfl
  | true =>
    rw [converses.2 q after blames] at sinks
    cases sinks

end

/-- What a child on which nothing fails writes for these requests. -/
def answersTo (requests : List Request) : List Answered :=
  (serveStdio "1.0.0" 4 .smooth (requests.map fun request => .smooth request [])).answered

theorem genuine_answersTo (requests : List Request) : Genuine (answersTo requests) :=
  ⟨_, _, _, _, rfl⟩

def Op.slowHealth : Op := .health (.smooth [.smooth .nothing])

/-- The state after it: the first child is gone, and the second one answers. -/
def Joint.replaced : Joint :=
  (Runs.run converse ⟨.spawned {}, answersTo [.health], [answersTo [.health]], [], []⟩
    [.slowHealth]).getD ⟨.spawned {}, [], [], [], []⟩

def RequestAnswers.answered : RequestAnswers :=
  .smooth [.smooth (.event (.frame (.response .healthOk)) 0)]

/-- The answer of the first child, which came too late, is not taken for that of the second. -/
theorem exchange_after_timeout :
    Joint.replaced.worker.stats.restarts = 1 ∧
      (exchange "health" .health false {} .answered ⟨Joint.replaced.worker, []⟩).returnsWith
        (fun response t => response == .healthOk &&
          ((Joint.replaced.pipe.before RequestAnswers.answered.turns).replay t.effects).isSome) ∧
      (exchange "health" .health false {} .answered ⟨Joint.replaced.worker, []⟩).Meets
        (fun response t => ∀ q,
          (Joint.replaced.pipe.before RequestAnswers.answered.turns).After t q → q.unread = [] ∧
          Replied (Joint.replaced.pipe.before RequestAnswers.answered.turns) .health {} response t)
        (fun e t => ∀ q, (Joint.replaced.pipe.before RequestAnswers.answered.turns).After t q →
          (t.worker.Ready → q.unread = []) ∧
          Unreplied (Joint.replaced.pipe.before RequestAnswers.answered.turns) .health {} e t) :=
  ⟨by decide +kernel, by decide +kernel,
    exchange_answered { executable := ⟨[]⟩ } 1 true 0 0 (genuine_answersTo [.health])
      (fun _ member => (List.mem_singleton.mp member).symm ▸ genuine_answersTo [.health])
      [.slowHealth] Joint.replaced rfl "health" .health false {} .answered⟩

def Op.describeEarly : Op :=
  .describe false "f" (.smooth [.smooth (.event (.frame (.response missingSessionResponse)) 0)])

/-- The child refuses, and its refusal is not taken for a breach of the protocol. -/
theorem refusal_blames_nobody :
    ∃ e t, Op.describeEarly.perform ⟨.spawned {}, []⟩ = .raised e t ∧ e.blamesChild = false :=
  ⟨_, _, rfl, no_child_is_blamed { executable := ⟨[]⟩ } 1 true 0 0
    (genuine_answersTo [.describe "f"]) (List.forall_mem_nil _) []
    ⟨.spawned {}, answersTo [.describe "f"], [], [], []⟩ rfl .describeEarly _ _ _ rfl rfl rfl⟩

end LeanRs
