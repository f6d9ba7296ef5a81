import LeanRs.Worker.Replacement

/-! A supervisor whose restart window has refused a replacement: what it still does, and which
operations bring it back. -/
namespace LeanRs

open Procedures Procedure Supervisor

def Kept (s : World) : Prop :=
  s.worker.Owned ∨ (s.worker.child = none ∧ s.worker.lastExit.isSome = true)

def Exhausted (s : World) : Prop := s.worker.state.isExhausted = true ∧ s.worker.child = none

theorem LeanWorker.Gone.exit_isSome {w : LeanWorker} (gone : w.Gone) :
    w.lastExit.isSome = true := by
  obtain ⟨exit, recorded, _⟩ := gone.lastExit
  rw [recorded]
  rfl

theorem LeanWorker.Gone.exhausted {w : LeanWorker} (gone : w.Gone) {window : List Instant}
    {generation : Nat} : ({ w with
      restartWindow := window, state := .restartExhausted generation } : LeanWorker).Gone :=
  ⟨gone.child, gone.lastExit, gone.stdin, gone.stdout, rfl, rfl⟩

theorem Kept.congr {s t : World} (kept : Kept s) (child : t.worker.child = s.worker.child)
    (lastExit : t.worker.lastExit = s.worker.lastExit) (stdin : t.worker.stdin = s.worker.stdin) :
    Kept t := by
  rcases kept with owned | ⟨gone, recorded⟩
  · exact .inl ⟨by rw [child, owned.child], lastExit.trans owned.lastExit, stdin.trans owned.stdin⟩
  · exact .inr ⟨child.trans gone, by rw [lastExit, recorded]⟩

theorem status_dead (answer : TryWait) (s : World) (recorded : s.worker.lastExit.isSome = true) :
    ∃ exit, s.worker.lastExit = some exit ∧ status answer s = .returned (.exited exit)
      { s with worker := { s.worker with state := .exited s.worker.generation } } := by
  obtain ⟨exit, recorded⟩ := Option.isSome_iff_exists.mp recorded
  exact ⟨exit, recorded, by simp [status, recorded]⟩

theorem status_kept (answer : TryWait) : Preserves Kept (status answer) := by
  intro s kept
  rcases kept with owned | ⟨gone, recorded⟩
  · rw [status_owned answer s owned]
    cases answer with
    | failed source => exact .inl owned
    | running => exact .inl owned
    | exited exitStatus stderr => exact .inr ⟨rfl, rfl⟩
  · obtain ⟨exit, _, polled⟩ := status_dead answer s recorded
    rw [polled]
    exact .inr ⟨gone, recorded⟩

theorem shutdownChild_kept (a : ShutdownAnswers) (intent : ShutdownIntent) :
    Triple Kept (shutdownChild a intent)
      (fun _ s => s.worker.child = none ∧ s.worker.lastExit.isSome = true) (fun _ => Kept) := by
  intro s kept
  rcases kept with owned | ⟨gone, recorded⟩
  · refine (shutdownChild_stops a intent s (.inl owned)).weaken (fun _ t stopped => ?_)
      fun _ t failed => ?_
    · exact ⟨stopped.1.child, stopped.1.exit_isSome⟩
    · rcases failed with stopping | ⟨same, owned, _⟩
      · exact .inl stopping.toOwned
      · exact .inl (same ▸ owned)
  · obtain ⟨exit, _, polled⟩ := status_dead a.status s recorded
    simp only [shutdownChild, bind_apply, worker_apply, Outcome.andThen_returned, polled]
    exact ⟨gone, recorded⟩

theorem spawnReplacement_kept (config : LeanWorkerConfig) (reason : LeanWorkerRestartReason)
    (a : RestartAnswers) (s : World)
    (dead : s.worker.child = none ∧ s.worker.lastExit.isSome = true) :
    (spawnReplacement config reason a s).Meets (fun _ t => Kept t)
      (fun e t => Kept t ∧ e.isRefusal = false) := by
  have comes := spawn_comes config a.spawn ⟨{ s.worker.counted
    (fun stats => stats.budgetAdmitted.recordRestart reason) with budget := {} }, s.effects⟩
  have way := spawnReplacement_way config reason a s
  generalize spawnReplacement config reason a s = outcome at way ⊢
  cases way with
  | waiting spawned => trivial
  | failed spawned =>
    rw [spawned] at comes
    obtain ⟨rfl, _, failed⟩ := comes
    exact ⟨.inr dead, SpawnAnswer.isRefusal_failure failed⟩
  | started spawned =>
    rw [spawned] at comes
    obtain ⟨rfl, _, pid, stderr, elapsed, now, rfl⟩ := comes
    exact .inl ⟨rfl, rfl, rfl⟩

theorem restartWithReason_kept (reason : LeanWorkerRestartReason) (a : RestartAnswers) :
    Triple Kept (restartWithReason reason a) (fun _ => Kept) (Refusing Kept Exhausted) := by
  intro s kept
  have stops := shutdownChild_kept a.stop (stopIntent reason)
    ⟨s.worker.counted LeanWorkerStats.attempted, s.effects ++ [.replace reason]⟩
    (kept.congr rfl rfl rfl)
  have spares := shutdownChild_spares a.stop (stopIntent reason)
    ⟨s.worker.counted LeanWorkerStats.attempted, s.effects ++ [.replace reason]⟩ trivial
  have way := restartWithReason_way reason a s
  generalize restartWithReason reason a s = outcome at way ⊢
  cases way with
  | stopping stop => trivial
  | unstopped stop =>
    rw [stop] at stops spares
    exact ⟨stops.congr rfl rfl rfl, fun refused => by cases refused.symm.trans spares⟩
  | full stop room =>
    rw [stop] at stops
    exact ⟨.inr ⟨stops.1, stops.2⟩, fun _ => ⟨rfl, stops.1⟩⟩
  | admitted stop room =>
    rw [stop] at stops
    refine (spawnReplacement_kept s.worker.config reason a _ ?_).weaken (fun _ _ held => held)
      fun _ _ held => ⟨held.1, fun refused => by cases held.2.symm.trans refused⟩
    exact stops

theorem contract_kept : Contract (fun _ => True) Kept Exhausted where
  book f books := by
    refine Triple.update fun s kept => ?_
    have same := books.lifeline s.worker
    exact kept.congr (congrArg Lifeline.child same) (congrArg Lifeline.lastExit same)
      (congrArg Lifeline.stdin same)
  emit e _ := Triple.update fun s kept => kept.congr rfl rfl rfl
  status := status_kept
  waitForExit answer := by
    refine Triple.bind (worker_keeps (P := Kept)) fun w => ?_
    split
    · exact Triple.raise fun s held => held.2
    · rename_i pid present
      refine Triple.bind (M := fun _ => Kept) (Triple.update fun s held =>
        held.2.congr rfl rfl rfl) fun _ => Triple.bind (M := fun _ => Kept)
        (Triple.update fun s kept => kept.congr rfl rfl rfl) fun _ => ?_
      cases answer with
      | failed source => exact Triple.raise fun _ kept => kept
      | exited exitStatus stderr => exact fun s _ => .inr ⟨rfl, rfl⟩
      | never => exact Triple.wait
  killChild answer := by
    refine .bind .worker fun w => .choose (fun _ => .bind (Triple.update fun s kept =>
      kept.congr rfl rfl rfl) fun _ => ?_) fun _ => .pure _
    cases answer
    · exact .raise _
    · exact .pure _
  shutdown a := (shutdownChild_kept a .graceful).consequence (fun _ kept => kept)
    (fun _ _ dead => .inr dead) fun _ _ kept => kept
  restart reason a _ := restartWithReason_kept reason a
  finish s exhausted := by
    obtain ⟨state, child⟩ := exhausted
    unfold Exhausted LeanWorker.finishInFlight
    split
    · rename_i request busy
      rw [busy] at state
      cases state
    · rename_i request streaming
      rw [streaming] at state
      cases state
    · exact ⟨state, child⟩
  forget _ exhausted := exhausted

theorem refusal_leaves_gone (config : LeanWorkerConfig) (pid : Nat) (stderr : Bool)
    (elapsed : Duration) (now : Instant) (ops : List Op) (w : LeanWorker)
    (reached : Runs.run operate (.fresh config pid stderr elapsed now) ops = some w) (op : Op)
    (e : LeanWorkerError) (t : World) (raised : op.perform ⟨w, []⟩ = .raised e t)
    (refused : e.isRefusal = true) : t.worker.Gone ∧ t.worker.state.isExhausted = true := by
  have settled := reachable_settled config pid stderr elapsed now ops w reached
  have kept : Kept ⟨w, []⟩ := by
    rcases settled.formed with owned | gone
    · exact .inl owned
    · exact .inr ⟨gone.child, gone.exit_isSome⟩
  have meets := contract_kept.perform op (fun _ _ => trivial) ⟨w, []⟩ kept
  rw [raised] at meets
  obtain ⟨exhausted, child⟩ := meets.2 refused
  have moved : operate w op = some t.worker := by simp [operate, raised]
  refine ⟨?_, exhausted⟩
  rcases (operate_settled True w t.worker op settled moved).formed with owned | gone
  · have alive := owned.child
    rw [child] at alive
    cases alive
  · exact gone

def Effect.quiet : Effect → Bool
  | .spawn | .write _ _ => false
  | _ => true

def Op.isRequest : Op → Bool
  | .status _ | .rssKib _ | .setRequestTimeout _ | .recordCapabilityOpenTiming _ _
  | .recordCommandTiming _ _ | .cycle _ | .cycleWithRestartReason _ _ | .killForTest _
  | .shutdown _ => false
  | _ => true

/-- The next request is answered with the exit of a child that aborted. -/
def LeanWorker.reportsAbort (w : LeanWorker) : Bool :=
  !w.state.rejectsNewRequests && w.lastExit.any fun exit => !exit.success

/-- The operations that replace a child that is gone: the window has slid far enough, and the
operation asks for a restart. -/
def Op.revives (w : LeanWorker) : Op → Bool
  | .cycle a | .cycleWithRestartReason _ a => w.admitsRestart a.now
  | .openWorkerSession _ _ a =>
    !a.request.cancelled && w.pendingRestart.isSome && w.admitsRestart a.deferred.now
  | .verifyDeclaration _ _ _ _ a recover | .verifyDeclarationBatch _ _ _ _ _ a recover
  | .processModuleQueryBatch _ _ _ _ _ _ a recover =>
    !a.cancelled && w.reportsAbort && w.admitsRestart recover.now
  | _ => false

/-- The call has ended with the child still gone, and has neither started a child nor written a
frame; a request has failed. -/
def StaysGone (request : Bool) : Outcome World LeanWorkerError Unit → Prop
  | .returned _ t => request = false ∧ t.worker.Gone ∧ ∀ e ∈ t.effects, e.quiet = true
  | .raised _ t => t.worker.Gone ∧ ∀ e ∈ t.effects, e.quiet = true
  | .waiting _ => False

def LeanWorkerError.isAbort : LeanWorkerError → Bool
  | .childPanicOrAbort _ => true
  | _ => false

@[simp] theorem LeanWorkerError.isAbort_ofExit (exit : LeanWorkerExit) :
    (LeanWorkerError.ofExit exit).isAbort = !exit.success := by
  unfold ofExit
  cases exit.success <;> rfl

structure Turned (aborts : Bool) (s : World) (e : LeanWorkerError) (t : World) : Prop where
  worker : t.worker = s.worker ∨
    t.worker = { s.worker with state := .exited s.worker.generation }
  effects : t.effects = s.effects
  abort : e.isAbort = aborts

section

variable {A B : Type} {aborts : Bool} {s t : World} {e : LeanWorkerError}

theorem Turned.gone (turned : Turned aborts s e t) (gone : s.worker.Gone) : t.worker.Gone := by
  rcases turned.worker with same | same
  · rw [same]; exact gone
  · rw [same]; exact gone.exited

theorem Turned.admitsRestart (turned : Turned aborts s e t) (now : Instant) :
    t.worker.admitsRestart now = s.worker.admitsRestart now := by
  rcases turned.worker with same | same <;> rw [same]
  rfl

theorem Turned.staysGone (turned : Turned aborts s e t) (gone : s.worker.Gone)
    (quiet : ∀ e ∈ s.effects, e.quiet = true) (request : Bool) :
    StaysGone request (.raised e t) :=
  ⟨turned.gone gone, by rw [turned.effects]; exact quiet⟩

def TurnsAway (aborts : Bool) (m : Supervisor A) (s : World) : Prop :=
  ∃ e t, m s = .raised e t ∧ Turned aborts s e t

theorem TurnsAway.bind {m : Supervisor A} {f : A → Supervisor B} (away : TurnsAway aborts m s) :
    TurnsAway aborts (m >>= f) s := by
  obtain ⟨e, t, raised, turned⟩ := away
  exact ⟨e, t, by rw [bind_apply, raised, Outcome.andThen_raised], turned⟩

theorem TurnsAway.raise : TurnsAway e.isAbort (raise e : Supervisor A) s :=
  ⟨e, s, rfl, .inl rfl, rfl, rfl⟩

def Away (m : Supervisor A) (s : World) : Prop := ∃ aborts, TurnsAway aborts m s

theorem TurnsAway.away {m : Supervisor A} (away : TurnsAway aborts m s) : Away m s := ⟨_, away⟩

theorem Away.bind {m : Supervisor A} {f : A → Supervisor B} (away : Away m s) :
    Away (m >>= f) s := by
  obtain ⟨_, away⟩ := away
  exact away.bind.away

theorem Away.staysGone {m : Supervisor Unit} (away : Away m s) (gone : s.worker.Gone)
    (quiet : ∀ e ∈ s.effects, e.quiet = true) (request : Bool) :
    StaysGone request (m s) := by
  obtain ⟨_, e, t, raised, turned⟩ := away
  rw [raised]
  exact turned.staysGone gone quiet request

variable (gone : s.worker.Gone)

include gone

theorem ensureRunning_gone (answer : TryWait) :
    TurnsAway s.worker.reportsAbort (ensureRunning answer) s := by
  obtain ⟨exit, recorded, _, polled⟩ := status_gone answer s gone
  by_cases rejects : s.worker.state.rejectsNewRequests = true
  · refine ⟨_, s, by simp [ensureRunning, rejects]; rfl, .inl rfl, rfl, ?_⟩
    simp [LeanWorker.reportsAbort, rejects, LeanWorkerError.isAbort]
  · refine ⟨.ofExit exit, { s with worker := { s.worker with
      state := .exited s.worker.generation } }, by simp [ensureRunning, rejects, polled], .inr rfl,
      rfl, ?_⟩
    simp [LeanWorker.reportsAbort, rejects, recorded]

theorem issueRequest_gone (request : Request) (importLike : Bool) (a : RequestAnswers) :
    TurnsAway s.worker.reportsAbort (issueRequest request importLike a) s :=
  .bind (.bind (ensureRunning_gone gone _))

theorem exchange_gone (operation : String) (request : Request) (importLike : Bool) (sinks : Sinks)
    (a : RequestAnswers) :
    TurnsAway s.worker.reportsAbort (exchange operation request importLike sinks a) s :=
  .bind (issueRequest_gone gone _ _ _)

omit gone in
theorem checkCancelled_away (operation : String) (cancelled : Bool) {next : Supervisor A}
    (away : TurnsAway aborts next s) :
    TurnsAway (!cancelled && aborts) (checkCancelled operation cancelled >>= fun _ => next) s := by
  cases cancelled with
  | true => exact .bind .raise
  | false => exact away

theorem roundTrip_gone (operation : String) (request : Request) (importLike progress : Bool)
    (extract : Response → Except LeanWorkerError A) (a : RequestAnswers) :
    TurnsAway (!a.cancelled && s.worker.reportsAbort)
      (roundTrip operation request importLike progress extract a) s :=
  checkCancelled_away _ _ (.bind (exchange_gone gone _ _ _ _ _))

omit gone in
theorem encoded_away (requestJson : Except String JsonText) (failure : String → ProtocolText)
    {next : JsonText → Supervisor A} (away : ∀ text, Away (next text) s) :
    Away (encoded requestJson failure >>= next) s := by
  cases requestJson with
  | ok text => exact away text
  | error text => exact (TurnsAway.bind .raise).away

omit gone in
theorem manifest_away (built : Except String PathBuf) {next : String → Supervisor A}
    (away : ∀ path, Away (next path) s) :
    Away (fixtureCapabilityManifest built >>= next) s := by
  cases built with
  | ok path => exact away path.pathString
  | error diagnostic => exact (TurnsAway.bind .raise).away

theorem shutdownChild_gone (a : ShutdownAnswers) (intent : ShutdownIntent) :
    ∃ report, shutdownChild a intent s = .returned report
      { s with worker := { s.worker with state := .exited s.worker.generation } } := by
  obtain ⟨exit, recorded, _, polled⟩ := status_gone a.status s gone
  exact ⟨⟨.alreadyExited, exit, s.worker.config.shutdownTimeout, a.elapsed, none, 0⟩, by
    simp only [shutdownChild, bind_apply, worker_apply, Outcome.andThen_returned, polled,
      pure_apply]⟩

theorem restartWithReason_refused (reason : LeanWorkerRestartReason) (a : RestartAnswers)
    (quiet : ∀ e ∈ s.effects, e.quiet = true) (full : s.worker.admitsRestart a.now = false) :
    ∃ e t, restartWithReason reason a s = .raised e t ∧ StaysGone false (.raised e t) := by
  obtain ⟨report, stopped⟩ := shutdownChild_gone (s := ⟨s.worker.counted
    LeanWorkerStats.attempted, s.effects ++ [.replace reason]⟩) (gone.counted _) a.stop
      (stopIntent reason)
  refine ⟨_, _, restartWithReason_full reason a stopped full, ?_, fun e member => ?_⟩
  · exact (gone.counted LeanWorkerStats.attempted).exited.exhausted.counted
      fun stats => stats.budgetSkipped.failedBecause "restart_limit_exceeded"
  · have member : e ∈ s.effects ++ [.replace reason] := member
    rcases List.mem_append.mp member with held | added
    · exact quiet e held
    · rw [List.mem_singleton.mp added]
      rfl

theorem degradable_gone {D : Type} (truncate : String → String) (operation : String)
    (trip : Supervisor A) (verdict : LeanWorkerError → LeanWorker → D) (recover : RestartAnswers)
    (away : TurnsAway aborts trip s) (quiet : ∀ e ∈ s.effects, e.quiet = true)
    (idle : (aborts && s.worker.admitsRestart recover.now) = false) (request : Bool) :
    StaysGone request (discard (degradable truncate operation trip verdict recover) s) := by
  obtain ⟨e, t, raised, turned⟩ := away
  simp only [discard, degradable, bind_apply, capture_apply, raised, Outcome.captured_raised,
    Outcome.andThen_returned, worker_apply]
  cases e with
  | childPanicOrAbort exit =>
    have aborts := turned.abort
    have full : t.worker.admitsRestart recover.now = false := by
      rw [turned.admitsRestart]
      simpa [← aborts, LeanWorkerError.isAbort] using idle
    obtain ⟨e, u, refused, stays⟩ := restartWithReason_refused (turned.gone gone)
      (childAbortReason truncate operation exit) recover (by rw [turned.effects]; exact quiet) full
    simp only [recoverChildAbort, refused, Outcome.andThen_raised]
    exact stays
  | _ => exact turned.staysGone gone quiet request

theorem requestWorkerSession_gone (config : LeanWorkerSessionConfig) (progress : Bool)
    (beforeRestarts : Nat) (a : OpenAnswers) :
    TurnsAway s.worker.reportsAbort (requestWorkerSession config progress beforeRestarts a) s := by
  have prepared : TurnsAway s.worker.reportsAbort
      (prepareRequest (!s.worker.predictsReuse config) a.request.prepare) s :=
    .bind (ensureRunning_gone gone _)
  unfold requestWorkerSession TurnsAway
  rw [bind_apply, worker_apply, Outcome.andThen_returned]
  exact prepared.bind

theorem openWorkerSession_gone (config : LeanWorkerSessionConfig) (progress : Bool)
    (a : OpenAnswers) (quiet : ∀ e ∈ s.effects, e.quiet = true)
    (idle : (!a.request.cancelled && s.worker.pendingRestart.isSome &&
      s.worker.admitsRestart a.deferred.now) = false) (request : Bool) :
    StaysGone request (openWorkerSession config progress a s) := by
  cases cancelled : a.request.cancelled with
  | true =>
    simp only [openWorkerSession, checkCancelled, cancelled, if_true, bind_apply, raise_apply,
      Outcome.andThen_raised]
    exact ⟨gone, quiet⟩
  | false =>
    simp only [openWorkerSession, checkCancelled, cancelled, Bool.false_eq_true, if_false,
      bind_apply, pure_apply, Outcome.andThen_returned, worker_apply, takePendingRestart]
    cases pending : s.worker.pendingRestart with
    | none =>
      simp only [pure_apply, Outcome.andThen_returned]
      exact (requestWorkerSession_gone gone config progress _ a).away.staysGone gone quiet request
    | some reason =>
      have full : s.worker.admitsRestart a.deferred.now = false := by
        simpa [cancelled, pending] using idle
      obtain ⟨e, u, refused, stays⟩ := restartWithReason_refused
        (s := ⟨{ s.worker with pendingRestart := none }, s.effects⟩)
        ⟨gone.child, gone.lastExit, gone.stdin, gone.stdout, gone.notIdle, gone.notInFlight⟩
        reason a.deferred quiet full
      simp only [bind_apply, modify_apply, Outcome.andThen_returned, refused,
        Outcome.andThen_raised]
      exact stays

end

theorem perform_staysGone (w : LeanWorker) (gone : w.Gone) (op : Op)
    (idle : op.revives w = false) : StaysGone op.isRequest (op.perform ⟨w, []⟩) := by
  have quiet : ∀ e ∈ (⟨w, []⟩ : World).effects, e.quiet = true :=
    fun _ member => absurd member List.not_mem_nil
  have trip {A : Type} (operation : String) (request : Request) (progress : Bool)
      (extract : Response → Except LeanWorkerError A) (a : RequestAnswers) :
      StaysGone true (discard (roundTrip operation request false progress extract a) ⟨w, []⟩) :=
    (roundTrip_gone gone operation request false progress extract a).away.bind.staysGone gone
      quiet _
  have exchanged {A : Type} (operation : String) (request : Request) (importLike : Bool)
      (sinks : Sinks) (a : RequestAnswers) (f : Response → Supervisor A) :
      Away (exchange operation request importLike sinks a >>= f) ⟨w, []⟩ :=
    (exchange_gone gone _ _ _ _ _).bind.away
  have cancellable {A : Type} (operation : String) (cancelled : Bool) {next : Supervisor A}
      (away : Away next ⟨w, []⟩) :
      Away (checkCancelled operation cancelled >>= fun _ => next) ⟨w, []⟩ := by
    obtain ⟨_, away⟩ := away
    exact (checkCancelled_away operation cancelled away).away
  have refused (reason : LeanWorkerRestartReason) (a : RestartAnswers)
      (full : w.admitsRestart a.now = false) :
      StaysGone false (restartWithReason reason a ⟨w, []⟩) := by
    obtain ⟨e, t, raised, stays⟩ :=
      restartWithReason_refused (s := ⟨w, []⟩) gone reason a quiet full
    rw [raised]
    exact stays
  cases op with
  | status answer =>
    obtain ⟨exit, _, _, polled⟩ := status_gone answer ⟨w, []⟩ gone
    simp only [Op.perform, discard, bind_apply, polled, Outcome.andThen_returned, pure_apply]
    exact ⟨rfl, gone.exited, quiet⟩
  | rssKib sample =>
    exact ⟨rfl, gone.counted fun stats => stats.rssSampled (w.childRssKib sample), quiet⟩
  | setRequestTimeout timeout =>
    exact ⟨rfl, ⟨gone.child, gone.lastExit, gone.stdin, gone.stdout, gone.notIdle,
      gone.notInFlight⟩, quiet⟩
  | recordCapabilityOpenTiming load opened => exact
    ⟨rfl, gone.counted fun stats => stats.capabilityOpenTimed load opened, quiet⟩
  | recordCommandTiming first elapsed =>
    exact ⟨rfl, gone.counted fun stats => stats.commandTimed first elapsed, quiet⟩
  | cycle a => exact refused _ a idle
  | cycleWithRestartReason reason a => exact refused reason a idle
  | killForTest answer =>
    simp only [Op.perform, killForTest, bind_apply, worker_apply, Outcome.andThen_returned,
      gone.child, Option.isSome_none, Bool.false_eq_true, if_false, raise_apply]
    exact ⟨gone, quiet⟩
  | shutdown a =>
    obtain ⟨report, stopped⟩ := shutdownChild_gone (s := ⟨w, []⟩) gone a .graceful
    simp only [Op.perform, shutdown, discard, bind_apply, stopped, Outcome.andThen_returned,
      pure_apply]
    exact ⟨rfl, gone.exited, quiet⟩
  | health a => exact (exchanged _ _ _ _ _ _).staysGone gone quiet _
  | loadFixtureCapability built a =>
    exact (manifest_away built fun _ => exchanged _ _ _ _ _ _).staysGone gone quiet _
  | callFixtureMul built lhs rhs a =>
    exact (manifest_away built fun _ => exchanged _ _ _ _ _ _).bind.staysGone gone quiet _
  | triggerLeanPanicFixture built a =>
    exact (manifest_away built fun _ =>
      (issueRequest_gone gone _ _ _).bind.away).bind.staysGone gone quiet _
  | emitTestRows streams data a =>
    exact (cancellable _ _ (exchanged _ _ _ _ _ _)).bind.staysGone gone quiet _
  | emitTestRowsThenExit data a =>
    exact (cancellable _ _ (exchanged _ _ _ _ _ _)).staysGone gone quiet _
  | emitTestRowsThenPanic data a =>
    exact (cancellable _ _ (exchanged _ _ _ _ _ _)).staysGone gone quiet _
  | openWorkerSession config progress a =>
    exact openWorkerSession_gone gone config progress a quiet idle _
  | capabilityMetadata progress exportName requestJson a =>
    exact (encoded_away requestJson _ fun _ =>
      (roundTrip_gone gone _ _ _ _ _ a).away).bind.staysGone gone quiet _
  | capabilityDoctor progress exportName requestJson a =>
    exact (encoded_away requestJson _ fun _ =>
      (roundTrip_gone gone _ _ _ _ _ a).away).bind.staysGone gone quiet _
  | verifyDeclaration progress truncate request options a recover =>
    exact degradable_gone gone truncate _ _ _ recover (roundTrip_gone gone _ _ _ _ _ a) quiet idle _
  | verifyDeclarationBatch progress truncate targets request options a recover =>
    exact degradable_gone gone truncate _ _ _ recover (roundTrip_gone gone _ _ _ _ _ a) quiet idle _
  | processModuleQueryBatch progress truncate source selectors budgets options a recover =>
    exact degradable_gone gone truncate _ _ _ recover (roundTrip_gone gone _ _ _ _ _ a) quiet idle _
  | runDataStream progress exportName requestJson rows diagnostics a =>
    exact (cancellable _ _ (encoded_away requestJson _ fun _ =>
      (issueRequest_gone gone _ _ _).bind.away)).bind.staysGone gone quiet _
  | listDeclarationsStrings progress decode filter a =>
    exact (cancellable _ _ (issueRequest_gone gone _ _ _).bind.away).bind.staysGone gone quiet _
  | _ => exact trip _ _ _ _ _

theorem StaysGone.not_spawned {request : Bool} {o : Outcome World LeanWorkerError Unit}
    (stays : StaysGone request o) : .spawn ∉ o.state.effects := by
  intro spawned
  cases o with
  | waiting t => exact stays
  | returned _ t => exact nomatch stays.2.2 _ spawned
  | raised _ t => exact nomatch stays.2 _ spawned

theorem spawn_spawns (config : LeanWorkerConfig) (answer : SpawnAnswer) (s : World) :
    .spawn ∈ (spawn config answer s).state.effects := by
  cases answer with
  | handshakeFailed wait => cases wait <;> simp [spawn, waitWithStderr]
  | startupTimeout wait => cases wait <;> simp [spawn, waitWithStderr]
  | _ => simp [spawn]

theorem spawnReplacement_spawns (config : LeanWorkerConfig) (reason : LeanWorkerRestartReason)
    (a : RestartAnswers) (s : World) :
    .spawn ∈ (spawnReplacement config reason a s).state.effects := by
  have spawned := spawn_spawns config a.spawn ⟨{ s.worker.counted
    (fun stats => stats.budgetAdmitted.recordRestart reason) with budget := {} }, s.effects⟩
  have way := spawnReplacement_way config reason a s
  generalize spawnReplacement config reason a s = outcome at way ⊢
  cases way with
  | waiting ended => rw [ended] at spawned; exact spawned
  | failed ended => rw [ended] at spawned; exact spawned
  | started ended => rw [ended] at spawned; exact spawned

theorem restartWithReason_spawns {s : World} (gone : s.worker.Gone)
    (reason : LeanWorkerRestartReason) (a : RestartAnswers)
    (room : s.worker.admitsRestart a.now = true) :
    .spawn ∈ (restartWithReason reason a s).state.effects := by
  obtain ⟨report, stopped⟩ := shutdownChild_gone (s := ⟨s.worker.counted
    LeanWorkerStats.attempted, s.effects ++ [.replace reason]⟩) (gone.counted _) a.stop
      (stopIntent reason)
  rw [restartWithReason_admitted reason a stopped room]
  exact spawnReplacement_spawns _ _ _ _

theorem Moves.keepsSpawn {A B : Type} {m : Supervisor A} {f : A → Supervisor B} {s : World}
    (spawned : .spawn ∈ (m s).state.effects) (onwards : ∀ a, Moves (Appends fun _ => True) (f a)) :
    .spawn ∈ ((m >>= f) s).state.effects := by
  rw [bind_apply]
  cases outcome : m s with
  | waiting t => rw [outcome] at spawned; exact spawned
  | raised e t => rw [outcome] at spawned; exact spawned
  | returned a t =>
    rw [outcome] at spawned
    obtain ⟨new, joined, _⟩ := onwards a t
    rw [Outcome.andThen_returned, joined]
    exact List.mem_append_left _ spawned

theorem degradable_spawns {A D : Type} (truncate : String → String) (operation : String)
    {s : World} (gone : s.worker.Gone) (trip : Supervisor A)
    (verdict : LeanWorkerError → LeanWorker → D) (recover : RestartAnswers)
    (away : TurnsAway true trip s) (room : s.worker.admitsRestart recover.now = true) :
    .spawn ∈ (discard (degradable truncate operation trip verdict recover) s).state.effects := by
  obtain ⟨e, t, raised, turned⟩ := away
  cases e with
  | childPanicOrAbort exit =>
    have room : t.worker.admitsRestart recover.now = true := (turned.admitsRestart _).trans room
    refine Moves.keepsSpawn ?_ fun _ => .pure _
    simp only [degradable, bind_apply, capture_apply, raised, Outcome.captured_raised,
      Outcome.andThen_returned, worker_apply]
    exact Moves.keepsSpawn (restartWithReason_spawns (turned.gone gone) _ recover room)
      fun _ => .pure _
  | _ => exact nomatch turned.abort

theorem openWorkerSession_spawns {s : World} (gone : s.worker.Gone)
    (config : LeanWorkerSessionConfig) (progress : Bool) (a : OpenAnswers)
    (going : a.request.cancelled = false) (pending : s.worker.pendingRestart.isSome = true)
    (room : s.worker.admitsRestart a.deferred.now = true) :
    .spawn ∈ (openWorkerSession config progress a s).state.effects := by
  obtain ⟨reason, set⟩ := Option.isSome_iff_exists.mp pending
  have opens : openWorkerSession config progress a s =
      (restartWithReason reason a.deferred >>= fun _ =>
        requestWorkerSession config progress s.worker.stats.restarts a)
        ⟨{ s.worker with pendingRestart := none }, s.effects⟩ := by
    simp [openWorkerSession, checkCancelled, going, takePendingRestart, set]
  rw [opens]
  refine Moves.keepsSpawn (restartWithReason_spawns ?_ reason a.deferred room) fun _ =>
    requestWorkerSession_appends config progress _ a
  exact ⟨gone.child, gone.lastExit, gone.stdin, gone.stdout, gone.notIdle, gone.notInFlight⟩

theorem perform_spawns (w : LeanWorker) (gone : w.Gone) (op : Op) (revives : op.revives w = true) :
    .spawn ∈ (op.perform ⟨w, []⟩).state.effects := by
  have recovered {A D : Type} (truncate : String → String) (operation : String)
      (request : Request) (progress : Bool) (extract : Response → Except LeanWorkerError A)
      (verdict : LeanWorkerError → LeanWorker → D) (a : RequestAnswers) (recover : RestartAnswers)
      (revives : (!a.cancelled && w.reportsAbort && w.admitsRestart recover.now) = true) :
      .spawn ∈ (discard (degradable truncate operation (roundTrip operation request false progress
        extract a) verdict recover) ⟨w, []⟩).state.effects := by
    rw [Bool.and_eq_true] at revives
    have away := roundTrip_gone (s := ⟨w, []⟩) gone operation request false progress extract a
    exact degradable_spawns truncate operation gone _ verdict recover (revives.1 ▸ away) revives.2
  cases op with
  | cycle a => exact restartWithReason_spawns gone _ a revives
  | cycleWithRestartReason reason a => exact restartWithReason_spawns gone reason a revives
  | openWorkerSession config progress a =>
    simp only [Op.revives, Bool.and_eq_true, Bool.not_eq_true'] at revives
    exact openWorkerSession_spawns gone config progress a revives.1.1 revives.1.2 revives.2
  | verifyDeclaration progress truncate request options a recover =>
    exact recovered truncate _ _ _ _ _ a recover revives
  | verifyDeclarationBatch progress truncate targets request options a recover =>
    exact recovered truncate _ _ _ _ _ a recover revives
  | processModuleQueryBatch progress truncate source selectors budgets options a recover =>
    exact recovered truncate _ _ _ _ _ a recover revives
  | _ => cases revives

/-- The exhaustion holds through an operation exactly when the operation asks for no restart that
the window has room for. -/
theorem perform_staysGone_iff (w : LeanWorker) (gone : w.Gone) (op : Op) :
    StaysGone op.isRequest (op.perform ⟨w, []⟩) ↔ op.revives w = false := by
  constructor
  · intro stays
    cases revives : op.revives w
    · rfl
    · exact absurd (perform_spawns w gone op revives) stays.not_spawned
  · exact perform_staysGone w gone op

/-- A supervisor that has refused a replacement, and is asked for none that its window has room
for, stays without a child: it starts none, writes no frame, and fails every request. -/
theorem reachable_exhaustion_is_final (config : LeanWorkerConfig) (pid : Nat) (stderr : Bool)
    (elapsed : Duration) (now : Instant) (ops : List Op) (w : LeanWorker)
    (reached : Runs.run operate (.fresh config pid stderr elapsed now) ops = some w) (op : Op)
    (e : LeanWorkerError) (t : World) (raised : op.perform ⟨w, []⟩ = .raised e t)
    (refused : e.isRefusal = true) (later : List Op) (w' : LeanWorker)
    (idle : Runs.Guarded operate (fun w op => op.revives w = false) t.worker later)
    (reached' : Runs.run operate t.worker later = some w') :
    w'.Gone ∧ ∀ next : Op, StaysGone next.isRequest (next.perform ⟨w', []⟩) ↔
      next.revives w' = false := by
  have start := (refusal_leaves_gone config pid stderr elapsed now ops w reached op e t raised
    refused).1
  have gone : w'.Gone := by
    refine Runs.invariant_of_guarded (I := LeanWorker.Gone) (fun w op w' gone idle moved => ?_)
      start idle reached'
    obtain ⟨u, ended, rfl⟩ := Option.map_eq_some_iff.mp moved
    have stays := perform_staysGone w gone op idle
    cases outcome : op.perform ⟨w, []⟩ with
    | waiting v => rw [outcome] at ended; cases ended
    | returned _ v => rw [outcome] at ended stays; cases ended; exact stays.2.1
    | raised _ v => rw [outcome] at ended stays; cases ended; exact stays.1
  exact ⟨gone, fun next => perform_staysGone_iff w' gone next⟩

def LeanWorker.sparing : LeanWorker :=
  .spawned (LeanWorkerRestartPolicy.disabled.withMaxRestartsPerWindow 1 (Duration.fromMillis 10))

def Op.cycleAt (now : Duration) : Op := .cycle { RestartAnswers.smooth with now := now }

/-- Two cycles in the first millisecond, the second of them refused, and then a status and a
health check within the window. -/
theorem sparing_worker_stays_gone :
    ∃ (w : LeanWorker) (e : LeanWorkerError) (t : World) (w' : LeanWorker),
      Runs.run operate .sparing [.cycleAt 0] = some w ∧
      (Op.cycleAt 1000000).perform ⟨w, []⟩ = .raised e t ∧ e.isRefusal = true ∧
      Runs.run operate t.worker [.status .running, .health (.smooth [])] = some w' ∧
      w'.Gone ∧ StaysGone false ((Op.cycleAt 2000000).perform ⟨w', []⟩) := by
  refine ⟨_, _, _, _, rfl, rfl, rfl, rfl, ?_⟩
  have final := reachable_exhaustion_is_final LeanWorker.sparing.config 1 true 0 0 [.cycleAt 0] _
    rfl (.cycleAt 1000000) _ _ rfl rfl [.status .running, .health (.smooth [])] _
    (.cons rfl rfl (.cons rfl rfl trivial)) rfl
  exact ⟨final.1, (final.2 (.cycleAt 2000000)).mpr (by decide)⟩

/-- The same refusal, and a third cycle once the window has slid past the first: the supervisor
starts a child and answers the next health check. -/
theorem slid_window_revives_exhausted_worker :
    ∃ (w : LeanWorker) (e : LeanWorkerError) (t : World) (v : LeanWorker) (u : World),
      Runs.run operate .sparing [.cycleAt 0] = some w ∧
      (Op.cycleAt 1000000).perform ⟨w, []⟩ = .raised e t ∧ e.isRefusal = true ∧
      t.worker.state.isExhausted = true ∧ t.worker.child = none ∧
      operate t.worker (.cycleAt 10000000) = some v ∧ v.child.isSome = true ∧
      .spawn ∈ ((Op.cycleAt 10000000).perform ⟨t.worker, []⟩).state.effects ∧
      (Op.health (.smooth [.smooth (.event (.frame (.response .healthOk)) 0)])).perform ⟨v, []⟩ =
        .returned () u ∧ .write .health .written ∈ u.effects := by
  refine ⟨_, _, _, _, _, rfl, rfl, rfl, rfl, rfl, rfl, rfl, ?_, rfl, ?_⟩
  · decide +kernel
  · decide +kernel

end LeanRs
