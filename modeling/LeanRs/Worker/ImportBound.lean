import LeanRs.Worker.Handles
import LeanRs.Worker.Invariants

/-! How many imports one child generation can confirm under `max_imports`: at most one over the
limit, and then the next opening of a session replaces the child first. -/
namespace LeanRs

open Procedures Procedure Supervisor

namespace Core

/-- The limit is configured, and at most `bound` imports are confirmed. -/
structure AtMost (limit bound : Nat) (k : Core) : Prop where
  configured : k.config.restartPolicy.maxImports = some limit
  imports : k.budget.imports ≤ bound

/-- At most one import over the limit, and then a restart is pending. -/
structure Bounded (limit : Nat) (k : Core) : Prop where
  configured : k.config.restartPolicy.maxImports = some limit
  imports : k.budget.imports ≤ limit ∨
    (k.budget.imports ≤ limit + 1 ∧ k.pendingRestart.isSome)

structure Cleared (limit : Nat) (k : Core) : Prop extends AtMost limit limit k where
  pending : k.pendingRestart = none

def Roomy (limit : Nat) (k : Core) : Prop := k.budget.imports < limit

theorem Cleared.bounded {limit : Nat} {k : Core} (cleared : k.Cleared limit) : k.Bounded limit :=
  ⟨cleared.configured, .inl cleared.imports⟩

theorem one_le_limit {limit : Nat} {k : Core}
    (configured : k.config.restartPolicy.maxImports = some limit) : 1 ≤ limit :=
  k.config.restartPolicy.maxImports_pos limit configured

end Core

structure KeptByMoves (I : Core → Prop) : Prop where
  renewed : ∀ k, I k → I k.renewed
  discharged : ∀ k, I k → I k.discharged

namespace KeptByMoves

variable {I : Core → Prop} (kept : KeptByMoves I)

include kept

theorem preserves {A : Type} {m : Supervisor A} (moves : Moves CoreFrame m) :
    Preserves (fun s => I s.worker.core) m :=
  .ofMoves moves fun _ _ frame held => frame.keeps kept.renewed kept.discharged held

end KeptByMoves

section

variable {limit : Nat}

theorem keptByMoves_bounded : KeptByMoves (Core.Bounded limit) where
  renewed _ bounded := ⟨bounded.configured, .inl (Nat.zero_le _)⟩
  discharged _ bounded := ⟨bounded.configured, .inl (Nat.zero_le _)⟩

theorem keptByMoves_cleared : KeptByMoves (Core.Cleared limit) where
  renewed _ cleared := ⟨⟨cleared.configured, Nat.zero_le _⟩, rfl⟩
  discharged _ cleared := ⟨⟨cleared.configured, Nat.zero_le _⟩, cleared.pending⟩

theorem keptByMoves_and_roomy {I : Core → Prop} (kept : KeptByMoves I)
    (configured : ∀ k, I k → k.config.restartPolicy.maxImports = some limit) :
    KeptByMoves fun k => I k ∧ k.Roomy limit where
  renewed k held := ⟨kept.renewed k held.1, Core.one_le_limit (configured k held.1)⟩
  discharged k held := ⟨kept.discharged k held.1, Core.one_le_limit (configured k held.1)⟩

theorem keptByMoves_recount {I : Core → Prop} (kept : KeptByMoves I)
    (configured : ∀ k, I k → k.config.restartPolicy.maxImports = some limit) (before : Nat) :
    KeptByMoves fun k => I k ∧ (k.restarts = before ∨ k.Roomy limit) where
  renewed k held := ⟨kept.renewed k held.1, .inr (Core.one_le_limit (configured k held.1))⟩
  discharged k held := ⟨kept.discharged k held.1, .inr (Core.one_le_limit (configured k held.1))⟩

end

theorem spawn_returns (config : LeanWorkerConfig) (answer : SpawnAnswer) :
    Triple (fun _ => True) (spawn config answer) (fun _ s => .spawn ∈ s.effects)
      (fun _ _ => True) := by
  have emitted : ∀ s : World, Effect.spawn ∈ s.effects ++ [.spawn] := by simp
  cases answer with
  | ready pid stderr elapsed now => exact fun s _ => emitted s
  | handshakeFailed wait => cases wait <;> exact fun _ _ => trivial
  | startupTimeout wait => cases wait <;> exact fun _ _ => trivial
  | _ => exact fun _ _ => trivial

theorem restartWithReason_resets (reason : LeanWorkerRestartReason) (a : RestartAnswers) :
    Triple (fun _ => True) (restartWithReason reason a)
      (fun _ s => (s.worker.budget = {} ∧ s.worker.pendingRestart = none) ∧ .spawn ∈ s.effects)
      (fun _ _ => True) := by
  refine Triple.bind (M := fun _ _ => True) (fun _ _ => trivial) fun w =>
    Triple.bind (M := fun _ _ => True) (fun _ _ => trivial) fun _ =>
    Triple.bind (M := fun _ _ => True) (fun _ _ => trivial) fun _ =>
    Triple.bind (M := fun _ _ => True) (fun s _ => ?_) fun stopped => ?_
  · rw [capture_apply]
    cases shutdownChild a.stop (stopIntent reason) s <;> trivial
  · cases stopped with
    | error err =>
      exact Triple.bind (M := fun _ _ => True) (fun _ _ => trivial) fun _ _ _ => trivial
    | ok report =>
      refine Triple.bind (M := fun _ _ => True) (fun s _ => ?_) fun admitted => ?_
      · rw [capture_apply]
        cases admitRestart a.now s <;> trivial
      · cases admitted with
        | error err =>
          exact Triple.bind (M := fun _ _ => True) (fun _ _ => trivial) fun _ _ _ => trivial
        | ok _ =>
          refine Triple.bind (M := fun _ _ => True) (fun _ _ => trivial) fun _ =>
            Triple.bind (M := fun _ _ => True) (fun _ _ => trivial) fun _ =>
            Triple.bind (M := fun result t => ∀ next, result = .ok next →
              (∃ pid stderr elapsed now, next = .fresh w.config pid stderr elapsed now) ∧
                .spawn ∈ t.effects)
            (fun s _ => ?_) fun result => ?_
          · have started := spawn_meets w.config a.spawn s
            have emitted := spawn_returns w.config a.spawn s trivial
            rw [capture_apply]
            cases outcome : spawn w.config a.spawn s with
            | waiting t => trivial
            | raised e t => exact fun next same => nomatch same
            | returned next t =>
              rw [outcome] at started emitted
              exact fun _ same => Except.ok.inj same ▸ ⟨started.2, emitted⟩
          · cases result with
            | error err =>
              exact Triple.bind (M := fun _ _ => True) (fun _ _ => trivial) fun _ _ _ => trivial
            | ok next =>
              refine Triple.update fun s fresh => ?_
              obtain ⟨⟨pid, stderr, elapsed, now, rfl⟩, emitted⟩ := fresh next rfl
              exact ⟨⟨rfl, rfl⟩, emitted⟩

section

variable {limit : Nat} {I : Core → Prop} (kept : KeptByMoves I)
  (configured : ∀ k, I k → k.config.restartPolicy.maxImports = some limit)

include kept configured

theorem restartAdmitting_roomy (importLike : Bool) (reason : LeanWorkerRestartReason)
    (a : RestartAnswers) :
    Triple (fun s => I s.worker.core) (restartAdmitting importLike reason a)
      (fun _ s => I s.worker.core ∧ s.worker.core.Roomy limit) (fun _ s => I s.worker.core) := by
  refine Triple.bind (M := fun _ s => I s.worker.core ∧ s.worker.core.Roomy limit) ?_ fun _ =>
    ((keptByMoves_and_roomy kept configured).preserves (count_core _
      (LeanWorkerStats.admitted_restarts _))).consequence (fun _ h => h) (fun _ _ h => h)
      (fun _ _ h => h.1)
  refine ((kept.preserves (restartWithReason_core reason a)).both
    ((restartWithReason_resets reason a).consequence (fun s _ => trivial) (fun _ _ h => h)
      (fun _ _ h => h))).consequence (fun s h => h) (fun _ s held => ⟨held.1, ?_⟩)
      (fun _ _ held => held.1)
  have empty : s.worker.core.budget = {} := held.2.1.1
  unfold Core.Roomy
  rw [empty]
  exact Core.one_le_limit (configured _ held.1)

theorem prepareRequest_roomy (a : PrepareAnswers) :
    Triple (fun s => I s.worker.core) (prepareRequest true a)
      (fun _ s => I s.worker.core ∧ s.worker.core.Roomy limit) (fun _ s => I s.worker.core) := by
  have roomy := keptByMoves_and_roomy kept configured
  refine Triple.bind (kept.preserves (ensureRunning_moves _)) fun _ =>
    Triple.bind (kept.preserves (.bind worker_moves fun _ => .choose
      (fun _ => Tracked.count _ fun _ => rfl) fun _ => .pure _)) fun _ =>
    Triple.bind (worker_keeps (P := fun s => I s.worker.core)) fun w => ?_
  split
  · exact (restartAdmitting_roomy kept configured true _ _).consequence (fun _ h => h.2)
      (fun _ _ h => h) (fun _ _ h => h)
  · rename_i below
    have room : ∀ s : World, s.worker = w ∧ I s.worker.core →
        I s.worker.core ∧ s.worker.core.Roomy limit := by
      rintro s ⟨rfl, held⟩
      refine ⟨held, GenerationBudget.imports_lt_of_not_reached _ _ limit (configured _ held) ?_⟩
      simp only [LeanWorker.countedLimitReached, if_true, Option.or_eq_none_iff] at below
      exact below.2
    have onwards : ∀ reason, Triple (fun s => I s.worker.core ∧ s.worker.core.Roomy limit)
        (restartAdmitting true reason a.restart)
        (fun _ s => I s.worker.core ∧ s.worker.core.Roomy limit) (fun _ s => I s.worker.core) :=
      fun reason => (roomy.preserves (restartAdmitting_moves true reason a.restart)).consequence
        (fun _ h => h) (fun _ _ h => h) (fun _ _ h => h.1)
    refine Triple.bind ((roomy.preserves (rssCeilingReached_moves a.rss)).consequence room
      (fun _ _ h => h) (fun _ _ h => h.1)) fun ceiling => ?_
    split
    · exact onwards _
    · split
      · exact onwards _
      · exact (roomy.preserves (Tracked.count _ (LeanWorkerStats.admitted_restarts _))).consequence
          (fun _ h => h) (fun _ _ h => h) (fun _ _ h => h.1)

end

section

variable {limit : Nat}

theorem recordRequest_importing (now : Instant) :
    Triple (fun s => s.worker.core.Bounded limit ∧ s.worker.core.Roomy limit)
      (recordRequest true now) (fun _ s => s.worker.core.Bounded limit)
      (fun _ s => s.worker.core.Bounded limit) := by
  refine Triple.update fun s held => ⟨held.1.configured, .inl ?_⟩
  exact Nat.le_trans (GenerationBudget.recordRequest_imports_le _ true) held.2

theorem recordRequest_plain (now : Instant) (I : Core → Prop)
    (requests : ∀ k : Core, I k → I { k with budget := k.budget.recordRequest false }) :
    Preserves (fun s => I s.worker.core) (recordRequest false now) :=
  Triple.update fun s held => requests s.worker.core held

theorem partsKeep_bounded : PartsKeep fun s => s.worker.core.Bounded limit where
  issue request importLike a := by
    cases importLike with
    | false =>
      exact (keptByMoves_bounded.preserves (prepareRequest_moves _ _)).bind fun _ =>
        (keptByMoves_bounded.preserves (sendRequest_moves _ _ _)).bind fun _ =>
        recordRequest_plain _ _ fun _ bounded => ⟨bounded.configured, bounded.imports⟩
    | true =>
      have roomy := @keptByMoves_and_roomy limit _ keptByMoves_bounded
        fun _ bounded => bounded.configured
      exact Triple.bind (prepareRequest_roomy keptByMoves_bounded
        (fun _ bounded => bounded.configured) a.prepare) fun _ =>
        Triple.bind ((roomy.preserves (sendRequest_moves _ _ _)).consequence (fun _ h => h)
          (fun _ _ h => h) (fun _ _ h => h.1)) fun _ => recordRequest_importing _
  respond _ _ _ _ := keptByMoves_bounded.preserves (readResponseWithEvents_moves _ _ _ _)
  restart _ _ := keptByMoves_bounded.preserves (restartWithReason_core _ _)
  stop frame := keptByMoves_bounded.preserves (moves_core_of_stop frame)
  count _ same := keptByMoves_bounded.preserves (count_core _ same)
  timeout _ := Triple.update fun _ bounded => ⟨bounded.configured, bounded.imports⟩

/-- The deferred restart of this state would be admitted: the child is gone or its stop reaps it,
and the restart window has room. -/
def LeanWorker.admitsDeferred (w : LeanWorker) (a : RestartAnswers) : Bool :=
  match w.pendingRestart with
  | none => true
  | some reason =>
    (w.child.isNone || a.stop.reaps (stopIntent reason) w.stdout) && w.admitsRestart a.now

theorem takePendingRestart_cleared (a : RestartAnswers) (before : Nat) :
    Triple (fun s => s.worker.stats.restarts = before ∧ s.worker.core.Bounded limit ∧
        s.worker.Settled True ∧
        (s.worker.budget.imports ≤ limit ∨ s.worker.admitsDeferred a = true))
      (takePendingRestart a)
      (fun _ s => s.worker.core.Cleared limit ∧
        (s.worker.core.restarts = before ∨ s.worker.core.Roomy limit))
      (fun _ s => s.worker.core.Bounded limit) := by
  intro s held
  obtain ⟨counted, bounded, settled, admitted⟩ := held
  simp only [takePendingRestart, bind_apply, worker_apply, Outcome.andThen_returned]
  cases pending : s.worker.pendingRestart with
  | none =>
    refine ⟨⟨⟨bounded.configured, ?_⟩, pending⟩, .inl counted⟩
    rcases bounded.imports with within | ⟨_, set⟩
    · exact within
    · have none : s.worker.core.pendingRestart = none := pending
      rw [none] at set
      cases set
  | some reason =>
    simp only [bind_apply, modify_apply, Outcome.andThen_returned]
    have resets := restartWithReason_resets reason a
      ⟨{ s.worker with pendingRestart := none }, s.effects⟩ trivial
    have keeps (within : s.worker.budget.imports ≤ limit) :=
      keptByMoves_cleared.preserves (restartWithReason_core reason a)
        ⟨{ s.worker with pendingRestart := none }, s.effects⟩
        ⟨⟨bounded.configured, within⟩, rfl⟩
    have configured := CoreFrame.config (restartWithReason_core reason a
      ⟨{ s.worker with pendingRestart := none }, s.effects⟩)
    have cleared : ({ s.worker with pendingRestart := none } : LeanWorker).Settled True :=
      settled.congr rfl
    have ends := restartWithReason_ends reason a
      ⟨{ s.worker with pendingRestart := none }, s.effects⟩
      cleared.formed
    cases outcome : restartWithReason reason a
        ⟨{ s.worker with pendingRestart := none }, s.effects⟩ with
    | waiting t => trivial
    | returned _ t =>
      rw [outcome] at resets configured
      have empty : t.worker.core.budget = {} := resets.1.1
      have limited : t.worker.core.config.restartPolicy.maxImports = some limit :=
        (congrArg (fun config : LeanWorkerConfig => config.restartPolicy.maxImports)
          configured).trans bounded.configured
      refine ⟨⟨⟨limited, by rw [empty]; exact Nat.zero_le _⟩, resets.1.2⟩, .inr ?_⟩
      unfold Core.Roomy
      rw [empty]
      exact Core.one_le_limit limited
    | raised e t =>
      rw [outcome] at keeps configured ends
      have limited : t.worker.core.config.restartPolicy.maxImports = some limit :=
        (congrArg (fun config : LeanWorkerConfig => config.restartPolicy.maxImports)
          configured).trans bounded.configured
      rcases admitted with within | admitted
      · exact (keeps within).bounded
      · simp only [LeanWorker.admitsDeferred, pending, Bool.and_eq_true, Bool.or_eq_true]
          at admitted
        cases ends with
        | stopFailed err w' memory restarts owned unreaped system left =>
          have present : s.worker.child.isSome := owned.child
          rcases admitted.1 with absent | reaps
          · cases child : s.worker.child <;> rw [child] at present absent <;> cases present
            cases absent
          · have unreaped : a.stop.reaps (stopIntent reason) s.worker.stdout = false := unreaped
            rw [unreaped] at reaps
            cases reaps
        | refused restarts window w' gone state memory unchanged full =>
          have full : s.worker.admitsRestart a.now = false := full
          rw [full] at admitted
          cases admitted.2
        | spawnFailed err w' gone memory restarts running =>
          have empty : t.worker.core.budget = {} := congrArg Ledger.budget memory
          exact ⟨limited, .inl (by rw [empty]; exact Nat.zero_le _)⟩

/-- Before the frame of an opening: within the limit, nothing pending, and an import that was not
expected to be a reuse has room. -/
structure Core.Opening (limit : Nat) (expectReuse : Bool) (k : Core) : Prop
    extends Core.Cleared limit k where
  roomy : expectReuse = false → k.Roomy limit

theorem keptByMoves_opening (expectReuse : Bool) :
    KeptByMoves (Core.Opening limit expectReuse) where
  renewed k opening := ⟨keptByMoves_cleared.renewed k opening.toCleared,
    fun _ => Core.one_le_limit opening.configured⟩
  discharged k opening := ⟨keptByMoves_cleared.discharged k opening.toCleared,
    fun _ => Core.one_le_limit opening.configured⟩

theorem hostSessionOpened_bounded (config : LeanWorkerSessionConfig) (expectReuse : Bool)
    (beforeRestarts : Nat) (importStats : LeanWorkerImportStats) (elapsed : Duration) (s : World)
    (opening : s.worker.core.Opening limit expectReuse) :
    (hostSessionOpened config expectReuse beforeRestarts importStats elapsed s).Meets
      (fun _ t => t.worker.core.Bounded limit) (fun _ _ => False) := by
  have counted : (s.worker.budget.recordImport importStats).imports ≤
      s.worker.budget.imports + 1 := GenerationBudget.recordImport_imports_le _ _
  have within : s.worker.budget.imports ≤ limit := opening.imports
  refine ⟨opening.configured, ?_⟩
  cases expectReuse with
  | false =>
    have room : s.worker.budget.imports < limit := opening.roomy rfl
    exact .inl (Nat.le_trans counted room)
  | true =>
    by_cases fits : (s.worker.budget.recordImport importStats).imports ≤ limit
    · exact .inl fits
    · refine .inr ⟨Nat.le_trans counted (Nat.succ_le_succ within), ?_⟩
      exact GenerationBudget.importLimitReached_isSome _ _ limit opening.configured
        (Nat.le_of_lt (Nat.not_le.mp fits))

theorem readWorkerSession_bounded (config : LeanWorkerSessionConfig) (progress expectReuse : Bool)
    (beforeRestarts : Nat) (a : OpenAnswers) :
    Triple (fun s => s.worker.core.Opening limit expectReuse)
      (readWorkerSession config progress expectReuse beforeRestarts a)
      (fun _ s => s.worker.core.Bounded limit) (fun _ s => s.worker.core.Bounded limit) := by
  have forget : ∀ e : LeanWorkerError, Triple (fun s => s.worker.core.Opening limit expectReuse)
      (forgetSessionKeys >>= fun _ => (raise e : Supervisor Unit))
      (fun _ s => s.worker.core.Bounded limit) (fun _ s => s.worker.core.Bounded limit) :=
    fun e => Triple.bind (M := fun _ s => s.worker.core.Bounded limit)
      (Triple.update fun s opening => ⟨opening.configured, .inl opening.imports⟩) fun _ =>
      Triple.raise fun _ bounded => bounded
  refine Triple.bind ((keptByMoves_opening expectReuse).preserves
    (Moves.capture (readResponseWithEvents_moves _ _ _ _)) |>.consequence (fun _ h => h)
      (fun _ _ h => h) (fun _ _ h => h.toCleared.bounded)) fun result => ?_
  cases result with
  | error e => exact forget e
  | ok response =>
    cases response with
    | hostSessionOpened importStats =>
      exact fun s opening =>
        (hostSessionOpened_bounded config expectReuse beforeRestarts importStats
          _ s opening).weaken (fun _ _ h => h) (fun _ _ h => h.elim)
    | hostSessionReused importStats =>
      exact fun s opening => ⟨opening.configured, .inl opening.imports⟩
    | _ => exact forget _

theorem requestWorkerSession_bounded (config : LeanWorkerSessionConfig) (progress : Bool)
    (beforeRestarts : Nat) (a : OpenAnswers) :
    Triple (fun s => s.worker.core.Cleared limit ∧
        (s.worker.core.restarts = beforeRestarts ∨ s.worker.core.Roomy limit))
      (requestWorkerSession config progress beforeRestarts a)
      (fun _ s => s.worker.core.Bounded limit) (fun _ s => s.worker.core.Bounded limit) := by
  refine Triple.bind (worker_keeps (P := fun s => s.worker.core.Cleared limit ∧
    (s.worker.core.restarts = beforeRestarts ∨ s.worker.core.Roomy limit))) fun w => ?_
  refine Triple.bind (M := fun _ s => s.worker.core.Cleared limit ∧
    ((w.predictsReuse config = true ∧ s.worker.core.restarts = beforeRestarts) ∨
      s.worker.core.Roomy limit)) ?_ fun _ => Triple.bind (worker_keeps (P := fun s =>
        s.worker.core.Cleared limit ∧ ((w.predictsReuse config = true ∧
          s.worker.core.restarts = beforeRestarts) ∨ s.worker.core.Roomy limit))) fun w' => ?_
  · cases predicted : w.predictsReuse config with
    | false =>
      exact (prepareRequest_roomy keptByMoves_cleared (fun _ cleared => cleared.configured)
        a.request.prepare).consequence (fun _ h => h.2.1) (fun _ _ h => ⟨h.1, .inr h.2⟩)
        (fun _ _ cleared => cleared.bounded)
    | true =>
      exact ((keptByMoves_recount keptByMoves_cleared (fun _ cleared => cleared.configured)
        beforeRestarts).preserves (prepareRequest_moves _ _)).consequence (fun _ h => h.2)
        (fun _ _ h => ⟨h.1, h.2.imp (fun same => ⟨rfl, same⟩) id⟩) (fun _ _ h => h.1.bounded)
  · have opens : ∀ s : World, s.worker = w' ∧ s.worker.core.Cleared limit ∧
        ((w.predictsReuse config = true ∧ s.worker.core.restarts = beforeRestarts) ∨
          s.worker.core.Roomy limit) →
        s.worker.core.Opening limit
          (w.predictsReuse config && w'.stats.restarts == beforeRestarts) := by
      rintro s ⟨rfl, cleared, expected⟩
      refine ⟨cleared, fun unexpected => expected.resolve_left fun same => ?_⟩
      have counted : s.worker.stats.restarts = beforeRestarts := same.2
      simp [same.1, counted] at unexpected
    have opening := @keptByMoves_opening limit
      (w.predictsReuse config && w'.stats.restarts == beforeRestarts)
    exact Triple.bind ((opening.preserves (sendRequest_moves _ _ _)).consequence opens
      (fun _ _ h => h) (fun _ _ h => h.toCleared.bounded)) fun _ =>
      Triple.bind ((recordRequest_plain _ _ fun _ held => ⟨⟨⟨held.configured, held.imports⟩,
        held.pending⟩, held.roomy⟩).consequence (fun _ h => h) (fun _ _ h => h)
        (fun _ _ h => h.toCleared.bounded)) fun _ => readWorkerSession_bounded config progress _ _ a

theorem openWorkerSession_bounded (config : LeanWorkerSessionConfig) (progress : Bool)
    (a : OpenAnswers) :
    Triple (fun s => s.worker.core.Bounded limit ∧ s.worker.Settled True ∧
        (s.worker.budget.imports ≤ limit ∨ s.worker.admitsDeferred a.deferred = true))
      (openWorkerSession config progress a) (fun _ s => s.worker.core.Bounded limit)
      (fun _ s => s.worker.core.Bounded limit) := by
  refine Triple.bind (M := fun _ s => s.worker.core.Bounded limit ∧ s.worker.Settled True ∧
    (s.worker.budget.imports ≤ limit ∨ s.worker.admitsDeferred a.deferred = true)) ?_ fun _ =>
    Triple.bind (worker_keeps (P := fun s => s.worker.core.Bounded limit ∧
      s.worker.Settled True ∧
      (s.worker.budget.imports ≤ limit ∨ s.worker.admitsDeferred a.deferred = true))) fun before =>
    Triple.bind ((takePendingRestart_cleared a.deferred before.stats.restarts).consequence
      (fun s held => ⟨by rw [held.1], held.2⟩) (fun _ _ h => h) (fun _ _ h => h)) fun _ =>
    requestWorkerSession_bounded config progress _ a
  exact .choose (fun _ => Triple.raise fun _ held => held.1) fun _ => Triple.pure fun _ held => held

end

/-- All that is written before a new child is spawned is `Terminate`, and a call that spawns none
does not return. -/
def RestartsFirst (o : Outcome World LeanWorkerError Unit) : Prop :=
  ∃ first rest, o.state.effects = first ++ rest ∧
    (∀ request answer, .write request answer ∈ first → request = .terminate) ∧
    (.spawn ∈ first ∨ (rest = [] ∧ ∀ s, o ≠ .returned () s))

def Effect.sendsNothing : Effect → Prop
  | .write request _ => request = .terminate
  | _ => True

theorem Effect.sendsNothing_of_ofStop (e : Effect) (stop : e.ofStop = true) : e.sendsNothing := by
  cases e with
  | write request answer => simpa [ofStop, sendsNothing] using stop
  | _ => trivial

theorem openWorkerSession_restartsFirst (w : LeanWorker) (pending : w.pendingRestart.isSome)
    (config : LeanWorkerSessionConfig) (progress : Bool) (a : OpenAnswers) :
    RestartsFirst (openWorkerSession config progress a ⟨w, []⟩) := by
  obtain ⟨reason, set⟩ := Option.isSome_iff_exists.mp pending
  cases cancelled : a.request.cancelled with
  | true =>
    have refused : openWorkerSession config progress a ⟨w, []⟩ = .raised (.cancelled
        "open_worker_session" (preDispatchCancelledResource "open_worker_session")) ⟨w, []⟩ := by
      simp [openWorkerSession, checkCancelled, cancelled]
    rw [refused]
    exact ⟨[], [], rfl, fun _ _ member => absurd member List.not_mem_nil,
      .inr ⟨rfl, Outcome.raised_ne_returned _ _ _⟩⟩
  | false =>
    obtain ⟨first, joined, quiet⟩ := restartWithReason_appends Effect.sendsNothing_of_ofStop
      trivial reason trivial a.deferred ⟨{ w with pendingRestart := none }, []⟩
    have resets := restartWithReason_resets reason a.deferred
      ⟨{ w with pendingRestart := none }, []⟩ trivial
    have written : ∀ request answer, .write request answer ∈ first → request = .terminate :=
      fun request answer member => quiet _ member
    rw [List.nil_append] at joined
    have opens : openWorkerSession config progress a ⟨w, []⟩ =
        (restartWithReason reason a.deferred ⟨{ w with pendingRestart := none }, []⟩).andThen
          fun _ => requestWorkerSession config progress w.stats.restarts a := by
      simp [openWorkerSession, checkCancelled, cancelled, takePendingRestart, set]
    rw [opens]
    cases outcome : restartWithReason reason a.deferred
        ⟨{ w with pendingRestart := none }, []⟩ with
    | waiting t =>
      rw [outcome] at joined
      exact ⟨first, [], by simpa using joined, written, .inr ⟨rfl, Outcome.waiting_ne_returned _ _⟩⟩
    | raised e t =>
      rw [outcome] at joined
      exact ⟨first, [], by simpa using joined, written,
        .inr ⟨rfl, Outcome.raised_ne_returned _ _ _⟩⟩
    | returned _ t =>
      rw [outcome] at joined resets
      have spawned : Effect.spawn ∈ first := by
        have emitted := resets.2
        rwa [show t.effects = first from joined] at emitted
      obtain ⟨rest, onwards, _⟩ := requestWorkerSession_appends config progress w.stats.restarts a t
      exact ⟨first, rest, by rw [Outcome.andThen_returned, onwards, show t.effects = first from
        joined], written, .inl spawned⟩

/-- An opening that finds the count over the limit can carry its deferred restart through. -/
def DeferredAdmitted (limit : Nat) (w : LeanWorker) : Op → Prop
  | .openWorkerSession _ _ a => w.budget.imports ≤ limit ∨ w.admitsDeferred a.deferred = true
  | _ => True

theorem operate_bounded (limit : Nat) (w w' : LeanWorker) (op : Op)
    (held : w.Settled True ∧ w.core.Bounded limit) (admitted : DeferredAdmitted limit w op)
    (moved : operate w op = some w') : w'.Settled True ∧ w'.core.Bounded limit := by
  refine ⟨(operate_settled True w w' op held.1 moved).weaken fun _ => trivial, ?_⟩
  obtain ⟨t, ends, rfl⟩ := Option.map_eq_some_iff.mp moved
  refine Outcome.Meets.ended (I := fun s => s.worker.core.Bounded limit) ?_ ends
  cases op with
  | openWorkerSession config progress a =>
    exact openWorkerSession_bounded config progress a ⟨w, []⟩ ⟨held.2, held.1, admitted⟩
  | _ => exact partsKeep_bounded.perform _ rfl ⟨w, []⟩ held.2

/-- In every run whose deferred restarts are carried through, a generation confirms at most
one import over the limit, goes over it only with a restart pending, and then an opening of a
session replaces the child before it sends anything. -/
theorem imports_bounded (config : LeanWorkerConfig) (pid : Nat) (stderr : Bool)
    (elapsed : Duration) (now : Instant) (limit : Nat)
    (configured : config.restartPolicy.maxImports = some limit) (ops : List Op) (w : LeanWorker)
    (admitted : Runs.Guarded operate (DeferredAdmitted limit)
      (.fresh config pid stderr elapsed now) ops)
    (reached : Runs.run operate (.fresh config pid stderr elapsed now) ops = some w) :
    w.budget.imports ≤ limit + 1 ∧
      (limit < w.budget.imports → w.pendingRestart.isSome ∧
        ∀ opened progress a, RestartsFirst (openWorkerSession opened progress a ⟨w, []⟩)) := by
  have held : w.Settled True ∧ w.core.Bounded limit :=
    Runs.invariant_of_guarded (fun w op w' => operate_bounded limit w w' op)
      ⟨.ready (LeanWorker.ready_fresh config pid stderr elapsed now), configured,
        .inl (Nat.zero_le _)⟩
      admitted reached
  rcases held.2.imports with within | ⟨one, pending⟩
  · have within : w.budget.imports ≤ limit := within
    exact ⟨Nat.le_succ_of_le within, fun exceeds => absurd within (Nat.not_le.mpr exceeds)⟩
  · exact ⟨one, fun _ => ⟨pending, openWorkerSession_restartsFirst w pending⟩⟩

/-- One opening of a session without imports, answered by `response`. -/
def Op.opening (response : Response) (deferred : RestartAnswers) : Op :=
  .openWorkerSession ⟨⟨[]⟩, .shimsOnly, [], .server⟩ false
    ⟨.smooth [.smooth (.event (.frame (.response response)) 0)], deferred, 0⟩

def RestartAnswers.unpolled : RestartAnswers :=
  { smooth with stop := { ShutdownAnswers.smooth with status := .failed "wait" } }

theorem reopened_sessions_bounded :
    ∃ w : LeanWorker,
      Runs.run operate (.spawned (LeanWorkerRestartPolicy.disabled.withMaxImports 1))
        [.opening (.hostSessionOpened default) .smooth,
          .opening (.hostSessionReused default) .smooth,
          .opening (.hostSessionOpened default) .smooth] = some w ∧
      w.budget.imports ≤ 1 + 1 ∧ (1 < w.budget.imports → w.pendingRestart.isSome ∧
        ∀ opened progress a, RestartsFirst (openWorkerSession opened progress a ⟨w, []⟩)) :=
  ⟨_, rfl, imports_bounded
    { executable := ⟨[]⟩, restartPolicy := LeanWorkerRestartPolicy.disabled.withMaxImports 1 }
    1 true 0 0 1 rfl
    [.opening (.hostSessionOpened default) .smooth, .opening (.hostSessionReused default) .smooth,
      .opening (.hostSessionOpened default) .smooth] _
    (.cons (.inl (by decide)) rfl (.cons (.inl (by decide)) rfl
      (.cons (.inl (by decide)) rfl trivial))) rfl⟩

/-- With a limit of one: the restart that the third opening defers is taken off the record and
fails at its first poll, so the fourth leaves a count over the limit with nothing pending, and the
fifth confirms a third import in the same generation. -/
theorem lost_deferred_restart_exceeds_bound :
    ∃ w v : LeanWorker,
      Runs.run operate (.spawned (LeanWorkerRestartPolicy.disabled.withMaxImports 1))
        [.opening (.hostSessionOpened default) .smooth,
          .opening (.hostSessionReused default) .smooth,
          .opening (.hostSessionOpened default) .smooth,
          .opening (.hostSessionOpened default) .unpolled] = some w ∧
      w.budget.imports = 2 ∧ w.pendingRestart = none ∧ w.generation = 0 ∧
      operate w (.opening (.hostSessionOpened default) .smooth) = some v ∧
      v.budget.imports = 3 ∧ v.generation = 0 :=
  ⟨_, _, rfl, rfl, rfl, rfl, rfl, rfl, rfl⟩

end LeanRs
