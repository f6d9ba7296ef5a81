import LeanRs.Worker.Generations

/-! The accounts of replacing the child: every attempt comes to a success or a failure, and the
counters that are carried over to a replacement never go back. -/
namespace LeanRs

open Procedures Procedure Supervisor

/-- All but `open'` of the attempts have come to a success or a failure, as long as the attempts
have not reached the bound of their counter. -/
structure LeanWorkerStats.Outstanding (stats : LeanWorkerStats) (open' : Nat) : Prop where
  bounded : stats.replacementAttempts ≤ u64Max
  accounted : stats.replacementAttempts < u64Max →
    stats.replacementAttempts = stats.replacementSuccesses + stats.replacementFailures + open'

namespace LeanWorkerStats.Outstanding

variable {stats : LeanWorkerStats} {n : Nat}

theorem congr {other : LeanWorkerStats} (outstanding : stats.Outstanding n)
    (same : other.replacements.2 = stats.replacements.2) : other.Outstanding n := by
  obtain ⟨attempts, successes, failures⟩ : _ ∧ _ ∧ _ := by
    simpa only [replacements, Prod.mk.injEq] using same
  constructor
  · rw [attempts]
    exact outstanding.bounded
  · rw [attempts, successes, failures]
    exact outstanding.accounted

theorem attempted (outstanding : stats.Outstanding n) : stats.attempted.Outstanding (n + 1) := by
  obtain ⟨bounded, accounted⟩ := outstanding
  constructor <;> simp only [LeanWorkerStats.attempted, saturatingAdd] <;> omega

theorem replaced (outstanding : stats.Outstanding (n + 1)) (spawnHandshake total : Duration) :
    (stats.replaced spawnHandshake total).Outstanding n := by
  obtain ⟨bounded, accounted⟩ := outstanding
  constructor <;> simp only [LeanWorkerStats.replaced, saturatingAdd] <;> omega

theorem failedBecause (outstanding : stats.Outstanding (n + 1)) (reason : String) :
    (stats.failedBecause reason).Outstanding n := by
  obtain ⟨bounded, accounted⟩ := outstanding
  constructor <;> simp only [LeanWorkerStats.failedBecause, saturatingAdd] <;> omega

end LeanWorkerStats.Outstanding

def Outstanding (n : Nat) (s : World) : Prop := s.worker.stats.Outstanding n

theorem Outstanding.stop {n : Nat} {A : Type} {m : Supervisor A} (frame : Moves StopFrame m) :
    Preserves (Outstanding n) m :=
  .ofMoves frame fun _ _ moved held =>
    held.congr (congrArg (fun ledger : Ledger => ledger.stats.replacements.2) moved.ledger)

theorem Outstanding.book {n : Nat} {f : LeanWorker → LeanWorker} (books : Bookkeeping f) :
    Preserves (Outstanding n) (modify f) := by
  refine Triple.update fun s held => held.congr ?_
  have same := books.lifeline s.worker
  simp only [LeanWorkerStats.replacements, Prod.mk.injEq]
  exact ⟨congrArg Lifeline.attempts same, congrArg Lifeline.successes same,
    congrArg Lifeline.failures same⟩

theorem Outstanding.emit {n : Nat} (e : Effect) : Preserves (Outstanding n) (Supervisor.emit e) :=
  Triple.update fun _ held => held

theorem Outstanding.admitRestart {n : Nat} (now : Instant) :
    Preserves (Outstanding n) (admitRestart now) :=
  .bind .worker fun _ => .choose (fun _ => .bind (Triple.update fun _ held => held) fun _ =>
    .raise _) fun _ => Triple.update fun _ held => held

theorem Outstanding.spawn {n : Nat} (config : LeanWorkerConfig) (answer : SpawnAnswer) :
    Preserves (Outstanding n) (spawn config answer) := by
  have moves : Procedure.Moves (fun s t : World => t.worker = s.worker)
      (LeanRs.spawn config answer) := spawn_worker config answer
  exact .ofMoves moves
    fun _ _ same held => held.congr (congrArg (fun w => w.stats.replacements.2) same)

theorem Outstanding.fails {n : Nat} {A : Type} (reason : String) (e : LeanWorkerError)
    (f : LeanWorkerStats → LeanWorkerStats)
    (counts : ∀ stats, (f stats).replacements.2 = (stats.failedBecause reason).replacements.2) :
    Triple (Outstanding (n + 1)) (do count f; raise e : Supervisor A) (fun _ => Outstanding n)
      (fun _ => Outstanding n) :=
  Triple.bind (M := fun _ => Outstanding n)
    (Triple.update fun s held => (held.failedBecause reason).congr (counts s.worker.stats))
    fun _ => Triple.raise fun _ held => held

theorem LeanWorkerStats.replacements_recordRestart (stats : LeanWorkerStats)
    (reason : LeanWorkerRestartReason) :
    (stats.budgetAdmitted.recordRestart reason).replacements.2 = stats.replacements.2 := by
  cases reason <;> rfl

theorem Outstanding.spawnReplacement {n : Nat} (config : LeanWorkerConfig)
    (reason : LeanWorkerRestartReason) (a : RestartAnswers) :
    Triple (Outstanding (n + 1)) (spawnReplacement config reason a) (fun _ => Outstanding n)
      (fun _ => Outstanding n) := by
  refine Triple.bind (M := fun _ => Outstanding (n + 1)) (Triple.update fun s held =>
    held.congr (s.worker.stats.replacements_recordRestart reason)) fun _ => ?_
  refine Triple.bind (M := fun _ => Outstanding (n + 1)) (Triple.update fun _ held => held)
    fun _ => ?_
  refine Triple.bind (M := fun _ => Outstanding (n + 1))
    (Triple.capture (Outstanding.spawn config a.spawn)) fun spawned => ?_
  cases spawned with
  | error err => exact Outstanding.fails "spawn_failed" err _ fun _ => rfl
  | ok next => exact Triple.update fun s held => held.replaced _ _

theorem Outstanding.restartWithReason {n : Nat} (reason : LeanWorkerRestartReason)
    (a : RestartAnswers) : Preserves (Outstanding n) (restartWithReason reason a) := by
  refine .bind .worker fun w => .bind (.emit _) fun _ => ?_
  refine Triple.bind (M := fun _ => Outstanding (n + 1))
    (Triple.update fun s held => held.attempted) fun _ => ?_
  refine Triple.bind (M := fun _ => Outstanding (n + 1))
    (Triple.capture (Outstanding.stop (shutdownChild_frame _ _))) fun stopped => ?_
  cases stopped with
  | error err => exact Outstanding.fails "stop_failed" err _ fun _ => rfl
  | ok report =>
    refine Triple.bind (M := fun _ => Outstanding (n + 1))
      (Triple.capture (Outstanding.admitRestart a.now)) fun admitted => ?_
    cases admitted with
    | error err => exact Outstanding.fails "restart_limit_exceeded" err _ fun _ => rfl
    | ok _ => exact Outstanding.spawnReplacement w.config reason a

theorem contract_outstanding (n : Nat) :
    Contract (fun _ => True) (Outstanding n) (fun _ => True) where
  book _ books := Outstanding.book books
  emit e _ := Outstanding.emit e
  status answer := Outstanding.stop (status_frame answer)
  waitForExit answer := Outstanding.stop (waitForExit_frame answer)
  killChild answer := Outstanding.stop (killChild_frame answer)
  shutdown a := Outstanding.stop (shutdownChild_frame a .graceful)
  restart reason a _ := fun s held => (Outstanding.restartWithReason reason a s held).weaken
    (fun _ _ kept => kept) fun _ _ kept => ⟨kept, fun _ => trivial⟩
  finish _ _ := trivial
  forget _ _ := trivial

theorem reachable_outstanding (config : LeanWorkerConfig) (pid : Nat) (stderr : Bool)
    (elapsed : Duration) (now : Instant) (ops : List Op) (w : LeanWorker)
    (reached : Runs.run operate (.fresh config pid stderr elapsed now) ops = some w) :
    w.stats.Outstanding 0 := by
  refine Runs.invariant (I := fun w : LeanWorker => w.stats.Outstanding 0)
    (fun w op w' held moved => ?_) ⟨Nat.zero_le _, fun _ => rfl⟩ reached
  obtain ⟨t, ended, rfl⟩ := Option.map_eq_some_iff.mp moved
  have kept := (contract_outstanding 0).perform op (fun _ _ => trivial) ⟨w, []⟩ held
  exact Outcome.Meets.ended (I := Outstanding 0)
    (kept.weaken (fun _ _ held => held) fun _ _ held => held.1) ended

/-- The 64-bit counters of a worker; none of them is ever set back. -/
inductive LeanWorkerCounter where
  | requests | imports | importLikeAdmissionAttempts | importLikeAdmitted | exits | restarts
  | explicitCycles | maxRequestRestarts | maxImportRestarts | importResidueRestarts
  | importStatsUnusable | rssRestarts | idleRestarts | cancelledRestarts | timeoutRestarts
  | rssSamplesUnavailable | replacementAttempts | replacementSuccesses | replacementFailures
  | replacementBudgetAdmitted | replacementBudgetSkipped | streamRequests | streamSuccesses
  | streamFailures | dataRowsDelivered | dataRowPayloadBytes | backpressureWaits
  | backpressureFailures

def LeanWorkerStats.counter (stats : LeanWorkerStats) : LeanWorkerCounter → Nat
  | .requests => stats.requests
  | .imports => stats.imports
  | .importLikeAdmissionAttempts => stats.importLikeAdmissionAttempts
  | .importLikeAdmitted => stats.importLikeAdmitted
  | .exits => stats.exits
  | .restarts => stats.restarts
  | .explicitCycles => stats.explicitCycles
  | .maxRequestRestarts => stats.maxRequestRestarts
  | .maxImportRestarts => stats.maxImportRestarts
  | .importResidueRestarts => stats.importResidueRestarts
  | .importStatsUnusable => stats.importStatsUnusable
  | .rssRestarts => stats.rssRestarts
  | .idleRestarts => stats.idleRestarts
  | .cancelledRestarts => stats.cancelledRestarts
  | .timeoutRestarts => stats.timeoutRestarts
  | .rssSamplesUnavailable => stats.rssSamplesUnavailable
  | .replacementAttempts => stats.replacementAttempts
  | .replacementSuccesses => stats.replacementSuccesses
  | .replacementFailures => stats.replacementFailures
  | .replacementBudgetAdmitted => stats.replacementBudgetAdmitted
  | .replacementBudgetSkipped => stats.replacementBudgetSkipped
  | .streamRequests => stats.streamRequests
  | .streamSuccesses => stats.streamSuccesses
  | .streamFailures => stats.streamFailures
  | .dataRowsDelivered => stats.dataRowsDelivered
  | .dataRowPayloadBytes => stats.dataRowPayloadBytes
  | .backpressureWaits => stats.backpressureWaits
  | .backpressureFailures => stats.backpressureFailures

/-- No counter has gone back, and neither has the time that streams have taken. -/
structure LeanWorkerStats.Grows (before after : LeanWorkerStats) : Prop where
  counter : ∀ c, before.counter c ≤ after.counter c
  streamElapsed : before.streamElapsed ≤ after.streamElapsed

/-- A saturating counter that fits its type rises, and fits it still. -/
def Rises (n m : Nat) : Prop := n ≤ u64Max → n ≤ m ∧ m ≤ u64Max

@[simp] theorem Rises.refl (n : Nat) : Rises n n := fun fits => ⟨Nat.le_refl n, fits⟩

theorem Rises.trans {n m k : Nat} (first : Rises n m) (second : Rises m k) : Rises n k := by
  intro fits
  obtain ⟨up, fits'⟩ := first fits
  obtain ⟨up', fits''⟩ := second fits'
  exact ⟨Nat.le_trans up up', fits''⟩

@[simp] theorem Rises.saturatingAdd (n k : Nat) : Rises n (saturatingAdd n k) :=
  fun fits => ⟨le_saturatingAdd n k fits, saturatingAdd_le_max n k⟩

namespace LeanWorkerStats

structure Rising (before after : LeanWorkerStats) : Prop where
  counter : ∀ c, Rises (before.counter c) (after.counter c)
  streamElapsed : after.streamElapsed = before.streamElapsed

namespace Rising

variable {before between after : LeanWorkerStats} (stats : LeanWorkerStats)

theorem refl : stats.Rising stats where
  counter _ := .refl _
  streamElapsed := rfl

theorem trans (first : before.Rising between) (second : between.Rising after) :
    before.Rising after where
  counter c := (first.counter c).trans (second.counter c)
  streamElapsed := second.streamElapsed.trans first.streamElapsed

theorem grows (rising : before.Rising after) (fits : ∀ c, before.counter c ≤ u64Max) :
    before.Grows after where
  counter c := (rising.counter c (fits c)).1
  streamElapsed := Nat.le_of_eq rising.streamElapsed.symm

theorem attempted : stats.Rising stats.attempted where
  counter c := by cases c <;> first | exact .saturatingAdd _ _ | exact .refl _
  streamElapsed := rfl

theorem failedBecause (reason : String) : stats.Rising (stats.failedBecause reason) where
  counter c := by cases c <;> first | exact .saturatingAdd _ _ | exact .refl _
  streamElapsed := rfl

theorem budgetSkipped : stats.Rising stats.budgetSkipped where
  counter c := by cases c <;> first | exact .saturatingAdd _ _ | exact .refl _
  streamElapsed := rfl

theorem budgetAdmitted : stats.Rising stats.budgetAdmitted where
  counter c := by cases c <;> first | exact .saturatingAdd _ _ | exact .refl _
  streamElapsed := rfl

theorem recordRestart (reason : LeanWorkerRestartReason) :
    stats.Rising (stats.recordRestart reason) where
  counter c := by cases reason <;> cases c <;> first | exact .saturatingAdd _ _ | exact .refl _
  streamElapsed := by cases reason <;> rfl

theorem replaced (spawnHandshake total : Duration) :
    stats.Rising (stats.replaced spawnHandshake total) where
  counter c := by cases c <;> first | exact .saturatingAdd _ _ | exact .refl _
  streamElapsed := rfl

theorem exited : stats.Rising { stats with exits := saturatingAdd stats.exits 1 } where
  counter c := by cases c <;> first | exact .saturatingAdd _ _ | exact .refl _
  streamElapsed := rfl

end Rising

end LeanWorkerStats

/-- From one world to the other the counters of the worker have risen. -/
def Rising (s t : World) : Prop := s.worker.stats.Rising t.worker.stats

theorem count_rising (f : LeanWorkerStats → LeanWorkerStats)
    (rises : ∀ stats : LeanWorkerStats, stats.Rising (f stats)) : Moves Rising (count f) :=
  fun s => rises s.worker.stats

instance : Stoppable Rising where
  refl s := .refl s.worker.stats
  trans _ _ _ first second := first.trans second
  settle _ same := fun s => by
    unfold Rising
    rw [modify_apply, Outcome.state_returned, (same s.worker).2]
    exact .refl _
  reap _ := fun s => .exited s.worker.stats
  emit _ _ := fun s => .refl s.worker.stats

theorem spawn_rising (config : LeanWorkerConfig) (answer : SpawnAnswer) :
    Moves Rising (spawn config answer) := by
  intro s
  unfold Rising
  rw [spawn_worker]
  exact .refl _

theorem spawnReplacement_rising (config : LeanWorkerConfig) (reason : LeanWorkerRestartReason)
    (a : RestartAnswers) : Moves Rising (spawnReplacement config reason a) := by
  have counted : Moves Rising (count fun stats => stats.budgetAdmitted.recordRestart reason) :=
    count_rising _ fun stats => .trans (.budgetAdmitted stats) (.recordRestart _ reason)
  refine .bind counted fun _ => .bind (fun s => .refl s.worker.stats) fun _ =>
    .bind (.capture (spawn_rising config a.spawn)) fun spawned => ?_
  cases spawned with
  | error err => exact .bind (count_rising _ fun stats => .failedBecause stats _) fun _ => .raise _
  | ok next => exact fun s => .replaced s.worker.stats _ _

theorem admitRestart_rising (now : Instant) : Moves Rising (admitRestart now) :=
  .bind worker_along fun _ => .choose
    (fun _ => .bind (fun s => .refl s.worker.stats) fun _ => .raise _)
    fun _ => fun s => .refl s.worker.stats

theorem restartWithReason_rising (reason : LeanWorkerRestartReason) (a : RestartAnswers) :
    Moves Rising (restartWithReason reason a) := by
  refine .bind worker_along fun w => .bind (fun s => .refl s.worker.stats) fun _ =>
    .bind (count_rising _ .attempted) fun _ =>
    .bind (.capture (shutdownChild_along a.stop (stopIntent reason))) fun stopped => ?_
  cases stopped with
  | error err => exact .bind (count_rising _ fun stats => .failedBecause stats _) fun _ => .raise _
  | ok report =>
    refine .bind (.capture (admitRestart_rising a.now)) fun admitted => ?_
    cases admitted with
    | error err =>
      exact .bind (count_rising _ fun stats => .trans (.budgetSkipped stats)
        (.failedBecause _ _)) fun _ => .raise _
    | ok _ => exact spawnReplacement_rising w.config reason a

/-- In every state of every run the attempts are the successes and the failures, until they reach
the bound of their counter; and no counter that fits its type goes back over a restart, whichever
way that ends and wherever it starts. -/
theorem replacements_account :
    (∀ (config : LeanWorkerConfig) (pid : Nat) (stderr : Bool) (elapsed : Duration)
      (now : Instant) (ops : List Op) (w : LeanWorker),
      Runs.run operate (.fresh config pid stderr elapsed now) ops = some w →
        w.stats.replacementAttempts < u64Max →
          w.stats.replacementAttempts =
            w.stats.replacementSuccesses + w.stats.replacementFailures) ∧
      ∀ (s : World) (reason : LeanWorkerRestartReason) (a : RestartAnswers),
        (∀ c, s.worker.stats.counter c ≤ u64Max) →
          s.worker.stats.Grows (restartWithReason reason a s).state.worker.stats := by
  constructor
  · intro config pid stderr elapsed now ops w reached below
    exact (reachable_outstanding config pid stderr elapsed now ops w reached).accounted below
  · intro s reason a fits
    exact (restartWithReason_rising reason a s).grows fits

/-- A cycle, a cycle whose child does not start, and one more. -/
theorem replacements_account_cycled :
    (∃ w, Runs.run operate (.spawned {}) [.cycle .smooth, .cycle .unstarted, .cycle .smooth] =
      some w ∧ w.stats.replacementAttempts = 3 ∧
        w.stats.replacementAttempts =
          w.stats.replacementSuccesses + w.stats.replacementFailures) ∧
      (LeanWorker.spawned {}).stats.Grows
        (restartWithReason .explicit .smooth ⟨.spawned {}, []⟩).state.worker.stats := by
  refine ⟨⟨_, rfl, rfl, replacements_account.1 { executable := ⟨[]⟩ } 1 true 0 0
    [.cycle .smooth, .cycle .unstarted, .cycle .smooth] _ rfl (by decide)⟩,
    replacements_account.2 ⟨.spawned {}, []⟩ .explicit .smooth fun c => ?_⟩
  cases c <;> exact Nat.zero_le _

end LeanRs
