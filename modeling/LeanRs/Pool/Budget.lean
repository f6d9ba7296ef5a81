import LeanRs.Pool.Accounting

/-! The memory budget of a pool, as it decides on a worker for a new key. -/
namespace LeanRs

open Procedures Procedure Supervisor

namespace LeanWorkerPool

def currentRss (pool : LeanWorkerPool) (samples : Nat → Option Nat) : List (Option Nat) :=
  pool.entries.zipIdx.map fun entry => entry.1.worker.childRssKib (samples entry.2)

/-- The last known size of each entry: the sample taken now, or else the last that there was. -/
def lastKnownRss (pool : LeanWorkerPool) (samples : Nat → Option Nat) : List (Option Nat) :=
  pool.entries.zipIdx.map fun entry =>
    (entry.1.worker.childRssKib (samples entry.2)).or entry.1.lastRssKib

def totalRss (sizes : List (Option Nat)) : Nat := (sizes.map fun size => size.getD 0).sum

theorem sampleRss_value (entry : PoolEntry) (sample : Option Nat) :
    (entry.sampleRss sample).1 = entry.worker.childRssKib sample := by
  unfold PoolEntry.sampleRss
  cases entry.worker.childRssKib sample <;> rfl

theorem refreshEntries_available (samples : Nat → Option Nat) {limit : Nat}
    (fits : limit ≤ u64Max) (entries : List PoolEntry) (index : Nat) (rss : PoolRssTotal)
    (available : ∀ size ∈ (entries.zipIdx index).map fun entry =>
      entry.1.worker.childRssKib (samples entry.2), size.isSome = true)
    (reaches : limit ≤ rss.totalKib + totalRss ((entries.zipIdx index).map fun entry =>
      entry.1.worker.childRssKib (samples entry.2))) :
    limit ≤ (refreshEntries samples index rss entries).1.totalKib ∧
      (refreshEntries samples index rss entries).1.unavailable = rss.unavailable := by
  induction entries generalizing index rss with
  | nil => exact ⟨by simpa [totalRss, refreshEntries] using reaches, rfl⟩
  | cons entry rest ih =>
    simp only [List.zipIdx_cons, List.map_cons, List.mem_cons, forall_eq_or_imp] at available
    simp only [refreshEntries, sampleRss_value]
    cases sampled : entry.worker.childRssKib (samples index) with
    | none => rw [sampled] at available; cases available.1
    | some kib =>
      refine ih (index + 1) (rss.count (some kib)) available.2 ?_
      simp only [List.zipIdx_cons, List.map_cons, sampled, totalRss, Option.getD_some,
        List.sum_cons] at reaches ⊢
      show limit ≤ min (rss.totalKib + kib) u64Max + _
      omega

theorem refreshEntries_unavailable (samples : Nat → Option Nat) (entries : List PoolEntry)
    (index : Nat) (rss : PoolRssTotal)
    (missing : 0 < rss.unavailable ∨ ∃ size ∈ (entries.zipIdx index).map fun entry =>
      entry.1.worker.childRssKib (samples entry.2), size.isSome = false) :
    0 < (refreshEntries samples index rss entries).1.unavailable := by
  induction entries generalizing index rss with
  | nil => simpa [refreshEntries] using missing
  | cons entry rest ih =>
    simp only [List.zipIdx_cons, List.map_cons, List.exists_mem_cons_iff] at missing
    simp only [refreshEntries, sampleRss_value]
    apply ih
    cases sampled : entry.worker.childRssKib (samples index) with
    | none =>
      left
      show 0 < min (rss.unavailable + 1) u64Max
      exact Nat.lt_min.mpr ⟨Nat.succ_pos _, by decide⟩
    | some kib =>
      rw [sampled] at missing
      rcases missing with before | here | later
      · exact Or.inl before
      · cases here
      · exact Or.inr later

end LeanWorkerPool

def LeanWorkerPoolError.refusesWorker : LeanWorkerPoolError → Bool
  | .workerPoolMemoryBudgetExceeded _ _ _ _ | .workerPoolExhausted _ _
  | .workerPoolQueueTimeout _ _ => true
  | _ => false

namespace LeanWorkerPool

theorem poolFullError_refuses {A : Type} (s : PoolWorld) :
    ∃ e t, (poolFullError : PoolProcedure A) s = .raised e t ∧ e.refusesWorker = true ∧
      t.effects = s.effects := by
  simp only [poolFullError, bind_apply, read_apply, Outcome.andThen_returned]
  split
  · exact ⟨_, _, rfl, rfl, rfl⟩
  · exact ⟨_, _, rfl, rfl, rfl⟩

theorem ensureSpawnWithinTotalRssBudget_refuses (rss : PoolRssTotal) (s : PoolWorld) (limit : Nat)
    (budget : s.pool.config.maxTotalChildRssKib = some limit) (available : rss.unavailable = 0)
    (reaches : limit ≤ rss.totalKib) :
    ∃ e t, ensureSpawnWithinTotalRssBudget rss s = .raised e t ∧ e.refusesWorker = true ∧
      t.effects = s.effects := by
  simp only [ensureSpawnWithinTotalRssBudget, bind_apply, read_apply, Outcome.andThen_returned,
    budget, available, Nat.lt_irrefl, if_false, reaches, if_true]
  exact ⟨_, _, rfl, rfl, rfl⟩

theorem ensureSpawnWithinTotalRssBudget_unavailable (rss : PoolRssTotal) (s : PoolWorld)
    (missing : 0 < rss.unavailable) :
    ensureSpawnWithinTotalRssBudget rss s = .returned () s := by
  simp only [ensureSpawnWithinTotalRssBudget, bind_apply, read_apply, Outcome.andThen_returned,
    missing, if_true]
  cases s.pool.config.maxTotalChildRssKib <;> rfl

end LeanWorkerPool

namespace LeanWorkerPool

theorem admitLease_miss (pool : LeanWorkerPool) (effects : List Effect)
    (key : LeanWorkerSessionKey) (samples : Nat → Option Nat)
    (fresh : ∀ entry ∈ pool.entries, (entry.key == key) = false) :
    ∃ s : PoolWorld, s.pool.config = pool.config ∧ s.effects = effects ∧
      admitLease key samples ⟨pool, effects⟩ =
        if pool.config.maxWorkers ≤ pool.entries.length then poolFullError s
        else (do
          ensureSpawnWithinTotalRssBudget (refreshEntries samples 0 ⟨0, 0⟩ pool.entries).1
          modify recordColdOpenAdmitted
          pure .openColdEntry : PoolProcedure PoolAdmissionDecision) s := by
  have absent : (pool.rememberSeenKey key).entries.findIdx? (fun entry => entry.key == key) =
      none := by
    rw [rememberSeenKey_entries]
    exact List.findIdx?_eq_none_iff.mpr fresh
  have entries : ((pool.rememberSeenKey key).recordKeyMiss.recordColdOpenAttempt).entries =
      pool.entries := by
    rw [← rememberSeenKey_entries pool key]
    unfold recordKeyMiss
    split <;> rfl
  have config : ((pool.rememberSeenKey key).recordKeyMiss.recordColdOpenAttempt).config =
      pool.config := by
    rw [← rememberSeenKey_config pool key]
    unfold recordKeyMiss
    split <;> rfl
  simp only [admitLease, bind_apply, modify_apply, read_apply, Outcome.andThen_returned, absent,
    sampleEntries_apply]
  generalize ((pool.rememberSeenKey key).recordKeyMiss.recordColdOpenAttempt) = missed
    at entries config
  have length : (missed.sampled samples).entries.length = pool.entries.length := by
    have same := congrArg List.length (sampled_tenancies missed samples)
    unfold tenancies at same
    rw [List.length_map, List.length_map] at same
    rw [same, entries]
  have config' : (missed.sampled samples).config = pool.config := config
  have rss : (missed.refreshTotalChildRss samples).1 =
      (refreshEntries samples 0 ⟨0, 0⟩ pool.entries).1 := by
    rw [← entries]
    rfl
  refine ⟨⟨missed.sampled samples, effects⟩, config', rfl, ?_⟩
  rw [config', length, rss]
  split <;> rfl

end LeanWorkerPool

/-- While every entry can be sampled, a pool at its budget starts no worker for a new key; and
while a sample is missing, a new key is admitted unless the pool is full. -/
theorem acquireLease_keeps_budget (pool : LeanWorkerPool) (effects : List Effect)
    (builder : LeanWorkerCapabilityBuilder) (a : LeanWorkerPool.AcquireAnswers) (limit : Nat)
    (budget : pool.config.maxTotalChildRssKib = some limit)
    (fresh : ∀ entry ∈ pool.entries, (entry.key == builder.sessionKey a.key) = false) :
    ((∀ size ∈ pool.currentRss a.samples, size.isSome = true) →
      limit ≤ LeanWorkerPool.totalRss (pool.currentRss a.samples) →
      ∃ e t, LeanWorkerPool.acquireLease builder a ⟨pool, effects⟩ = .raised e t ∧
        e.refusesWorker = true ∧ t.effects = effects) ∧
    ((∃ size ∈ pool.currentRss a.samples, size.isSome = false) →
      ∃ s t, LeanWorkerPool.admitLease (builder.sessionKey a.key) a.samples ⟨pool, effects⟩ =
        if pool.config.maxWorkers ≤ pool.entries.length then LeanWorkerPool.poolFullError s
        else .returned .openColdEntry t) := by
  obtain ⟨s, config, same, admits⟩ :=
    LeanWorkerPool.admitLease_miss pool effects (builder.sessionKey a.key) a.samples fresh
  have limited : s.pool.config.maxTotalChildRssKib = some limit := by rw [config, budget]
  constructor
  · intro available reaches
    have sampled := LeanWorkerPool.refreshEntries_available a.samples
      (pool.config.maxTotalChildRssKib_fits limit budget) pool.entries 0 ⟨0, 0⟩ available
      (by rw [Nat.zero_add]; exact reaches)
    simp only [LeanWorkerPool.acquireLease, bind_apply, admits]
    split
    · obtain ⟨e, t, refused, refuses, kept⟩ := LeanWorkerPool.poolFullError_refuses
        (A := PoolAdmissionDecision) s
      rw [refused]
      exact ⟨e, t, rfl, refuses, kept.trans same⟩
    · obtain ⟨e, t, refused, refuses, kept⟩ :=
        LeanWorkerPool.ensureSpawnWithinTotalRssBudget_refuses _ s limit limited sampled.2
          sampled.1
      rw [refused]
      exact ⟨e, t, rfl, refuses, kept.trans same⟩
  · intro missing
    have unavailable := LeanWorkerPool.refreshEntries_unavailable a.samples pool.entries 0 ⟨0, 0⟩
      (Or.inr missing)
    have passes := LeanWorkerPool.ensureSpawnWithinTotalRssBudget_unavailable _ s unavailable
    refine ⟨s, ⟨s.pool.recordColdOpenAdmitted, s.effects⟩, ?_⟩
    rw [admits, bind_apply, passes]
    rfl

def budgetedConfig : LeanWorkerPoolConfig where
  maxWorkers := 2
  maxTotalChildRssKib := some 100
  maxTotalChildRssKib_fits limit set := by
    have h := Option.some.inj set
    subst h
    decide

def sampledOnce : List PoolAction :=
  [.acquire (.plain "a") { LeanWorkerPool.AcquireAnswers.smooth with openedRss := some 100 }, .drop]

theorem sampled_worker_keeps_budget : ∃ s,
    Runs.run PoolState.step (.new budgetedConfig) sampledOnce = some s ∧
      ∃ e t, LeanWorkerPool.acquireLease (.plain "b")
        { LeanWorkerPool.AcquireAnswers.smooth with samples := fun _ => some 100 } ⟨s.pool, []⟩ =
          .raised e t ∧ e.refusesWorker = true ∧ t.effects = [] := by
  have atBudget : (Runs.run PoolState.step (.new budgetedConfig) sampledOnce).any (fun s =>
      s.pool.config.maxTotalChildRssKib == some 100 &&
      (s.pool.entries.all fun entry => (entry.key == (LeanWorkerCapabilityBuilder.plain
        "b").sessionKey .smooth) == false) &&
      ((s.pool.currentRss fun _ => some 100).all fun size => size.isSome) &&
      decide (100 ≤ LeanWorkerPool.totalRss (s.pool.currentRss fun _ => some 100))) = true := by
    decide +kernel
  obtain ⟨s, reached, atBudget⟩ := (Option.any_eq_true _ _).mp atBudget
  simp only [Bool.and_eq_true, List.all_eq_true, beq_iff_eq, decide_eq_true_eq] at atBudget
  obtain ⟨⟨⟨budget, fresh⟩, available⟩, reaches⟩ := atBudget
  have keeps := acquireLease_keeps_budget s.pool [] (.plain "b")
    { LeanWorkerPool.AcquireAnswers.smooth with samples := fun _ => some 100 } 100 budget fresh
  exact ⟨s, reached, keeps.1 available reaches⟩

/-- The last sample is at the budget, no sample can be taken now, and a second worker is started. -/
theorem unsampled_worker_passes_budget : ∃ s,
    Runs.run PoolState.step (.new budgetedConfig) sampledOnce = some s ∧
      LeanWorkerPool.totalRss (s.pool.lastKnownRss fun _ => none) = 100 ∧
      ∃ granted t, LeanWorkerPool.acquireLease (.plain "b") .smooth ⟨s.pool, []⟩ =
        .returned granted t ∧ .spawn ∈ t.effects := by
  have passes : (Runs.run PoolState.step (.new budgetedConfig) sampledOnce).any (fun s =>
      LeanWorkerPool.totalRss (s.pool.lastKnownRss fun _ => none) == 100 &&
        (LeanWorkerPool.acquireLease (.plain "b") .smooth ⟨s.pool, []⟩).returnsWith fun _ t =>
          t.effects.contains .spawn) = true := by decide +kernel
  obtain ⟨s, reached, passes⟩ := (Option.any_eq_true _ _).mp passes
  simp only [Bool.and_eq_true, beq_iff_eq] at passes
  obtain ⟨known, started⟩ := passes
  refine ⟨s, reached, known, ?_⟩
  cases outcome : LeanWorkerPool.acquireLease (.plain "b") .smooth ⟨s.pool, []⟩ with
  | returned granted t =>
    rw [outcome] at started
    exact ⟨granted, t, rfl, List.contains_iff_mem.mp started⟩
  | raised e t => rw [outcome] at started; cases started
  | waiting t => rw [outcome] at started; cases started

end LeanRs
