import LeanRs.Pool.Lease

/-! The pool: admission of a lease by session key, worker count and memory budget, and the runs of
a pool that one caller holds. -/
namespace LeanRs

open Procedures Procedure Supervisor

structure LeanWorkerPool where
  config : LeanWorkerPoolConfig
  entries : List PoolEntry := []
  queueTimeouts : Nat := 0
  memoryBudgetRejections : Nat := 0
  coldOpenAttempts : Nat := 0
  coldOpenAdmitted : Nat := 0
  coldOpenRefusals : Nat := 0
  keyHits : Nat := 0
  keyMisses : Nat := 0
  seenKeys : List LeanWorkerSessionKey := []
  freshColdOpensAvoided : Nat := 0
  missEmptyPool : Nat := 0
  missNoMatchingKey : Nat := 0
  lastKeyMissReason : Option String := none
  coldOpensInProgress : Nat := 0
  concurrentColdOpensObserved : Nat := 0
  rssBeforeAdmissionKib : Option Nat := none
  rssAfterOpenKib : Option Nat := none
  refusalReason : Option String := none

inductive PoolAdmissionDecision where
  | reuseWarmEntry (index : Nat)
  | openColdEntry
  deriving DecidableEq

structure PoolRssTotal where
  totalKib : Nat
  unavailable : Nat
  deriving DecidableEq

namespace PoolRssTotal

def availableTotal (rss : PoolRssTotal) : Option Nat :=
  if rss.unavailable = 0 then some rss.totalKib else none

def count (rss : PoolRssTotal) : Option Nat → PoolRssTotal
  | some kib => { rss with totalKib := saturatingAdd rss.totalKib kib }
  | none => { rss with unavailable := saturatingAdd rss.unavailable 1 }

end PoolRssTotal

/-- The loop of `refresh_total_child_rss`; the samples are those of the entries in order. -/
def refreshEntries (samples : Nat → Option Nat) :
    Nat → PoolRssTotal → List PoolEntry → PoolRssTotal × List PoolEntry
  | _, rss, [] => (rss, [])
  | index, rss, entry :: rest =>
    let (value, sampled) := entry.sampleRss (samples index)
    let (total, refreshed) := refreshEntries samples (index + 1) (rss.count value) rest
    (total, sampled :: refreshed)

namespace LeanWorkerPool

def recordColdOpenAttempt (pool : LeanWorkerPool) : LeanWorkerPool :=
  { pool with
    coldOpenAttempts := saturatingAdd pool.coldOpenAttempts 1
    refusalReason := none
    concurrentColdOpensObserved :=
      if 0 < pool.coldOpensInProgress then saturatingAdd pool.concurrentColdOpensObserved 1
      else pool.concurrentColdOpensObserved }

def recordColdOpenAdmitted (pool : LeanWorkerPool) : LeanWorkerPool :=
  { pool with
    coldOpenAdmitted := saturatingAdd pool.coldOpenAdmitted 1
    coldOpensInProgress := saturatingAdd pool.coldOpensInProgress 1 }

def recordColdOpenRefusal (pool : LeanWorkerPool) (reason : String) : LeanWorkerPool :=
  { pool with
    coldOpenRefusals := saturatingAdd pool.coldOpenRefusals 1
    refusalReason := some reason }

def rememberSeenKey (pool : LeanWorkerPool) (key : LeanWorkerSessionKey) : LeanWorkerPool :=
  if pool.seenKeys.all (fun seen => seen != key) then
    { pool with seenKeys := pool.seenKeys ++ [key] }
  else pool

def recordKeyHit (pool : LeanWorkerPool) : LeanWorkerPool :=
  { pool with
    keyHits := saturatingAdd pool.keyHits 1
    freshColdOpensAvoided := saturatingAdd pool.freshColdOpensAvoided 1
    lastKeyMissReason := none }

/-- `record_key_miss`, with the reason that the pool's emptiness gives. -/
def recordKeyMiss (pool : LeanWorkerPool) : LeanWorkerPool :=
  if pool.entries.isEmpty then
    { pool with
      keyMisses := saturatingAdd pool.keyMisses 1
      missEmptyPool := saturatingAdd pool.missEmptyPool 1
      lastKeyMissReason := some "empty_pool" }
  else
    { pool with
      keyMisses := saturatingAdd pool.keyMisses 1
      missNoMatchingKey := saturatingAdd pool.missNoMatchingKey 1
      lastKeyMissReason := some "no_matching_key" }

def finishColdOpen (pool : LeanWorkerPool) : LeanWorkerPool :=
  { pool with coldOpensInProgress := pool.coldOpensInProgress - 1 }

def refreshTotalChildRss (pool : LeanWorkerPool) (samples : Nat → Option Nat) :
    PoolRssTotal × LeanWorkerPool :=
  let (rss, entries) := refreshEntries samples 0 ⟨0, 0⟩ pool.entries
  (rss, { pool with entries := entries })

def totalKnownChildRssKib (pool : LeanWorkerPool) : Option Nat :=
  pool.entries.foldlM (fun total entry => entry.lastRssKib.map (saturatingAdd total)) 0

def latestImportStats (pool : LeanWorkerPool) : Option LeanWorkerImportStats :=
  pool.entries.findSome? fun entry => entry.worker.stats.lastImportStats

def poolResourceFacts (pool : LeanWorkerPool) (cause : String)
    (currentRssKib limitKib : Option Nat) (queueWait : Option Duration)
    (lastImportStats : Option LeanWorkerImportStats) : LeanWorkerResourceExhaustedFacts where
  cause := cause
  workEnteredChild := false
  operation := some "worker_pool_acquire_lease"
  currentRssKib := currentRssKib
  limitKib := limitKib
  importCount := none
  workerGeneration := none
  restartReason := (pool.entries.findSome? fun entry => entry.worker.stats.lastRestartReason).map
    LeanWorkerRestartReason.stableCause
  queueWaitMs := queueWait.map durationMs
  durationMs := none
  coldOpenAttempts := some pool.coldOpenAttempts
  coldOpenAdmitted := some pool.coldOpenAdmitted
  coldOpenRefusals := some pool.coldOpenRefusals
  importLikeRequests := some (pool.entries.foldl (fun total entry =>
    saturatingAdd total entry.worker.stats.importLikeAdmissionAttempts) 0)
  importLikeAdmitted := none
  lastImportStats := lastImportStats

end LeanWorkerPool

structure PoolWorld where
  pool : LeanWorkerPool
  effects : List Effect

abbrev PoolProcedure (A : Type) := Procedure PoolWorld LeanWorkerPoolError A

def PoolWorld.withEntry (s : PoolWorld) (index : Nat) (t : EntryWorld) : PoolWorld :=
  ⟨{ s.pool with entries := s.pool.entries.set index t.entry }, t.effects⟩

namespace LeanWorkerPool

def modify (f : LeanWorkerPool → LeanWorkerPool) : PoolProcedure Unit :=
  Procedure.update fun s => { s with pool := f s.pool }

/-- A step of one entry, which is there unless the pool has lost it. -/
def onEntryAt {A : Type} (index : Nat) (missing : String) (m : EntryProcedure A) :
    PoolProcedure A := do
  let s ← read
  match s.pool.entries[index]? with
  | none => raise (.entryDisappeared missing)
  | some entry =>
    focus (fun s => ⟨entry, s.effects⟩) (fun s t => s.withEntry index t) m

/-- `pool_full_error`. A pool that waits for room holds its caller for the whole timeout. -/
def poolFullError {A : Type} : PoolProcedure A := do
  let s ← read
  if s.pool.config.queueWaitTimeout = 0 then do
    modify fun pool => pool.recordColdOpenRefusal "max_workers"
    let s ← read
    raise (.workerPoolExhausted s.pool.config.maxWorkers (s.pool.poolResourceFacts
      "worker_pool_max_workers" none none none s.pool.latestImportStats))
  else do
    modify fun pool => { pool with queueTimeouts := saturatingAdd pool.queueTimeouts 1 }
    modify fun pool => pool.recordColdOpenRefusal "queue_timeout"
    let s ← read
    raise (.workerPoolQueueTimeout s.pool.config.queueWaitTimeout (s.pool.poolResourceFacts
      "worker_pool_queue_timeout" none none (some s.pool.config.queueWaitTimeout)
      s.pool.latestImportStats))

/-- `ensure_spawn_within_total_rss_budget`: a sample that is missing decides nothing. -/
def ensureSpawnWithinTotalRssBudget (rss : PoolRssTotal) : PoolProcedure Unit := do
  let s ← read
  match s.pool.config.maxTotalChildRssKib with
  | none => pure ()
  | some limitKib =>
    if 0 < rss.unavailable then pure ()
    else if limitKib ≤ rss.totalKib then do
      modify fun pool => { pool with
        memoryBudgetRejections := saturatingAdd pool.memoryBudgetRejections 1 }
      modify fun pool => pool.recordColdOpenRefusal "rss_budget"
      let s ← read
      raise (.workerPoolMemoryBudgetExceeded rss.totalKib limitKib s.pool.latestImportStats
        (s.pool.poolResourceFacts "worker_pool_total_rss_budget" (some rss.totalKib)
          (some limitKib) none s.pool.latestImportStats))
    else pure ()

def sampleEntries (samples : Nat → Option Nat) : PoolProcedure PoolRssTotal := do
  let s ← read
  let (rss, pool) := s.pool.refreshTotalChildRss samples
  modify fun _ => { pool with rssBeforeAdmissionKib := rss.availableTotal }
  pure rss

def admitLease (key : LeanWorkerSessionKey) (samples : Nat → Option Nat) :
    PoolProcedure PoolAdmissionDecision := do
  modify fun pool => pool.rememberSeenKey key
  let s ← read
  match s.pool.entries.findIdx? (fun entry => entry.key == key) with
  | some index => do
    modify recordKeyHit
    pure (.reuseWarmEntry index)
  | none => do
    modify fun pool => pool.recordKeyMiss.recordColdOpenAttempt
    let rss ← sampleEntries samples
    let s ← read
    if s.pool.config.maxWorkers ≤ s.pool.entries.length then poolFullError
    else do
      ensureSpawnWithinTotalRssBudget rss
      modify recordColdOpenAdmitted
      pure .openColdEntry

structure AcquireAnswers where
  key : KeyAnswers
  samples : Nat → Option Nat
  status : TryWait
  reopened : OpenCapabilityAnswers
  reopenedAt : Instant
  policy : PoolEntry.PolicyAnswers
  opened : OpenCapabilityAnswers
  openedAt : Instant
  openedRss : Option Nat

/-- A capability is opened beside whatever the entry or the pool holds. -/
def opening {S : Type} (effects : S → List Effect) (withEffects : S → List Effect → S)
    (builder : LeanWorkerCapabilityBuilder) (a : OpenCapabilityAnswers) :
    Procedure S LeanWorkerPoolError LeanWorkerCapability :=
  focus effects withEffects (builder.openCapability a)

/-- `ensure_entry_running`: a capability whose worker has exited is replaced in place. -/
def ensureEntryRunning (index : Nat) (a : AcquireAnswers) : PoolProcedure Unit :=
  onEntryAt index "worker pool entry disappeared during liveness check" do
    match ← PoolEntry.onWorker (supervised (LeanRs.status a.status)) with
    | .running => pure ()
    | .exited _ => do
      let s ← read
      let capability ← opening EntryWorld.effects (fun s effects => { s with effects := effects })
        s.entry.builder a.reopened
      PoolEntry.modify fun entry => { entry with
        capability := capability, lastActivity := a.reopenedAt }

def enforceEntryPolicyBeforeAssignment (index : Nat) (a : PoolEntry.PolicyAnswers) :
    PoolProcedure Unit := do
  let s ← read
  let _ ← onEntryAt index "worker pool entry disappeared during policy check"
    (PoolEntry.enforcePolicy s.pool.config a)
  pure ()

def grantAt (index : Nat) (missing : String) : PoolProcedure (Nat × LeanWorkerSessionLease) := do
  let s ← read
  match s.pool.entries[index]? with
  | none => raise (.entryDisappeared missing)
  | some entry => do
    let (leased, lease) := grantLease s.pool.config entry
    modify fun pool => { pool with entries := pool.entries.set index leased }
    pure (index, lease)

def newEntry (key : LeanWorkerSessionKey) (builder : LeanWorkerCapabilityBuilder)
    (capability : LeanWorkerCapability) (now : Instant) : PoolEntry where
  key := key
  builder := builder
  capability := capability
  baseRequestTimeout := builder.poolRequestTimeout
  lastRssKib := none
  rssSamplesUnavailable := 0
  lastActivity := now
  lastRestartReason := none
  policyRestarts := 0
  activeLeases := 0
  commandsSinceOpen := 0

/-- The rest of `acquire_lease` once a new worker has been admitted. -/
def openColdEntry (key : LeanWorkerSessionKey) (builder : LeanWorkerCapabilityBuilder)
    (a : AcquireAnswers) : PoolProcedure (Nat × LeanWorkerSessionLease) := do
  match ← capture (opening PoolWorld.effects (fun s effects => { s with effects := effects })
    builder a.opened) with
  | .error err => do
    modify finishColdOpen
    raise err
  | .ok capability => do
    modify finishColdOpen
    let entry := ((newEntry key builder capability a.openedAt).sampleRss a.openedRss).2
    modify fun pool => { pool with entries := pool.entries ++ [entry] }
    modify fun pool => { pool with rssAfterOpenKib := pool.totalKnownChildRssKib }
    let s ← read
    grantAt (s.pool.entries.length - 1) "worker pool failed to retain newly opened entry"

def acquireLease (builder : LeanWorkerCapabilityBuilder) (a : AcquireAnswers) :
    PoolProcedure (Nat × LeanWorkerSessionLease) := do
  let key := builder.sessionKey a.key
  match ← admitLease key a.samples with
  | .reuseWarmEntry index => do
    ensureEntryRunning index a
    enforceEntryPolicyBeforeAssignment index a.policy
    grantAt index "worker pool entry disappeared during lease acquisition"
  | .openColdEntry => openColdEntry key builder a

end LeanWorkerPool

/-- A pool with the lease that is out. A lease borrows the pool, so there is at most one. -/
structure PoolState where
  pool : LeanWorkerPool
  outstanding : Option (Nat × LeanWorkerSessionLease)

inductive PoolAction where
  | acquire (builder : LeanWorkerCapabilityBuilder) (a : LeanWorkerPool.AcquireAnswers)
  | lease (op : LeaseOp)
  | release
  | drop

def PoolAction.acquires : PoolAction → Bool
  | .acquire _ _ => true
  | _ => false

namespace PoolState

def new (config : LeanWorkerPoolConfig) : PoolState := ⟨{ config := config }, none⟩

/-- A procedure of the lease that is out, with the entry that it borrows. -/
def onLease (s : PoolState) (m : LeaseProcedure Unit) : Option PoolState :=
  s.outstanding.bind fun held =>
    s.pool.entries[held.1]?.bind fun entry =>
      (m ⟨entry, held.2, []⟩).ended.map fun t =>
        ⟨{ s.pool with entries := s.pool.entries.set held.1 t.entry }, some (held.1, t.lease)⟩

def returned (s : PoolState) : PoolState := { s with outstanding := none }

def step (s : PoolState) : PoolAction → Option PoolState
  | .acquire builder a =>
    if s.outstanding.isSome then none
    else match LeanWorkerPool.acquireLease builder a ⟨s.pool, []⟩ with
      | .returned granted t => some ⟨t.pool, some granted⟩
      | .raised _ t => some ⟨t.pool, none⟩
      | .waiting _ => none
  | .lease op => s.onLease op.perform
  | .release => (s.onLease LeanWorkerSessionLease.release).map returned
  | .drop => (s.onLease LeanWorkerSessionLease.releaseOnce).map returned

end PoolState

def KeyAnswers.smooth : KeyAnswers where
  canonicalize _ := none
  current := ⟨"", "", "", "", ""⟩

def LeanWorkerCapabilityBuilder.plain (libName : String) : LeanWorkerCapabilityBuilder where
  projectRoot := ⟨[]⟩
  package := ""
  libName := libName
  imports := []

def OpenCapabilityAnswers.smooth : OpenCapabilityAnswers where
  bootstrap := none
  build := .ok ⟨[]⟩
  fromManifest := .ok ()
  manifestExports := []
  workerChild := .ok ⟨⟨[]⟩, ⟨[]⟩⟩
  loadElapsed := 0
  key := .smooth
  spawn := .ready 1 true 0 0
  health := .smooth [.smooth (.event (.frame (.response .healthOk)) 0)]
  session := ⟨.smooth [], .smooth, 0⟩
  sessionElapsed := 0
  requestJson := .ok ""
  metadata := .smooth []
  dropped := .smooth

def PoolEntry.PolicyAnswers.smooth : PoolEntry.PolicyAnswers where
  rss := none
  idleFor := 0
  restart := .smooth
  now := 0

def LeanWorkerPool.AcquireAnswers.smooth : LeanWorkerPool.AcquireAnswers where
  key := .smooth
  samples _ := none
  status := .running
  reopened := .smooth
  reopenedAt := 0
  policy := .smooth
  opened := .smooth
  openedAt := 0
  openedRss := none

end LeanRs
