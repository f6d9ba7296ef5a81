import LeanRs.Pool.Capability
import LeanRs.Worker.Generations

/-! A leased entry of the pool: the policy that may cycle its worker before work is assigned, and
the lease that runs commands on it until a lifecycle transition invalidates it. -/
namespace LeanRs

open Procedures Procedure Supervisor

/-- The setters clamp the worker count and the two memory limits to at least one. -/
structure LeanWorkerPoolConfig where
  maxWorkers : Nat := 1
  maxTotalChildRssKib : Option Nat := none
  perWorkerRssCeilingKib : Option Nat := none
  idleCycleAfter : Option Duration := none
  queueWaitTimeout : Duration := 0
  maxWorkers_pos : 1 ≤ maxWorkers := by decide
  maxTotalChildRssKib_pos : ∀ limit, maxTotalChildRssKib = some limit → 1 ≤ limit := by
    first | exact no_limit | simp
  maxTotalChildRssKib_fits : ∀ limit, maxTotalChildRssKib = some limit → limit ≤ u64Max := by
    simp
  perWorkerRssCeilingKib_pos : ∀ limit, perWorkerRssCeilingKib = some limit → 1 ≤ limit := by
    first | exact no_limit | simp

structure PoolEntry where
  key : LeanWorkerSessionKey
  builder : LeanWorkerCapabilityBuilder
  capability : LeanWorkerCapability
  baseRequestTimeout : Duration
  lastRssKib : Option Nat
  rssSamplesUnavailable : Nat
  lastActivity : Instant
  lastRestartReason : Option LeanWorkerRestartReason
  policyRestarts : Nat
  activeLeases : Nat
  commandsSinceOpen : Nat

namespace PoolEntry

def worker (entry : PoolEntry) : LeanWorker := entry.capability.worker

def withWorker (entry : PoolEntry) (w : LeanWorker) : PoolEntry :=
  { entry with capability := { entry.capability with worker := w } }

def workerGeneration (entry : PoolEntry) : Nat := entry.worker.lifecycleSnapshot.workerGeneration

end PoolEntry

structure EntryWorld where
  entry : PoolEntry
  effects : List Effect

abbrev EntryProcedure (A : Type) := Procedure EntryWorld LeanWorkerPoolError A

def EntryWorld.world (s : EntryWorld) : World := ⟨s.entry.worker, s.effects⟩

def EntryWorld.withWorld (s : EntryWorld) (t : World) : EntryWorld :=
  ⟨s.entry.withWorker t.worker, t.effects⟩

namespace PoolEntry

def onWorker {A : Type} (m : WorkerProcedure A) : EntryProcedure A :=
  focus EntryWorld.world EntryWorld.withWorld m

def modify (f : PoolEntry → PoolEntry) : EntryProcedure Unit :=
  Procedure.update fun s => { s with entry := f s.entry }

def sampleRss (entry : PoolEntry) (sample : Option Nat) : Option Nat × PoolEntry :=
  let value := entry.worker.childRssKib sample
  let sampled := entry.withWorker (entry.worker.counted fun stats => stats.rssSampled value)
  match value with
  | some kib => (some kib, { sampled with lastRssKib := some kib })
  | none => (none, { sampled with
      rssSamplesUnavailable := saturatingAdd entry.rssSamplesUnavailable 1 })

theorem sampleRss_rssKib (entry : PoolEntry) (sample : Option Nat) (effects : List Effect) :
    rssKib sample ⟨entry.worker, effects⟩ =
      .returned (entry.sampleRss sample).1 ⟨(entry.sampleRss sample).2.worker, effects⟩ := by
  unfold sampleRss
  cases h : entry.worker.childRssKib sample <;> simp [rssKib, h] <;> rfl

/-- What one policy check meets. At most one of its two causes cycles the worker. -/
structure PolicyAnswers where
  rss : Option Nat
  idleFor : Duration
  restart : RestartAnswers
  now : Instant

def cycleForPolicy (reason : LeanWorkerRestartReason) (a : PolicyAnswers) :
    EntryProcedure Unit := do
  onWorker (supervised (restartWithReason reason a.restart))
  modify fun entry => { entry with
    lastRestartReason := some reason
    lastActivity := a.now
    lastRssKib := none
    policyRestarts := saturatingAdd entry.policyRestarts 1
    commandsSinceOpen := 0 }

/-- The sample of the worker when it has reached the ceiling, with the ceiling. -/
def ceilingReached (config : LeanWorkerPoolConfig) (sample : Option Nat) :
    EntryProcedure (Option (Nat × Nat)) :=
  match config.perWorkerRssCeilingKib with
  | none => pure none
  | some limitKib => do
    let s ← read
    let (value, sampled) := s.entry.sampleRss sample
    modify fun _ => sampled
    pure ((value.filter fun currentKib => limitKib ≤ currentKib).map fun currentKib =>
      (currentKib, limitKib))

def enforcePolicy (config : LeanWorkerPoolConfig) (a : PolicyAnswers) :
    EntryProcedure (Option LeaseReason) := do
  match ← ceilingReached config a.rss with
  | some (currentKib, limitKib) => do
    let s ← read
    cycleForPolicy (.rssCeiling currentKib limitKib s.entry.worker.stats.lastImportStats) a
    pure (some (.memoryPolicy currentKib limitKib))
  | none =>
    match config.idleCycleAfter with
    | none => pure none
    | some limit =>
      if limit ≤ a.idleFor then do
        cycleForPolicy (.idle a.idleFor limit) a
        pure (some (.idlePolicy a.idleFor limit))
      else pure none

end PoolEntry

structure LeanWorkerSessionLease where
  config : LeanWorkerPoolConfig
  valid : Bool
  invalidationReason : Option LeaseReason
  requestTimeoutOverride : Option Duration
  admittedGeneration : Nat
  released : Bool

def grantLease (config : LeanWorkerPoolConfig) (entry : PoolEntry) :
    PoolEntry × LeanWorkerSessionLease :=
  ({ entry with activeLeases := saturatingAdd entry.activeLeases 1 },
    { config := config, valid := true, invalidationReason := none, requestTimeoutOverride := none
      admittedGeneration := entry.workerGeneration, released := false })

structure LeaseWorld where
  entry : PoolEntry
  lease : LeanWorkerSessionLease
  effects : List Effect

abbrev LeaseProcedure (A : Type) := Procedure LeaseWorld LeanWorkerPoolError A

namespace LeanWorkerSessionLease

def isValid (lease : LeanWorkerSessionLease) : Bool := lease.valid

/-- What `ensure_valid` has against the lease, on a worker of generation `current`. -/
def refusal (lease : LeanWorkerSessionLease) (current : Nat) : Option LeaseReason :=
  if !lease.valid then some (lease.invalidationReason.getD .unspecified)
  else if current ≠ lease.admittedGeneration then
    some (.generationChanged lease.admittedGeneration current)
  else none

def onEntry {A : Type} (m : EntryProcedure A) : LeaseProcedure A :=
  focus (fun s => ⟨s.entry, s.effects⟩) (fun s t => ⟨t.entry, s.lease, t.effects⟩) m

def modify (f : LeanWorkerSessionLease → LeanWorkerSessionLease) : LeaseProcedure Unit :=
  Procedure.update fun s => { s with lease := f s.lease }

def ensureValid : LeaseProcedure Unit := do
  let s ← read
  match s.lease.refusal s.entry.workerGeneration with
  | some reason => raise (.leaseInvalidated reason)
  | none => pure ()

def invalidate (reason : LeaseReason) : LeaseProcedure Unit :=
  modify fun lease => { lease with valid := false, invalidationReason := some reason }

def enforcePolicyBeforeRequest (a : PoolEntry.PolicyAnswers) : LeaseProcedure Unit := do
  let s ← read
  match ← onEntry (PoolEntry.enforcePolicy s.lease.config a) with
  | some reason => do
    invalidate reason
    raise (.leaseInvalidated reason)
  | none => pure ()

/-- `invalidates_lease` with `invalidation_reason`: the errors that invalidate a lease, and what it
is then said to be invalid for. -/
def invalidatedBy : LeanWorkerPoolError → Option LeaseReason
  | .session (.supervisor (.cancelled operation _)) => some (.cancelledDuring operation)
  | .session (.supervisor (.timeout operation _ _)) => some (.timedOutDuring operation)
  | .session (.supervisor (.restartLimitExceeded _ _)) => some .restartLimitExceeded
  | .session (.supervisor (.childExited _)) => some .childExited
  | .session (.supervisor (.childPanicOrAbort _)) => some .childExitedFatally
  | .capabilityMetadataMismatch exportName _ _ => some (.metadataMismatch exportName)
  | _ => none

def workerSessionMissing : LeanWorkerPoolError → Bool
  | .session (.supervisor (.worker code _)) => code == "lean_rs.worker.session_missing"
  | _ => false

/-- The timeout of the entry is put back when the lease has one of its own. -/
def restoreTimeout : LeaseProcedure Unit := do
  let s ← read
  if s.lease.requestTimeoutOverride.isSome then
    onEntry (PoolEntry.onWorker (supervised (LeanRs.setRequestTimeout s.entry.baseRequestTimeout)))
  else pure ()

def invalidateFor (err : LeanWorkerPoolError) : LeaseProcedure Unit :=
  match invalidatedBy err with
  | some reason => invalidate reason
  | none => pure ()

def mapLifecycleResult {A : Type} (now : Instant) (result : Except LeanWorkerPoolError A) :
    LeaseProcedure A := do
  restoreTimeout
  onEntry (PoolEntry.modify fun entry => { entry with lastActivity := now })
  match result with
  | .ok value => pure value
  | .error err => do
    invalidateFor err
    raise err

def useTimeout : Option Duration → WorkerProcedure Unit
  | some timeout => supervised (LeanRs.setRequestTimeout timeout)
  | none => pure ()

def attached {A : Type} (requestTimeout : Option Duration) (command : SessionProcedure A) :
    WorkerProcedure A := do
  useTimeout requestTimeout
  focus (fun world => ⟨world, true⟩) (fun _ session => session.world) (mapError .session command)

structure CommandAnswers where
  policy : PoolEntry.PolicyAnswers
  /-- The session that is opened when the child has none. -/
  reopening : OpenAnswers
  elapsed : Duration
  now : Instant

/-- The command is run again, on a session that is opened for it, when the child says that it has
none. -/
def retried {A : Type} (progress : Bool) (a : CommandAnswers) (again : SessionProcedure A) :
    Except LeanWorkerPoolError A → LeaseProcedure (Except LeanWorkerPoolError A)
  | .ok value => pure (.ok value)
  | .error err => do
    let s ← read
    if workerSessionMissing err then
      capture (onEntry (PoolEntry.onWorker do
        supervised (openWorkerSession s.entry.capability.sessionConfig progress a.reopening)
        attached s.lease.requestTimeoutOverride again))
    else pure (.error err)

/-- `run_with_current_session`. The two runs of the command need not meet the same answers. -/
def runWithCurrentSession {A : Type} (progress : Bool) (a : CommandAnswers)
    (command again : SessionProcedure A) : LeaseProcedure A := do
  ensureValid
  enforcePolicyBeforeRequest a.policy
  let s ← read
  let first ← capture (onEntry (PoolEntry.onWorker
    (attached s.lease.requestTimeoutOverride command)))
  let result ← retried progress a again first
  onEntry (PoolEntry.onWorker (supervised
    (recordCommandTiming (s.entry.commandsSinceOpen == 0) a.elapsed)))
  onEntry (PoolEntry.modify fun entry => { entry with
    commandsSinceOpen := saturatingAdd entry.commandsSinceOpen 1 })
  mapLifecycleResult a.now result

inductive LeaseCommand where
  | runJsonCommand (exportName : String) (requestJson : Except String JsonText)
      (decode : JsonText → Except String Unit)
  | runStreamingCommand (exportName : String) (requestValue : Except String Unit)
      (requestJson : Except String JsonText)
      (decodeRow decodeSummary : JsonText → Except String Unit) (diagnostics : Bool)
  | processModuleQueryBatch (truncate : String → String) (source : String)
      (selectors : List (String × JsonText)) (budgets options : JsonText)

/-- What one run of the command meets. Only a batch recovers from a child that aborts. -/
structure RunAnswers where
  request : RequestAnswers
  recover : RestartAnswers

def LeaseCommand.call (progress : Bool) (a : RunAnswers) : LeaseCommand → SessionCall
  | .runJsonCommand exportName requestJson decode =>
    .runJsonCommand exportName requestJson decode progress a.request
  | .runStreamingCommand exportName requestValue requestJson decodeRow decodeSummary diagnostics =>
    .runStreamingCommand exportName requestValue requestJson decodeRow decodeSummary diagnostics
      progress a.request
  | .processModuleQueryBatch truncate source selectors budgets options =>
    .request (.processModuleQueryBatch progress truncate source selectors budgets options a.request
      a.recover) rfl

def cycle (a : RestartAnswers) : LeaseProcedure Unit := do
  ensureValid
  onEntry (PoolEntry.onWorker (supervised (LeanRs.cycle a)))
  invalidate .explicitCycle

def setRequestTimeout (timeout : Duration) : LeaseProcedure Unit := do
  ensureValid
  modify fun lease => { lease with requestTimeoutOverride := some timeout }

def releaseOnce : LeaseProcedure Unit := do
  let s ← read
  if s.lease.released then pure ()
  else do
    onEntry (PoolEntry.modify fun entry => { entry with activeLeases := entry.activeLeases - 1 })
    modify fun lease => { lease with released := true }

/-- `release`: the lease is dropped at the end of it, and so released a second time. -/
def release : LeaseProcedure Unit := do
  releaseOnce
  releaseOnce

end LeanWorkerSessionLease

inductive LeaseOp where
  | cycle (a : RestartAnswers)
  | setRequestTimeout (timeout : Duration)
  | run (command : LeanWorkerSessionLease.LeaseCommand) (progress : Bool)
      (a : LeanWorkerSessionLease.CommandAnswers)
      (first second : LeanWorkerSessionLease.RunAnswers)

def LeaseOp.perform : LeaseOp → LeaseProcedure Unit
  | .cycle a => LeanWorkerSessionLease.cycle a
  | .setRequestTimeout timeout => LeanWorkerSessionLease.setRequestTimeout timeout
  | .run command progress a first second =>
    LeanWorkerSessionLease.runWithCurrentSession progress a (command.call progress first).perform
      (command.call progress second).perform

end LeanRs
