import LeanRs.General.Procedure
import LeanRs.General.Runs
import LeanRs.Worker.Policy
import LeanRs.Child.SessionPool

/-! The host's pool of imported environments: a bounded free list, keyed by project root, imports
and profile, and the counters that say what became of every entry. -/
namespace LeanRs.Host

open Procedures Procedure

inductive LeanSessionImportProfile where
  | exportedPublic
  | server
  | «private»
  | fullPrivateCompat
  deriving DecidableEq

structure SessionPoolKey where
  projectRoot : String
  imports : List String
  importProfile : LeanSessionImportProfile := .private
  deriving DecidableEq

structure LeanImportStats where
  directImportNames : List String := []
  effectiveModuleCount : Nat := 0
  compactedRegionCount : Nat := 0
  memoryMappedRegionCount : Nat := 0
  compactedRegionBytes : Nat := 0
  memoryMappedRegionBytes : Nat := 0
  nonMemoryMappedRegionBytes : Nat := 0
  importedConstantCount : Nat := 0
  totalImportedExtensionEntries : Nat := 0
  importLevel : String := "private"
  importAll : Bool := false
  loadExts : Bool := true
  deriving DecidableEq

def LeanImportStats.memoryDiagnostic (stats : LeanImportStats) : String :=
  s!"import_profile=level:{stats.importLevel} import_all:{stats.importAll} " ++
  s!"load_exts:{stats.loadExts} direct_import_count={stats.directImportNames.length} " ++
  "direct_imports=" ++ String.intercalate "," stats.directImportNames ++
  s!" effective_modules={stats.effectiveModuleCount} " ++
  s!"compacted_regions={stats.compactedRegionCount} " ++
  s!"memory_mapped_regions={stats.memoryMappedRegionCount} " ++
  s!"compacted_region_bytes={stats.compactedRegionBytes} " ++
  s!"memory_mapped_region_bytes={stats.memoryMappedRegionBytes} " ++
  s!"non_memory_mapped_region_bytes={stats.nonMemoryMappedRegionBytes} " ++
  s!"imported_constants={stats.importedConstantCount} " ++
  s!"extension_entries={stats.totalImportedExtensionEntries}"

structure ResourceExhaustedFacts where
  cause : String
  workEnteredLean : Bool
  currentRssKib : Option Nat
  limitKib : Option Nat
  importCount : Option Nat
  importLimit : Option Nat
  requestedImports : Option Nat
  lastImportStats : Option String
  deriving DecidableEq

inductive LeanError where
  | cancelled
  | resourceExhausted (message : String) (facts : ResourceExhaustedFacts)
  /-- From the shims, or from the import itself. -/
  | other (err : LeanRs.LeanError)
  deriving DecidableEq

abbrev Environment := Nat

structure LeanSession where
  environment : Environment
  importStats : LeanImportStats
  extensionRegistryEpoch : UInt64
  deriving DecidableEq

structure PooledEntry where
  key : SessionPoolKey
  environment : Environment
  importStats : LeanImportStats
  extensionRegistryEpoch : UInt64
  deriving DecidableEq

structure PooledSession where
  key : SessionPoolKey
  session : LeanSession
  deriving DecidableEq

inductive SessionPoolKeyMissReason where
  | emptyPool
  | reuseDisabled
  | noMatchingKey
  | staleEnvironment
  deriving DecidableEq

structure PoolStats where
  importsPerformed : Nat := 0
  reused : Nat := 0
  acquired : Nat := 0
  releasedToPool : Nat := 0
  releasedDropped : Nat := 0
  drains : Nat := 0
  drained : Nat := 0
  freshImportRefusals : Nat := 0
  rssSamples : Nat := 0
  rssSamplesUnavailable : Nat := 0
  keyHits : Nat := 0
  keyMisses : Nat := 0
  distinctKeysSeen : Nat := 0
  freshImportsAvoided : Nat := 0
  missEmptyPool : Nat := 0
  missReuseDisabled : Nat := 0
  missNoMatchingKey : Nat := 0
  missStaleEnvironment : Nat := 0
  staleEvictions : Nat := 0
  lastMissReason : Option SessionPoolKeyMissReason := none
  deriving DecidableEq

namespace PoolStats

def bumpReused (s : PoolStats) : PoolStats := { s with
  reused := saturatingAdd s.reused 1
  acquired := saturatingAdd s.acquired 1
  keyHits := saturatingAdd s.keyHits 1
  freshImportsAvoided := saturatingAdd s.freshImportsAvoided 1
  lastMissReason := none }

def bumpImported (s : PoolStats) : PoolStats := { s with
  importsPerformed := saturatingAdd s.importsPerformed 1
  acquired := saturatingAdd s.acquired 1 }

def bumpStaleEvictions (count : Nat) (s : PoolStats) : PoolStats :=
  { s with staleEvictions := saturatingAdd s.staleEvictions count }

def bumpMiss (s : PoolStats) : SessionPoolKeyMissReason → PoolStats
  | .emptyPool => { s with missEmptyPool := saturatingAdd s.missEmptyPool 1 }
  | .reuseDisabled => { s with missReuseDisabled := saturatingAdd s.missReuseDisabled 1 }
  | .noMatchingKey => { s with missNoMatchingKey := saturatingAdd s.missNoMatchingKey 1 }
  | .staleEnvironment => { s with missStaleEnvironment := saturatingAdd s.missStaleEnvironment 1 }

def bumpKeyMiss (reason : SessionPoolKeyMissReason) (s : PoolStats) : PoolStats :=
  { ({ s with keyMisses := saturatingAdd s.keyMisses 1 }).bumpMiss reason with
    lastMissReason := some reason }

def bumpFreshImportRefusal (s : PoolStats) : PoolStats :=
  { s with freshImportRefusals := saturatingAdd s.freshImportRefusals 1 }

def bumpRssSample (unavailable : Bool) (s : PoolStats) : PoolStats := { s with
  rssSamples := saturatingAdd s.rssSamples 1
  rssSamplesUnavailable :=
    if unavailable then saturatingAdd s.rssSamplesUnavailable 1 else s.rssSamplesUnavailable }

end PoolStats

structure SessionPoolMemoryPolicy where
  maxFreshImports : Option Nat := none
  maxRssKib : Option Nat := none
  deriving DecidableEq

structure SessionPoolConfig where
  capacity : Nat
  memoryPolicy : SessionPoolMemoryPolicy := {}
  deriving DecidableEq

structure SessionPool where
  config : SessionPoolConfig
  free : List PooledEntry := []
  seenKeys : List SessionPoolKey := []
  lastImportStats : Option LeanImportStats := none
  stats : PoolStats := {}
  deriving DecidableEq

/-- `PoolInner::take_matching`: the match that was released last, and what is left without it. -/
def takeMatching (key : SessionPoolKey) (free : List PooledEntry) :
    Option (PooledEntry × List PooledEntry) :=
  (free.reverse.find? fun entry => entry.key == key).map fun entry =>
    (entry, (free.reverse.eraseP fun entry => entry.key == key).reverse)

namespace SessionPool

def withConfig (config : SessionPoolConfig) : SessionPool where
  config := config

def bump (f : PoolStats → PoolStats) (p : SessionPool) : SessionPool :=
  { p with stats := f p.stats }

def rememberSeenKey (key : SessionPoolKey) (p : SessionPool) : SessionPool :=
  if p.seenKeys.all fun seen => seen != key then { p with
    seenKeys := p.seenKeys ++ [key]
    stats := { p.stats with distinctKeysSeen := min (p.seenKeys.length + 1) u64Max } }
  else p

def missReason (p : SessionPool) : SessionPoolKeyMissReason :=
  if p.config.capacity = 0 then .reuseDisabled
  else if p.free.isEmpty then .emptyPool
  else .noMatchingKey

def drain (p : SessionPool) : Nat × SessionPool :=
  (p.free.length, { p with
    free := []
    stats := { p.stats with
      drains := saturatingAdd p.stats.drains 1
      drained := saturatingAdd p.stats.drained (min p.free.length u64Max) } })

def sweepStale (live : Option UInt64) (p : SessionPool) : SessionPool :=
  let swept := { p with
    free := p.free.filter fun entry => live == some entry.extensionRegistryEpoch }
  let evicted := p.free.length - swept.free.length
  if 0 < evicted then swept.bump (.bumpStaleEvictions (min evicted u64Max)) else swept

def latestImportStatsDiagnostic (p : SessionPool) : String :=
  match p.lastImportStats with
  | none => "last_import_stats=unavailable"
  | some stats => "last_import_stats=available " ++ stats.memoryDiagnostic

def resourceRefusal (p : SessionPool) (cause message : String)
    (currentRssKib limitKib importCount importLimit : Option Nat) (requestedImports : Nat) :
    LeanError :=
  .resourceExhausted message {
    cause := cause
    workEnteredLean := false
    currentRssKib := currentRssKib
    limitKib := limitKib
    importCount := importCount
    importLimit := importLimit
    requestedImports := some requestedImports
    lastImportStats := p.lastImportStats.map LeanImportStats.memoryDiagnostic }

def importLimitRefusal (p : SessionPool) (imports limit : Nat) : LeanError :=
  p.resourceRefusal "same_process_fresh_import_limit"
    ("same-process SessionPool refused fresh import " ++
      s!"#{saturatingAdd p.stats.importsPerformed 1} " ++
      s!"for {imports} import(s): max_fresh_imports={limit}; {p.latestImportStatsDiagnostic}; " ++
      "reuse a pooled environment or cycle the worker process")
    none none (some p.stats.importsPerformed) (some limit) imports

def rssCeilingRefusal (p : SessionPool) (imports limitKib currentKib : Nat) : LeanError :=
  p.resourceRefusal "same_process_rss_ceiling"
    (s!"same-process SessionPool refused fresh import for {imports} import(s): current RSS " ++
      s!"{currentKib} KiB reached max_rss_kib={limitKib}; {p.latestImportStatsDiagnostic}; " ++
      "cycle the worker process to reset Lean process-global import state")
    (some currentKib) (some limitKib) (some p.stats.importsPerformed) none imports

def rssUnavailableRefusal (p : SessionPool) (imports limitKib : Nat) : LeanError :=
  p.resourceRefusal "same_process_rss_sample_unavailable"
    (s!"same-process SessionPool refused fresh import for {imports} import(s): current RSS " ++
      s!"sample unavailable while max_rss_kib={limitKib} is configured; " ++
      p.latestImportStatsDiagnostic)
    none (some limitKib) (some p.stats.importsPerformed) none imports

/-- `PooledSession::drop`, which hands the environment to `release`. -/
def release (returned : PooledSession) (p : SessionPool) : SessionPool :=
  if p.free.length < p.config.capacity then { p with
    free := p.free ++ [{
      key := returned.key
      environment := returned.session.environment
      importStats := returned.session.importStats
      extensionRegistryEpoch := returned.session.extensionRegistryEpoch }]
    stats := { p.stats with releasedToPool := saturatingAdd p.stats.releasedToPool 1 } }
  else p.bump fun s => { s with releasedDropped := saturatingAdd s.releasedDropped 1 }

end SessionPool

/-- The process: its pool, and the registries that every import in it may grow. -/
structure Process where
  pool : SessionPool
  registries : Registries
  checkedOut : List PooledSession := []
  /-- The imports that the pool has run, in order. -/
  imports : List SessionPoolKey := []
  deriving DecidableEq

abbrev PoolProcedure (A : Type) := Procedure Process LeanError A

/-- What the calls that leave the pool come to in one `acquire`. -/
structure AcquireAnswers where
  /-- The token, as the acquire finds it. -/
  cancelled : Bool := false
  /-- `HostShimBindings::resolve` for a pooled environment. -/
  shims : Except LeanRs.LeanError Unit := .ok ()
  /-- `current_process_rss_kib`. -/
  currentRssKib : Option Nat := none
  /-- What a fresh import registers, whether or not it succeeds. -/
  registered : Registries := ⟨0, 0, 0⟩
  imported : Except LeanError (Environment × LeanImportStats)
  deriving DecidableEq

def onPool (f : SessionPool → SessionPool) : PoolProcedure Unit :=
  update fun s => { s with pool := f s.pool }

def checkCancellation (cancelled : Bool) : PoolProcedure Unit :=
  if cancelled then raise .cancelled else pure ()

/-- The match, taken off the free list, or why there is none. -/
def takeMatched (key : SessionPoolKey) :
    PoolProcedure (Except SessionPoolKeyMissReason PooledEntry) := do
  let s ← read
  match takeMatching key s.pool.free with
  | some (entry, rest) => onPool (fun p => { p with free := rest }) >>= fun _ => pure (.ok entry)
  | none => pure (.error s.pool.missReason)

/-- `LeanSession::from_environment_with_import_stats`. -/
def fromEnvironmentWithImportStats (shims : Except LeanRs.LeanError Unit) (entry : PooledEntry) :
    PoolProcedure LeanSession :=
  match shims with
  | .ok () => pure ⟨entry.environment, entry.importStats, entry.extensionRegistryEpoch⟩
  | .error err => raise (.other err)

def confirmLive (session : LeanSession) : PoolProcedure (Option LeanSession) := do
  let s ← read
  if s.registries.extensionRegistryEpoch.toOption = some session.extensionRegistryEpoch then
    onPool (.bump .bumpReused) >>= fun _ => pure (some session)
  else
    onPool (.bump (.bumpStaleEvictions 1)) >>= fun _ =>
      onPool (.bump (.bumpKeyMiss .staleEnvironment)) >>= fun _ => pure none

def reuseMatched (shims : Except LeanRs.LeanError Unit) :
    Except SessionPoolKeyMissReason PooledEntry → PoolProcedure (Option LeanSession)
  | .ok entry => fromEnvironmentWithImportStats shims entry >>= confirmLive
  | .error reason => onPool (.bump (.bumpKeyMiss reason)) >>= fun _ => pure none

def enforceImportLimit (imports : Nat) : PoolProcedure Unit := do
  let s ← read
  match s.pool.config.memoryPolicy.maxFreshImports with
  | some limit =>
    if limit ≤ s.pool.stats.importsPerformed then
      onPool (.bump .bumpFreshImportRefusal) >>= fun _ =>
        raise (s.pool.importLimitRefusal imports limit)
    else pure ()
  | none => pure ()

def enforceRssCeiling (imports : Nat) (currentRssKib : Option Nat) : PoolProcedure Unit := do
  let s ← read
  match s.pool.config.memoryPolicy.maxRssKib, currentRssKib with
  | some limitKib, some currentKib =>
    if limitKib ≤ currentKib then
      onPool (.bump (.bumpRssSample false)) >>= fun _ =>
        onPool (.bump .bumpFreshImportRefusal) >>= fun _ =>
          raise (s.pool.rssCeilingRefusal imports limitKib currentKib)
    else onPool (.bump (.bumpRssSample false))
  | some limitKib, none =>
    onPool (.bump (.bumpRssSample true)) >>= fun _ =>
      onPool (.bump .bumpFreshImportRefusal) >>= fun _ =>
        raise (s.pool.rssUnavailableRefusal imports limitKib)
  | none, _ => pure ()

def enforceBeforeFreshImport (imports : Nat) (currentRssKib : Option Nat) :
    PoolProcedure Unit := do
  enforceImportLimit imports
  enforceRssCeiling imports currentRssKib

/-- `LeanCapabilities::session_with_profile`. The stamp is read when the import is over. -/
def sessionWithProfile (key : SessionPoolKey) (a : AcquireAnswers) :
    PoolProcedure LeanSession := do
  update fun s => { s with
    registries := s.registries.grow a.registered
    imports := s.imports ++ [key] }
  let s ← read
  match a.imported, s.registries.extensionRegistryEpoch with
  | .ok (environment, importStats), .ok epoch => pure ⟨environment, importStats, epoch⟩
  | .error err, _ => raise err
  | _, .error err => raise (.other err)

def importFresh (key : SessionPoolKey) (a : AcquireAnswers) : PoolProcedure LeanSession := do
  enforceBeforeFreshImport key.imports.length a.currentRssKib
  let session ← sessionWithProfile key a
  onPool fun p => { p with lastImportStats := some session.importStats }
  onPool (.bump .bumpImported)
  pure session

def orImport (key : SessionPoolKey) (a : AcquireAnswers) :
    Option LeanSession → PoolProcedure LeanSession
  | some session => pure session
  | none => importFresh key a

def acquireWithProfile (key : SessionPoolKey) (a : AcquireAnswers) :
    PoolProcedure PooledSession := do
  checkCancellation a.cancelled
  onPool (.rememberSeenKey key)
  let matched ← takeMatched key
  let reused ← reuseMatched a.shims matched
  let session ← orImport key a reused
  onPool (.sweepStale (some session.extensionRegistryEpoch))
  pure ⟨key, session⟩

inductive PoolAction where
  | acquire (key : SessionPoolKey) (answers : AcquireAnswers)
  | drop (index : Nat)
  | drain
  /-- Any other code of the process imports something. -/
  | elsewhere (registered : Registries)
  deriving DecidableEq

namespace Process

def new (config : SessionPoolConfig) (registries : Registries) : Process where
  pool := .withConfig config
  registries := registries

def step (s : Process) : PoolAction → Option Process
  | .acquire key a =>
    match acquireWithProfile key a s with
    | .returned session t => some { t with checkedOut := t.checkedOut ++ [session] }
    | .raised _ t => some t
    | .waiting _ => none
  | .drop index => s.checkedOut[index]?.map fun session => { s with
      pool := s.pool.release session
      checkedOut := s.checkedOut.eraseIdx index }
  | .drain => some { s with pool := s.pool.drain.2 }
  | .elsewhere registered => some { s with registries := s.registries.grow registered }

end Process

end LeanRs.Host
