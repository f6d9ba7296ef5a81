import LeanRs.General.Text
import LeanRs.Toolchain.Loader
import LeanRs.Worker.Session

/-! A capability: one worker with the session that its commands run on, how it is opened, and the
key under which an open one is found again. -/
namespace LeanRs

open Procedures Procedure Supervisor

inductive LeanWorkerRestartPolicyClass where
  | default
  | custom
  deriving DecidableEq

structure LeanWorkerMetadataExpectationKey where
  exportName : String
  request : JsonText
  expected : Option JsonText
  deriving DecidableEq

structure LeanWorkerSessionKey where
  projectRoot : PathBuf
  importWorkspaceRoot : PathBuf
  builtManifestPath : Option PathBuf
  package : String
  libName : String
  imports : List String
  importProfile : LeanWorkerSessionImportProfile
  metadataExpectation : Option LeanWorkerMetadataExpectationKey
  toolchainFingerprint : ToolchainFingerprint
  restartPolicyClass : LeanWorkerRestartPolicyClass

instance : BEq LeanWorkerSessionKey where
  beq k l := k.projectRoot == l.projectRoot && k.importWorkspaceRoot == l.importWorkspaceRoot &&
    k.builtManifestPath == l.builtManifestPath && k.package == l.package &&
    k.libName == l.libName && k.imports == l.imports && k.importProfile == l.importProfile &&
    k.metadataExpectation == l.metadataExpectation &&
    k.toolchainFingerprint == l.toolchainFingerprint &&
    k.restartPolicyClass == l.restartPolicyClass

instance : ReflBEq PathBuf where
  rfl {p} := by
    show (p.hasRoot == p.hasRoot && p.components == p.components) = true
    rw [beq_self_eq_true, beq_self_eq_true]
    rfl

instance : ReflBEq LeanWorkerSessionKey where
  rfl {key} := by
    unfold BEq.beq instBEqLeanWorkerSessionKey
    simp only [beq_self_eq_true, Bool.and_self]

namespace WorkerExports

def ownedObjectArg : LeanExportArgAbi := ⟨.leanObject, .owned⟩

def scalarArg (repr : LeanExportAbiRepr) : LeanExportArgAbi := ⟨repr, .none⟩

def returnOwnership : LeanExportAbiRepr → LeanExportOwnership
  | .leanObject => .owned
  | _ => .none

def ioReturn (repr : LeanExportAbiRepr) : LeanExportReturnAbi :=
  ⟨repr, returnOwnership repr, .ioResult⟩

def stringIoSignature (symbol : String) : LeanExportSignature :=
  .function symbol [ownedObjectArg] (ioReturn .leanObject)

def metadataSignature (symbol : String) : LeanExportSignature := stringIoSignature symbol

def doctorSignature (symbol : String) : LeanExportSignature := stringIoSignature symbol

def jsonCommandSignature (symbol : String) : LeanExportSignature := stringIoSignature symbol

def streamingCommandSignature (symbol : String) : LeanExportSignature :=
  .function symbol [ownedObjectArg, scalarArg .usize, scalarArg .usize] (ioReturn .leanObject)

end WorkerExports

structure CapabilityMetadataCheck where
  exportName : String
  request : JsonText
  expected : Option JsonText
  deriving DecidableEq

structure LeanWorkerModuleCacheLimits where
  maxEntries : Option Nat := none
  ttlMillis : Option Nat := none
  maxBytes : Option Nat := none
  rssGuardKib : Option Nat := none
  verifyRssTaintKib : Option Nat := none

theorem no_symbols : (([] : List LeanExportSignature).map LeanExportSignature.symbol).Nodup :=
  List.nodup_nil

/-- Signatures are only added under a new symbol. -/
structure LeanWorkerCapabilityBuilder where
  projectRoot : PathBuf
  importWorkspaceRoot : Option PathBuf := none
  package : String
  libName : String
  imports : List String
  importProfile : LeanWorkerSessionImportProfile := default
  builtManifestPath : Option PathBuf := none
  startupTimeout : Option Duration := none
  requestTimeout : Option Duration := none
  shutdownTimeout : Option Duration := none
  restartPolicy : Option LeanWorkerRestartPolicy := none
  sessionPoolCapacity : Option Nat := none
  rssHardLimit : Option (Nat × Duration) := none
  metadataCheck : Option CapabilityMetadataCheck := none
  maxFrameBytes : Option Nat := none
  builtDylibPath : Option PathBuf := none
  moduleCacheLimits : Option LeanWorkerModuleCacheLimits := none
  numThreads : Option Nat := none
  leanMaxMemoryKib : Option Nat := none
  workerExportSignatures : List LeanExportSignature := []
  distinctSymbols : (workerExportSignatures.map LeanExportSignature.symbol).Nodup := by
    exact no_symbols

/-- What the file system and the build say while a key is computed. -/
structure KeyAnswers where
  canonicalize : PathBuf → Option PathBuf
  current : ToolchainFingerprint

/-- A path that cannot be resolved is used as it was given. -/
def KeyAnswers.normalizeImportWorkspaceRoot (a : KeyAnswers) (path : PathBuf) : PathBuf :=
  (a.canonicalize path).getD path

structure WorkerChild where
  executable : PathBuf
  leanSysroot : PathBuf

namespace LeanWorkerCapabilityBuilder

variable (builder : LeanWorkerCapabilityBuilder)

def effectiveImportWorkspaceRoot (a : KeyAnswers) : PathBuf :=
  builder.importWorkspaceRoot.getD (a.normalizeImportWorkspaceRoot builder.projectRoot)

def restartPolicyClass : LeanWorkerRestartPolicyClass :=
  if builder.sessionPoolCapacity.isSome then .custom
  else if builder.restartPolicy.getD {} = {} then .default else .custom

def sessionKey (a : KeyAnswers) : LeanWorkerSessionKey where
  projectRoot := a.normalizeImportWorkspaceRoot builder.projectRoot
  importWorkspaceRoot := a.normalizeImportWorkspaceRoot (builder.effectiveImportWorkspaceRoot a)
  builtManifestPath := builder.builtManifestPath.map a.normalizeImportWorkspaceRoot
  package := builder.package
  libName := builder.libName
  imports := builder.imports
  importProfile := builder.importProfile
  metadataExpectation := builder.metadataCheck.map fun check =>
    ⟨check.exportName, check.request, check.expected⟩
  toolchainFingerprint := a.current
  restartPolicyClass := builder.restartPolicyClass

def addWorkerExportSignature (signature : LeanExportSignature) : LeanWorkerCapabilityBuilder :=
  if new : ∀ existing ∈ builder.workerExportSignatures, existing.symbol ≠ signature.symbol then
    { builder with
      workerExportSignatures := builder.workerExportSignatures ++ [signature]
      distinctSymbols := by
        rw [List.map_append, List.map_singleton]
        refine List.nodup_append.mpr ⟨builder.distinctSymbols, by simp, ?_⟩
        intro symbol earlier other here
        obtain ⟨existing, member, rfl⟩ := List.mem_map.mp earlier
        rw [List.mem_singleton.mp here]
        exact new existing member }
  else builder

def metadataExport (symbol : String) : LeanWorkerCapabilityBuilder :=
  builder.addWorkerExportSignature (WorkerExports.metadataSignature symbol)

def doctorExport (symbol : String) : LeanWorkerCapabilityBuilder :=
  builder.addWorkerExportSignature (WorkerExports.doctorSignature symbol)

def jsonCommandExport (symbol : String) : LeanWorkerCapabilityBuilder :=
  builder.addWorkerExportSignature (WorkerExports.jsonCommandSignature symbol)

def streamingCommandExport (symbol : String) : LeanWorkerCapabilityBuilder :=
  builder.addWorkerExportSignature (WorkerExports.streamingCommandSignature symbol)

def validateMetadata (exportName : String) (request : JsonText) : LeanWorkerCapabilityBuilder :=
  { builder.metadataExport exportName with metadataCheck := some ⟨exportName, request, none⟩ }

def expectMetadata (exportName : String) (request expected : JsonText) :
    LeanWorkerCapabilityBuilder :=
  { builder.metadataExport exportName with
    metadataCheck := some ⟨exportName, request, some expected⟩ }

theorem addWorkerExportSignature_eq (signature : LeanExportSignature) :
    ∃ signatures distinct, builder.addWorkerExportSignature signature =
      { builder with workerExportSignatures := signatures, distinctSymbols := distinct } := by
  refine ⟨_, (builder.addWorkerExportSignature signature).distinctSymbols, ?_⟩
  unfold addWorkerExportSignature
  split
  · rfl
  · rfl

theorem validateMetadata_sessionKey (exportName : String) (request : JsonText) (a : KeyAnswers) :
    (builder.validateMetadata exportName request).sessionKey a =
      { builder.sessionKey a with
        metadataExpectation := some ⟨exportName, request, none⟩ } := by
  obtain ⟨signatures, distinct, same⟩ :=
    builder.addWorkerExportSignature_eq (WorkerExports.metadataSignature exportName)
  unfold validateMetadata metadataExport
  rw [same]
  rfl

theorem expectMetadata_sessionKey (exportName : String) (request expected : JsonText)
    (a : KeyAnswers) : (builder.expectMetadata exportName request expected).sessionKey a =
      { builder.sessionKey a with
        metadataExpectation := some ⟨exportName, request, some expected⟩ } := by
  obtain ⟨signatures, distinct, same⟩ :=
    builder.addWorkerExportSignature_eq (WorkerExports.metadataSignature exportName)
  unfold expectMetadata metadataExport
  rw [same]
  rfl

def poolRequestTimeout : Duration := builder.requestTimeout.getD (Duration.fromSecs 30)

def minFrameBytes : Nat := 64 * 1024
def maxFrameBytesHardCap : Nat := 256 * 1024 * 1024

def numberVariable (name : String) (value : Option Nat) : List (String × List UInt8) :=
  (value.map fun n => (name, Text.encode (toString n).toList)).toList

def moduleCacheEnv (limits : LeanWorkerModuleCacheLimits) : List (String × List UInt8) :=
  numberVariable "LEAN_RS_MODULE_CACHE_MAX_ENTRIES" limits.maxEntries ++
    numberVariable "LEAN_RS_MODULE_CACHE_TTL_MILLIS" limits.ttlMillis ++
    numberVariable "LEAN_RS_MODULE_CACHE_MAX_BYTES" limits.maxBytes ++
    numberVariable "LEAN_RS_MODULE_CACHE_RSS_GUARD_KIB" limits.rssGuardKib ++
    numberVariable "LEAN_RS_VERIFY_RSS_TAINT_KIB" limits.verifyRssTaintKib

def runtimeEnv : List (String × List UInt8) :=
  numberVariable "LEAN_RS_NUM_THREADS" builder.numThreads ++
    numberVariable "LEAN_RS_LEAN_MAX_MEMORY_KIB" builder.leanMaxMemoryKib

/-- The configuration that `spawn_checked_worker` builds up, with the clamps of its setters. -/
def workerConfig (child : WorkerChild) : LeanWorkerConfig where
  executable := child.executable
  startupTimeout := builder.startupTimeout.getD (Duration.fromSecs 10)
  requestTimeout := builder.requestTimeout.getD (Duration.fromSecs 30)
  shutdownTimeout := builder.shutdownTimeout.getD (Duration.fromSecs 2)
  restartPolicy := builder.restartPolicy.getD {}
  sessionPoolCapacity := builder.sessionPoolCapacity.map fun capacity => max capacity 1
  rssHardLimitKib := builder.rssHardLimit.map fun limit => max limit.1 1
  rssSampleInterval := (builder.rssHardLimit.map fun limit =>
    max limit.2 (Duration.fromMillis 1)).getD (Duration.fromMillis 250)
  maxFrameBytes := (builder.maxFrameBytes.map fun bytes =>
    min (max bytes minFrameBytes) maxFrameBytesHardCap).getD 1048576
  env := ("LEAN_SYSROOT", child.leanSysroot.bytes) ::
    (builder.moduleCacheLimits.map moduleCacheEnv).getD [] ++ builder.runtimeEnv

end LeanWorkerCapabilityBuilder

inductive LeaseReason where
  | memoryPolicy (currentKib limitKib : Nat)
  | idlePolicy (idleFor limit : Duration)
  | explicitCycle
  | cancelledDuring (operation : String)
  | timedOutDuring (operation : String)
  | restartLimitExceeded
  | childExited
  | childExitedFatally
  | metadataMismatch (exportName : String)
  | lifecycleTransition
  | generationChanged (admitted current : Nat)
  | unspecified
  deriving DecidableEq

/-- The text itself, given how durations are rendered for debugging. -/
def LeaseReason.text (debugDuration : Duration → String) : LeaseReason → String
  | memoryPolicy currentKib limitKib =>
    "memory policy cycled worker at " ++ toString currentKib ++ " KiB RSS with limit " ++
      toString limitKib ++ " KiB"
  | idlePolicy idleFor limit =>
    "idle policy cycled worker after " ++ debugDuration idleFor ++ " idle with limit " ++
      debugDuration limit
  | explicitCycle => "explicit worker cycle"
  | cancelledDuring operation => "cancelled during " ++ operation
  | timedOutDuring operation => "timed out during " ++ operation
  | restartLimitExceeded => "worker restart limit exceeded"
  | childExited => "worker child exited"
  | childExitedFatally => "worker child exited fatally"
  | metadataMismatch exportName => "capability metadata mismatch from " ++ exportName
  | lifecycleTransition => "worker lifecycle transition"
  | generationChanged admitted current =>
    "worker generation changed from " ++ toString admitted ++ " to " ++ toString current
  | unspecified => "lease was invalidated by a worker lifecycle transition"

/-- The errors of the layers above a session. In the source they are further constructors of the
one error type. -/
inductive LeanWorkerPoolError where
  | session (error : LeanWorkerSessionError)
  | workerChildUnresolved (tried : List PathBuf)
  | workerChildNotExecutable (path : PathBuf) (reason : String)
  | bootstrap (code message : String)
  | capabilityMetadataMismatch (exportName : String) (expected actual : JsonText)
  | leaseInvalidated (reason : LeaseReason)
  | workerPoolExhausted (maxWorkers : Nat) (resource : LeanWorkerResourceExhaustedFacts)
  | workerPoolMemoryBudgetExceeded (currentKib limitKib : Nat)
      (lastImportStats : Option LeanWorkerImportStats) (resource : LeanWorkerResourceExhaustedFacts)
  | workerPoolQueueTimeout (waited : Duration) (resource : LeanWorkerResourceExhaustedFacts)
  | entryDisappeared (message : String)
  deriving DecidableEq

structure LeanWorkerCapability where
  worker : LeanWorker
  sessionConfig : LeanWorkerSessionConfig
  /-- The exports of the manifest that the sessions are opened from; a child calls no other. -/
  trusted : List LeanExportSignature

structure OpenCapabilityAnswers where
  /-- The first blocking finding of the static checks: its code and its message. -/
  bootstrap : Option (String × String)
  /-- Where the build leaves the manifest of a builder that has none. -/
  build : Except LeanWorkerPoolError PathBuf
  /-- Whether the manifest of a builder that has one can be read. -/
  fromManifest : Except LeanWorkerPoolError Unit
  /-- The exports of that manifest. -/
  manifestExports : List LeanExportSignature
  workerChild : Except LeanWorkerPoolError WorkerChild
  loadElapsed : Duration
  key : KeyAnswers
  spawn : SpawnAnswer
  health : RequestAnswers
  session : OpenAnswers
  sessionElapsed : Duration
  requestJson : Except String JsonText
  metadata : RequestAnswers
  /-- How the shutdown of a worker goes that is dropped because a later step failed. -/
  dropped : ShutdownAnswers

abbrev WorkerProcedure (A : Type) := Procedure World LeanWorkerPoolError A

def supervised {A : Type} (m : Supervisor A) : WorkerProcedure A :=
  mapError (fun e => .session (.supervisor e)) m

def orFail {S A : Type} : Except LeanWorkerPoolError A → Procedure S LeanWorkerPoolError A
  | .ok a => pure a
  | .error e => raise e

namespace LeanWorkerCapabilityBuilder

variable (builder : LeanWorkerCapabilityBuilder)

def sessionConfig (manifestPath : PathBuf) (a : OpenCapabilityAnswers) :
    LeanWorkerSessionConfig where
  projectRoot := builder.effectiveImportWorkspaceRoot a.key
  mode := .capability builder.package builder.libName (some manifestPath)
  imports := builder.imports
  importProfile := builder.importProfile

/-- The exports that a worker opened from the builder trusts: a build bakes the builder's own into
the manifest, and a manifest that is given has its own. -/
def trustedExports (a : OpenCapabilityAnswers) : List LeanExportSignature :=
  if builder.builtManifestPath.isSome then a.manifestExports else builder.workerExportSignatures

def manifestPath (a : OpenCapabilityAnswers) : Except LeanWorkerPoolError PathBuf :=
  match builder.builtDylibPath, builder.builtManifestPath with
  | some _, some path => .ok path
  | _, none => a.build
  | none, some path => a.fromManifest.map fun _ => path

def checkMetadata (a : OpenCapabilityAnswers) : WorkerProcedure Unit :=
  match builder.metadataCheck with
  | none => pure ()
  | some check => do
    let metadata ← supervised (workerCapabilityMetadata false check.exportName a.requestJson
      a.metadata)
    match check.expected with
    | none => pure ()
    | some expected =>
      if metadata = expected then pure ()
      else raise (.capabilityMetadataMismatch check.exportName expected metadata)

/-- The part of `open_unchecked` that has a worker. A builder without imports and without a
metadata check opens no session. -/
def prepare (config : LeanWorkerSessionConfig) (a : OpenCapabilityAnswers) :
    WorkerProcedure Unit := do
  supervised (LeanRs.health a.health)
  if builder.metadataCheck.isSome || !config.imports.isEmpty then
    supervised (openWorkerSession config false a.session)
    builder.checkMetadata a
    supervised (recordCapabilityOpenTiming a.loadElapsed (some a.sessionElapsed))
  else
    supervised (recordCapabilityOpenTiming a.loadElapsed none)

/-- The worker is dropped, and so shut down, when a step after its start fails. -/
def prepareOrDrop (config : LeanWorkerSessionConfig) (a : OpenCapabilityAnswers) :
    WorkerProcedure Unit := do
  match ← capture (builder.prepare config a) with
  | .ok () => pure ()
  | .error e => do
    let _ ← capture (supervised (LeanRs.shutdown a.dropped))
    raise e

/-- `open`. What is done to the outside is all the state it has, until there is a worker. -/
def openCapability (a : OpenCapabilityAnswers) :
    Procedure (List Effect) LeanWorkerPoolError LeanWorkerCapability := do
  match a.bootstrap with
  | some (code, message) => raise (.bootstrap code message)
  | none => do
    let manifestPath ← orFail (builder.manifestPath a)
    let child ← orFail a.workerChild
    fun effects =>
      let workerConfig := builder.workerConfig child
      let config := builder.sessionConfig manifestPath a
      -- a worker that has not been spawned yet stands for none: `spawn` leaves it alone
      match spawn workerConfig a.spawn ⟨.fresh workerConfig 0 false 0 0, effects⟩ with
      | .raised e t => .raised (.session (.supervisor e)) t.effects
      | .waiting t => .waiting t.effects
      | .returned worker t =>
        match builder.prepareOrDrop config a ⟨worker, t.effects⟩ with
        | .raised e u => .raised e u.effects
        | .waiting u => .waiting u.effects
        | .returned () u => .returned ⟨u.worker, config, builder.trustedExports a⟩ u.effects

end LeanWorkerCapabilityBuilder

end LeanRs
