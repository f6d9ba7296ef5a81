import LeanRs.Pool.Standing

/-! Which builder the worker of an entry was opened from, and when it is what the builder of a
caller who is granted the entry asks for. -/
namespace LeanRs

open Procedures Procedure Supervisor

structure Tenure where
  key : LeanWorkerSessionKey
  builder : LeanWorkerCapabilityBuilder
  sessionConfig : LeanWorkerSessionConfig
  trusted : List LeanExportSignature
  limits : LeanWorkerConfig

def PoolEntry.tenure (entry : PoolEntry) : Tenure :=
  ⟨entry.key, entry.builder, entry.capability.sessionConfig, entry.capability.trusted,
    entry.worker.limits⟩

def Standing.tenure (standing : Standing) : Tenure :=
  ⟨standing.key, standing.builder, standing.sessionConfig, standing.trusted,
    standing.config.limits⟩

def EntryWorld.tenure (s : EntryWorld) : Tenure := s.entry.tenure

def LeaseWorld.tenure (s : LeaseWorld) : Tenure := s.entry.tenure

theorem onWorker_tenure {A : Type} {m : WorkerProcedure A} (body : Fixes World.limits m) :
    Fixes EntryWorld.tenure (PoolEntry.onWorker m) := by
  intro v s held
  apply focus_meets
  have along : ∀ t : World, t.limits = s.world.limits → (s.withWorld t).tenure = v := by
    intro t same
    rw [← held]
    exact congrArg (Tenure.mk s.entry.key s.entry.builder s.entry.capability.sessionConfig
      s.entry.capability.trusted) same
  exact (body s.world.limits s.world rfl).weaken (fun _ => along) fun _ => along

theorem supervised_limits {A : Type} {m : Supervisor A} (body : Fixes World.limits m) :
    Fixes World.limits (supervised m) := Fixes.mapError body

theorem modifyEntry_tenure (f : PoolEntry → PoolEntry)
    (same : ∀ entry, (f entry).tenure = entry.tenure) :
    Fixes EntryWorld.tenure (PoolEntry.modify f) := .update fun s => same s.entry

namespace LeanWorkerSessionLease

theorem onEntry_tenure {A : Type} {m : EntryProcedure A} (body : Fixes EntryWorld.tenure m) :
    Fixes LeaseWorld.tenure (onEntry m) := .focus body (fun _ => rfl) fun _ _ => rfl

theorem modify_tenure (f : LeanWorkerSessionLease → LeanWorkerSessionLease) :
    Fixes LeaseWorld.tenure (modify f) := .update fun _ => rfl

theorem attached_limits {A : Type} (timeout : Option Duration) {command : SessionProcedure A}
    (body : Fixes LeanWorkerSession.limits command) :
    Fixes World.limits (attached timeout command) := by
  have sets : Fixes World.limits (useTimeout timeout) := by
    cases timeout with
    | none => exact .pure _
    | some timeout => exact supervised_limits (setRequestTimeout_limits timeout)
  exact .bind sets fun _ => .focus (.mapError body) (fun _ => rfl) fun _ _ => rfl

theorem retried_tenure {A : Type} (progress : Bool) (a : CommandAnswers)
    {again : SessionProcedure A} (body : Fixes LeanWorkerSession.limits again)
    (first : Except LeanWorkerPoolError A) :
    Fixes LeaseWorld.tenure (retried progress a again first) := by
  cases first with
  | ok value => exact .pure _
  | error err =>
    apply Fixes.bind Fixes.read
    intro s
    apply Fixes.choose
    · intro _
      apply Fixes.capture
      apply onEntry_tenure
      apply onWorker_tenure
      apply Fixes.bind (supervised_limits (fixes_of_config (openWorkerSession_config _ _ _)))
      exact fun _ => attached_limits _ body
    · exact fun _ => .pure _

theorem mapLifecycleResult_tenure {A : Type} (now : Instant)
    (result : Except LeanWorkerPoolError A) :
    Fixes LeaseWorld.tenure (mapLifecycleResult now result) := by
  have restores : Fixes LeaseWorld.tenure restoreTimeout := by
    apply Fixes.bind Fixes.read
    intro s
    apply Fixes.choose
    · intro _
      exact onEntry_tenure (onWorker_tenure (supervised_limits (setRequestTimeout_limits _)))
    · exact fun _ => .pure _
  apply Fixes.bind restores
  intro _
  refine Fixes.bind (onEntry_tenure (modifyEntry_tenure _ fun _ => rfl)) fun _ => ?_
  cases result with
  | ok value => exact .pure _
  | error err =>
    apply Fixes.bind _ fun _ => .raise _
    unfold invalidateFor
    cases invalidatedBy err with
    | none => exact .pure _
    | some reason => exact modify_tenure _

theorem runWithCurrentSession_tenure {A : Type} (progress : Bool) (a : CommandAnswers)
    {command again : SessionProcedure A} (body : Fixes LeanWorkerSession.limits command)
    (body' : Fixes LeanWorkerSession.limits again) :
    Fixes LeaseWorld.tenure (runWithCurrentSession progress a command again) := by
  apply Fixes.bind (ensureValid_standing.comp Standing.tenure)
  intro _
  apply Fixes.bind ((enforcePolicyBeforeRequest_standing _).comp Standing.tenure)
  intro _
  apply Fixes.bind Fixes.read
  intro s
  apply Fixes.bind (.capture (onEntry_tenure (onWorker_tenure (attached_limits _ body))))
  intro first
  apply Fixes.bind (retried_tenure progress a body' first)
  intro result
  have times : ∀ firstCommand, Fixes World.limits (recordCommandTiming firstCommand a.elapsed) :=
    fun _ => .update fun _ => rfl
  apply Fixes.bind (onEntry_tenure (onWorker_tenure (supervised_limits (times _))))
  intro _
  exact .bind (onEntry_tenure (modifyEntry_tenure _ fun _ => rfl)) fun _ =>
    mapLifecycleResult_tenure _ _

theorem perform_tenure (op : LeaseOp) : Fixes LeaseWorld.tenure op.perform := by
  cases op with
  | cycle a => exact (cycle_standing a).comp Standing.tenure
  | setRequestTimeout timeout => exact (setRequestTimeout_standing timeout).comp Standing.tenure
  | run command progress a first second =>
    exact runWithCurrentSession_tenure _ _ (sessionCall_limits _) (sessionCall_limits _)

end LeanWorkerSessionLease

/-- The worker has the configuration, and the session the description and the exports, that the
builder asks for. -/
structure LeanWorkerCapabilityBuilder.Opens (builder : LeanWorkerCapabilityBuilder)
    (a : OpenCapabilityAnswers) (sessionConfig : LeanWorkerSessionConfig)
    (trusted : List LeanExportSignature) (limits : LeanWorkerConfig) : Prop where
  limits : ∃ child, limits = (builder.workerConfig child).limits
  sessionConfig : ∃ manifestPath, sessionConfig = builder.sessionConfig manifestPath a
  trusted : trusted = builder.trustedExports a

theorem opens_of_starts {builder : LeanWorkerCapabilityBuilder} {a : OpenCapabilityAnswers}
    {sessionConfig : LeanWorkerSessionConfig} {trusted : List LeanExportSignature}
    {config : LeanWorkerConfig} (starts : builder.Starts a sessionConfig trusted config) :
    builder.Opens a sessionConfig trusted config.limits where
  limits := by
    obtain ⟨child, rfl⟩ := starts.config
    exact ⟨child, rfl⟩
  sessionConfig := starts.sessionConfig
  trusted := starts.trusted

/-- The key was asked for with the builder, and the worker was opened from it. -/
structure Tenure.Fits (asked : LeanWorkerCapabilityBuilder → LeanWorkerSessionKey → Prop)
    (opening : OpenCapabilityAnswers → Prop) (tenure : Tenure) : Prop where
  keyed : asked tenure.builder tenure.key
  opened : ∃ a, opening a ∧
    tenure.builder.Opens a tenure.sessionConfig tenure.trusted tenure.limits

section Entries

variable {asked : LeanWorkerCapabilityBuilder → LeanWorkerSessionKey → Prop}
  {opening : OpenCapabilityAnswers → Prop}

theorem fits_renewable {a : OpenCapabilityAnswers} (known : opening a) :
    Renewable (fun standing => standing.tenure.Fits asked opening) a :=
  fun _ _ _ _ fits starts => ⟨fits.keyed, a, known, opens_of_starts starts⟩

theorem fits_fresh {builder : LeanWorkerCapabilityBuilder} {key : LeanWorkerSessionKey}
    {a : OpenCapabilityAnswers} (named : asked builder key) (known : opening a) :
    HoldsFresh (fun standing => standing.tenure.Fits asked opening) builder key a :=
  fun _ _ _ starts => ⟨named, a, known, opens_of_starts starts⟩

theorem run_fitting {actions : List PoolAction} {s t : PoolState}
    (fit : s.Stand fun standing => standing.tenure.Fits asked opening)
    (named : ∀ builder a, .acquire builder a ∈ actions → asked builder (builder.sessionKey a.key))
    (known : ∀ builder a, .acquire builder a ∈ actions → opening a.opened ∧ opening a.reopened)
    (reached : Runs.run PoolState.step s actions = some t) :
    t.Stand fun standing => standing.tenure.Fits asked opening := by
  apply PoolState.run_stand _ _ fit reached
  · exact fun op => (LeanWorkerSessionLease.perform_tenure op).keeps (Tenure.Fits asked opening)
  · intro builder a member
    obtain ⟨opened, reopened⟩ := known builder a member
    exact ⟨fits_renewable reopened, fits_fresh (named builder a member) opened⟩

theorem warm_fits {builder : LeanWorkerCapabilityBuilder} {a : LeanWorkerPool.AcquireAnswers}
    {s t : PoolWorld} {granted : Nat × LeanWorkerSessionLease} {size : Nat}
    (known : opening a.reopened)
    (fit : AllStand (fun standing => standing.tenure.Fits asked opening) size s.standings)
    (outcome : LeanWorkerPool.acquireLease builder a s = .returned granted t)
    (warm : granted.1 < size) :
    AllStand (fun standing => standing.tenure.Fits asked opening) size t.standings := by
  have fresh : HoldsFresh (fun _ => True) builder (builder.sessionKey a.key) a.opened :=
    fun _ _ _ _ => trivial
  have fits := LeanWorkerPool.acquireLease_stand builder a (fits_renewable known)
    (fun _ _ => trivial) fresh s fit
  rw [outcome] at fits
  exact fits.2 warm

end Entries

/-- The sessions that two builders ask for are the same, with paths as they were resolved when each
was asked for. -/
structure LeanWorkerCapabilityBuilder.SameSession (opener : LeanWorkerCapabilityBuilder)
    (k : KeyAnswers) (builder : LeanWorkerCapabilityBuilder) (l : KeyAnswers) : Prop where
  projectRoot : k.normalizeImportWorkspaceRoot opener.projectRoot ==
    l.normalizeImportWorkspaceRoot builder.projectRoot
  importWorkspaceRoot :
    k.normalizeImportWorkspaceRoot (opener.effectiveImportWorkspaceRoot k) ==
      l.normalizeImportWorkspaceRoot (builder.effectiveImportWorkspaceRoot l)
  builtManifestPath : opener.builtManifestPath.map k.normalizeImportWorkspaceRoot ==
    builder.builtManifestPath.map l.normalizeImportWorkspaceRoot
  package : opener.package = builder.package
  libName : opener.libName = builder.libName
  imports : opener.imports = builder.imports
  importProfile : opener.importProfile = builder.importProfile
  metadataCheck : opener.metadataCheck = builder.metadataCheck
  toolchainFingerprint : k.current = l.current
  restartPolicyClass : opener.restartPolicyClass = builder.restartPolicyClass

theorem metadataExpectation_injective {c d : Option CapabilityMetadataCheck}
    (same : c.map (fun check => LeanWorkerMetadataExpectationKey.mk check.exportName check.request
        check.expected) =
      d.map fun check => ⟨check.exportName, check.request, check.expected⟩) : c = d := by
  apply Option.map_injective _ same
  rintro ⟨name, request, expected⟩ ⟨name', request', expected'⟩ equal
  cases equal
  rfl

theorem sameSession_of_key {opener builder : LeanWorkerCapabilityBuilder} {k l : KeyAnswers}
    (same : opener.sessionKey k == builder.sessionKey l) : opener.SameSession k builder l := by
  unfold BEq.beq instBEqLeanWorkerSessionKey at same
  simp only [Bool.and_eq_true, beq_iff_eq] at same
  obtain ⟨⟨⟨⟨⟨⟨⟨⟨⟨root, importRoot⟩, manifest⟩, package⟩, lib⟩, imports⟩, profile⟩, metadata⟩,
    toolchain⟩, policy⟩ := same
  exact ⟨root, importRoot, manifest, package, lib, imports, profile,
    metadataExpectation_injective metadata, toolchain, policy⟩

/-- The capacity that the child of a worker opened from the builder gets. -/
def LeanWorkerCapabilityBuilder.effectiveSessionPoolCapacity
    (builder : LeanWorkerCapabilityBuilder) : Option Nat :=
  (builder.sessionPoolCapacity.map fun capacity => max capacity 1).or
    (builder.restartPolicy.getD {}).maxImports

/-- The worker has the limits that the builder asks for, and trusts all exports that it
declares. -/
structure PoolEntry.Fits (entry : PoolEntry) (builder : LeanWorkerCapabilityBuilder) : Prop where
  restartPolicy : entry.worker.config.restartPolicy = builder.restartPolicy.getD {}
  capacity : entry.worker.config.resolvedSessionPoolCapacity =
    builder.effectiveSessionPoolCapacity
  exports : ∀ signature ∈ builder.workerExportSignatures, signature ∈ entry.capability.trusted

structure LeanWorkerCapabilityBuilder.Covers (opener : LeanWorkerCapabilityBuilder)
    (a : OpenCapabilityAnswers) (builder : LeanWorkerCapabilityBuilder) : Prop where
  restartPolicy : opener.restartPolicy.getD {} = builder.restartPolicy.getD {}
  capacity : opener.effectiveSessionPoolCapacity = builder.effectiveSessionPoolCapacity
  exports : ∀ signature ∈ builder.workerExportSignatures, signature ∈ opener.trustedExports a

theorem fits_iff_covers {entry : PoolEntry} {opener : LeanWorkerCapabilityBuilder}
    {a : OpenCapabilityAnswers} (opens : opener.Opens a entry.capability.sessionConfig
      entry.capability.trusted entry.worker.limits) (builder : LeanWorkerCapabilityBuilder) :
    entry.Fits builder ↔ opener.Covers a builder := by
  obtain ⟨child, limits⟩ := opens.limits
  have policy : entry.worker.config.restartPolicy = opener.restartPolicy.getD {} :=
    congrArg LeanWorkerConfig.restartPolicy limits
  have capacity : entry.worker.config.resolvedSessionPoolCapacity =
      opener.effectiveSessionPoolCapacity :=
    congrArg LeanWorkerConfig.resolvedSessionPoolCapacity limits
  constructor
  · intro fits
    exact ⟨policy.symm.trans fits.restartPolicy, capacity.symm.trans fits.capacity,
      opens.trusted ▸ fits.exports⟩
  · intro covers
    exact ⟨policy.trans covers.restartPolicy, capacity.trans covers.capacity,
      opens.trusted ▸ covers.exports⟩

theorem default_of_class {builder : LeanWorkerCapabilityBuilder}
    (plain : builder.restartPolicyClass = .default) :
    builder.restartPolicy.getD {} = {} ∧ builder.effectiveSessionPoolCapacity = none := by
  unfold LeanWorkerCapabilityBuilder.restartPolicyClass at plain
  split at plain
  · cases plain
  rename_i capacity
  split at plain
  · rename_i policy
    have unset : builder.sessionPoolCapacity = none := by simpa using capacity
    refine ⟨policy, ?_⟩
    unfold LeanWorkerCapabilityBuilder.effectiveSessionPoolCapacity
    simp only [unset, policy, Option.map_none, Option.none_or]
  · cases plain

/-- What the worker of an entry can have been opened with: in a call of the run, or when the last
call found it exited. -/
def openings (actions : List PoolAction) (a : LeanWorkerPool.AcquireAnswers) :
    OpenCapabilityAnswers → Prop :=
  fun c => c = a.reopened ∨ ∃ builder b, .acquire builder b ∈ actions ∧
    (c = b.opened ∨ c = b.reopened)

/-- A lease on an entry that was there before. Its worker was opened from the builder of an earlier
call that asks for the same session, and it fits exactly if that builder asks for the same limits
and the exports that are declared are among those of its manifest; in the default class the limits
are the same. -/
theorem warm_entry_fits_builder (config : LeanWorkerPoolConfig) {actions : List PoolAction}
    {s : PoolState} (reached : Runs.run PoolState.step (.new config) actions = some s)
    (free : s.outstanding = none) {builder : LeanWorkerCapabilityBuilder}
    {a : LeanWorkerPool.AcquireAnswers} {granted : Nat × LeanWorkerSessionLease} {t : PoolWorld}
    (outcome : LeanWorkerPool.acquireLease builder a ⟨s.pool, []⟩ = .returned granted t)
    (warm : granted.1 < s.pool.entries.length) :
    ∃ entry opener b c, t.pool.entries[granted.1]? = some entry ∧
      .acquire opener b ∈ actions ∧ openings actions a c ∧
      opener.Opens c entry.capability.sessionConfig entry.capability.trusted
        entry.worker.limits ∧
      opener.SameSession b.key builder a.key ∧
      (entry.Fits builder ↔ opener.Covers c builder) ∧
      (builder.restartPolicyClass = .default →
        entry.worker.config.restartPolicy = builder.restartPolicy.getD {} ∧
        entry.worker.config.resolvedSessionPoolCapacity =
          builder.effectiveSessionPoolCapacity) := by
  let asked : LeanWorkerCapabilityBuilder → LeanWorkerSessionKey → Prop :=
    fun opener key => ∃ b, .acquire opener b ∈ actions ∧ key = opener.sessionKey b.key
  have named : ∀ opener b, .acquire opener b ∈ actions → asked opener (opener.sessionKey b.key) :=
    fun opener b member => ⟨b, member, rfl⟩
  have known : ∀ opener b, .acquire opener b ∈ actions →
      openings actions a b.opened ∧ openings actions a b.reopened := fun opener b member =>
    ⟨Or.inr ⟨opener, b, member, Or.inl rfl⟩, Or.inr ⟨opener, b, member, Or.inr rfl⟩⟩
  obtain ⟨size, fit⟩ := run_fitting (PoolState.new_stand config) named known reached
  have length : s.pool.entries.length = size := (List.length_map ..).symm.trans fit.1
  have before : AllStand (fun standing => standing.tenure.Fits asked (openings actions a)) size
      (PoolWorld.mk s.pool []).standings := fit
  have fits := warm_fits (Or.inl rfl) before outcome (length ▸ warm)
  have sound := PoolState.run_sound (PoolState.new_sound config) reached
  obtain ⟨entry, found, same, -⟩ := sound.grants free outcome
  have inside : entry ∈ t.pool.entries := List.mem_of_getElem? found
  have member : entry.standing ∈ t.standings := List.mem_map_of_mem inside
  obtain ⟨⟨b, before, key⟩, c, opening, opens⟩ := fits.2 _ member
  have keyed : entry.key = entry.builder.sessionKey b.key := key
  rw [keyed] at same
  have session := sameSession_of_key same
  have covers := fits_iff_covers opens
  refine ⟨entry, entry.builder, b, c, found, before, opening, opens, session, covers builder,
    fun plain => ?_⟩
  -- the opener fits itself, and it is of the default class as well
  have own := default_of_class (session.restartPolicyClass.trans plain)
  have asks := default_of_class plain
  obtain ⟨child, limits⟩ := opens.limits
  have policy : entry.worker.config.restartPolicy = entry.builder.restartPolicy.getD {} :=
    congrArg LeanWorkerConfig.restartPolicy limits
  have capacity : entry.worker.config.resolvedSessionPoolCapacity =
      entry.builder.effectiveSessionPoolCapacity :=
    congrArg LeanWorkerConfig.resolvedSessionPoolCapacity limits
  exact ⟨policy.trans (own.1.trans asks.1.symm), capacity.trans (own.2.trans asks.2.symm)⟩

def cappedBuilder (requests capacity : Nat) (positive : 1 ≤ requests) :
    LeanWorkerCapabilityBuilder :=
  { LeanWorkerCapabilityBuilder.plain "a" with
    restartPolicy := some { maxRequests := some requests, maxRequests_pos := by simpa }
    sessionPoolCapacity := some capacity }

def acquiredOnce (builder : LeanWorkerCapabilityBuilder) : List PoolAction :=
  [.acquire builder .smooth, .release]

theorem plain_entry_fits_builder : ∃ s, Runs.run PoolState.step (.new {})
      (acquiredOnce (.plain "a")) = some s ∧
    ∃ granted t, LeanWorkerPool.acquireLease (.plain "a") .smooth ⟨s.pool, []⟩ =
      .returned granted t ∧
    ∃ entry opener b c, t.pool.entries[granted.1]? = some entry ∧
      .acquire opener b ∈ acquiredOnce (.plain "a") ∧
      opener.Opens c entry.capability.sessionConfig entry.capability.trusted
        entry.worker.limits ∧
      opener.SameSession b.key (.plain "a") LeanWorkerPool.AcquireAnswers.smooth.key ∧
      entry.worker.config.restartPolicy = {} ∧
      (entry.Fits (.plain "a") ↔ opener.Covers c (.plain "a")) := by
  have fits : ∀ s granted t,
      Runs.run PoolState.step (.new {}) (acquiredOnce (.plain "a")) = some s →
      s.outstanding = none →
      LeanWorkerPool.acquireLease (.plain "a") .smooth ⟨s.pool, []⟩ = .returned granted t →
      granted.1 < s.pool.entries.length →
      ∃ entry opener b c, t.pool.entries[granted.1]? = some entry ∧
        .acquire opener b ∈ acquiredOnce (.plain "a") ∧
        opener.Opens c entry.capability.sessionConfig entry.capability.trusted
          entry.worker.limits ∧
        opener.SameSession b.key (.plain "a") LeanWorkerPool.AcquireAnswers.smooth.key ∧
        entry.worker.config.restartPolicy = {} ∧
        (entry.Fits (.plain "a") ↔ opener.Covers c (.plain "a")) := by
    intro s granted t reached free outcome warm
    obtain ⟨entry, opener, b, c, found, before, -, opens, session, exactly, limits⟩ :=
      warm_entry_fits_builder {} reached free outcome warm
    exact ⟨entry, opener, b, c, found, before, opens, session, (limits rfl).1, exactly⟩
  exact ⟨_, rfl, _, _, rfl, fits _ _ _ rfl rfl rfl Nat.zero_lt_one⟩

/-- Limits and exports of another caller: the classes are the same, the key has no export, and so
both calls have one key. -/
theorem custom_entry_has_other_limits :
    (∃ s, Runs.run PoolState.step (.new {})
        (acquiredOnce (cappedBuilder 100 1 (by decide))) = some s ∧
      ∃ granted t, LeanWorkerPool.acquireLease (cappedBuilder 5 8 (by decide)) .smooth
          ⟨s.pool, []⟩ = .returned granted t ∧ granted.1 < s.pool.entries.length ∧
      ∃ entry, t.pool.entries[granted.1]? = some entry ∧
        entry.worker.config.restartPolicy ≠
          (cappedBuilder 5 8 (by decide)).restartPolicy.getD {} ∧
        entry.worker.config.resolvedSessionPoolCapacity ≠
          (cappedBuilder 5 8 (by decide)).effectiveSessionPoolCapacity) ∧
      ∃ s, Runs.run PoolState.step (.new {}) (acquiredOnce (.plain "a")) = some s ∧
        ∃ granted t, LeanWorkerPool.acquireLease
            ((LeanWorkerCapabilityBuilder.plain "a").jsonCommandExport "index") .smooth
            ⟨s.pool, []⟩ = .returned granted t ∧ granted.1 < s.pool.entries.length ∧
        ∃ entry, t.pool.entries[granted.1]? = some entry ∧
          ¬∀ signature ∈ ((LeanWorkerCapabilityBuilder.plain "a").jsonCommandExport
            "index").workerExportSignatures, signature ∈ entry.capability.trusted := by
  constructor
  · refine ⟨_, rfl, _, _, rfl, Nat.zero_lt_one, _, rfl, fun same => ?_, ?_⟩
    · have requests := congrArg LeanWorkerRestartPolicy.maxRequests same
      exact absurd requests (by decide : some 100 ≠ some 5)
    · exact (by decide : some 1 ≠ some 8)
  · refine ⟨_, rfl, _, _, rfl, Nat.zero_lt_one, _, rfl, fun all => ?_⟩
    exact List.not_mem_nil (all (WorkerExports.jsonCommandSignature "index")
      List.mem_cons_self)

end LeanRs
