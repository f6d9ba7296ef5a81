import LeanRs.Pool.Accounting
import LeanRs.Worker.Limits

/-! What an entry keeps while its worker is not replaced, and what is true of all entries of a pool
in every state, if it is true of an entry whose worker has just been opened. -/
namespace LeanRs

open Procedures Procedure Supervisor

structure Standing where
  key : LeanWorkerSessionKey
  builder : LeanWorkerCapabilityBuilder
  baseRequestTimeout : Duration
  sessionConfig : LeanWorkerSessionConfig
  trusted : List LeanExportSignature
  config : LeanWorkerConfig

def PoolEntry.standing (entry : PoolEntry) : Standing :=
  ⟨entry.key, entry.builder, entry.baseRequestTimeout, entry.capability.sessionConfig,
    entry.capability.trusted, entry.worker.config⟩

def EntryWorld.standing (s : EntryWorld) : Standing := s.entry.standing

def LeaseWorld.standing (s : LeaseWorld) : Standing := s.entry.standing

def PoolWorld.standings (s : PoolWorld) : List Standing := s.pool.entries.map PoolEntry.standing

theorem onWorker_standing {A : Type} {m : WorkerProcedure A} (body : Fixes World.config m) :
    Fixes EntryWorld.standing (PoolEntry.onWorker m) := by
  intro v s held
  apply focus_meets
  have along : ∀ t : World, t.config = s.world.config → (s.withWorld t).standing = v := by
    intro t same
    rw [← held]
    exact congrArg (Standing.mk s.entry.key s.entry.builder s.entry.baseRequestTimeout
      s.entry.capability.sessionConfig s.entry.capability.trusted) same
  exact (body s.world.config s.world rfl).weaken (fun _ => along) fun _ => along

theorem supervised_config {A : Type} {m : Supervisor A} (moves : Moves SameConfig m) :
    Fixes World.config (supervised m) := Fixes.mapError (fixes_config moves)

theorem modifyEntry_standing (f : PoolEntry → PoolEntry)
    (same : ∀ entry, (f entry).standing = entry.standing) :
    Fixes EntryWorld.standing (PoolEntry.modify f) := .update fun s => same s.entry

theorem sampleRss_standing (entry : PoolEntry) (sample : Option Nat) :
    (entry.sampleRss sample).2.standing = entry.standing := by
  unfold PoolEntry.sampleRss
  cases entry.worker.childRssKib sample <;> rfl

theorem cycleForPolicy_standing (reason : LeanWorkerRestartReason)
    (a : PoolEntry.PolicyAnswers) :
    Fixes EntryWorld.standing (PoolEntry.cycleForPolicy reason a) :=
  .bind (onWorker_standing (supervised_config (restartWithReason_config reason a.restart)))
    fun _ => modifyEntry_standing _ fun _ => rfl

theorem ceilingReached_standing (config : LeanWorkerPoolConfig) (sample : Option Nat) :
    Fixes EntryWorld.standing (PoolEntry.ceilingReached config sample) := by
  unfold PoolEntry.ceilingReached
  cases config.perWorkerRssCeilingKib with
  | none => exact .pure _
  | some limitKib =>
    intro v s held
    exact (sampleRss_standing s.entry sample).trans held

theorem enforcePolicy_standing (config : LeanWorkerPoolConfig) (a : PoolEntry.PolicyAnswers) :
    Fixes EntryWorld.standing (PoolEntry.enforcePolicy config a) := by
  apply Fixes.bind (ceilingReached_standing config a.rss)
  intro reached
  cases reached with
  | some sample =>
    exact .bind .read fun _ => .bind (cycleForPolicy_standing _ a) fun _ => .pure _
  | none =>
    cases config.idleCycleAfter with
    | none => exact .pure _
    | some limit =>
      apply Fixes.choose
      · exact fun _ => .bind (cycleForPolicy_standing _ a) fun _ => .pure _
      · exact fun _ => .pure _

namespace LeanWorkerSessionLease

theorem onEntry_standing {A : Type} {m : EntryProcedure A} (body : Fixes EntryWorld.standing m) :
    Fixes LeaseWorld.standing (onEntry m) := .focus body (fun _ => rfl) fun _ _ => rfl

theorem modify_standing (f : LeanWorkerSessionLease → LeanWorkerSessionLease) :
    Fixes LeaseWorld.standing (modify f) := .update fun _ => rfl

theorem ensureValid_standing : Fixes LeaseWorld.standing ensureValid := by
  apply Fixes.bind Fixes.read
  intro s
  cases s.lease.refusal s.entry.workerGeneration with
  | none => exact .pure _
  | some reason => exact .raise _

theorem enforcePolicyBeforeRequest_standing (a : PoolEntry.PolicyAnswers) :
    Fixes LeaseWorld.standing (enforcePolicyBeforeRequest a) := by
  apply Fixes.bind Fixes.read
  intro s
  apply Fixes.bind (onEntry_standing (enforcePolicy_standing _ a))
  intro cycled
  cases cycled with
  | none => exact .pure _
  | some reason => exact .bind (modify_standing _) fun _ => .raise _

theorem cycle_standing (a : RestartAnswers) : Fixes LeaseWorld.standing (cycle a) := by
  apply Fixes.bind ensureValid_standing
  intro _
  apply Fixes.bind (onEntry_standing (onWorker_standing (supervised_config
    (restartWithReason_config _ a))))
  exact fun _ => modify_standing _

theorem setRequestTimeout_standing (timeout : Duration) :
    Fixes LeaseWorld.standing (setRequestTimeout timeout) :=
  .bind ensureValid_standing fun _ => modify_standing _

theorem releaseOnce_standing : Fixes LeaseWorld.standing releaseOnce := by
  apply Fixes.bind Fixes.read
  intro s
  apply Fixes.choose
  · exact fun _ => .pure _
  · intro _
    exact .bind (onEntry_standing (modifyEntry_standing _ fun _ => rfl)) fun _ =>
      modify_standing _

theorem release_standing : Fixes LeaseWorld.standing release :=
  .bind releaseOnce_standing fun _ => releaseOnce_standing

end LeanWorkerSessionLease

/-- The worker has the configuration, and the session the description and the exports, that the
builder asks for. -/
structure LeanWorkerCapabilityBuilder.Starts (builder : LeanWorkerCapabilityBuilder)
    (a : OpenCapabilityAnswers) (sessionConfig : LeanWorkerSessionConfig)
    (trusted : List LeanExportSignature) (config : LeanWorkerConfig) : Prop where
  config : ∃ child, config = builder.workerConfig child
  sessionConfig : ∃ manifestPath, sessionConfig = builder.sessionConfig manifestPath a
  trusted : trusted = builder.trustedExports a

section Opening

variable (builder : LeanWorkerCapabilityBuilder)

theorem checkMetadata_config (a : OpenCapabilityAnswers) :
    Fixes World.config (builder.checkMetadata a) := by
  unfold LeanWorkerCapabilityBuilder.checkMetadata
  cases builder.metadataCheck with
  | none => exact .pure _
  | some check =>
    apply Fixes.bind (supervised_config (workerCapabilityMetadata_config _ _ _ _))
    intro metadata
    cases check.expected with
    | none => exact .pure _
    | some expected => exact .choose (fun _ => .pure _) fun _ => .raise _

theorem prepare_config (config : LeanWorkerSessionConfig) (a : OpenCapabilityAnswers) :
    Fixes World.config (builder.prepare config a) := by
  have times : ∀ opened, Moves SameConfig (recordCapabilityOpenTiming a.loadElapsed opened) :=
    fun _ _ => rfl
  apply Fixes.bind (supervised_config (health_config _))
  intro _
  apply Fixes.choose
  · intro _
    apply Fixes.bind (supervised_config (openWorkerSession_config _ _ _))
    intro _
    apply Fixes.bind (checkMetadata_config builder a)
    exact fun _ => supervised_config (times _)
  · exact fun _ => supervised_config (times _)

theorem prepareOrDrop_config (config : LeanWorkerSessionConfig) (a : OpenCapabilityAnswers) :
    Fixes World.config (builder.prepareOrDrop config a) := by
  have stops : Moves SameConfig (LeanRs.shutdown a.dropped) :=
    fun s => congrArg Ledger.config (shutdownChild_frame a.dropped .graceful s).ledger
  apply Fixes.bind (.capture (prepare_config builder config a))
  intro prepared
  cases prepared with
  | ok _ => exact .pure _
  | error e => exact .bind (.capture (supervised_config stops)) fun _ => .raise _

theorem orFail_ends {S A : Type} (result : Except LeanWorkerPoolError A) :
    Triple (fun _ : S => True) (orFail result) (fun _ _ => True) (fun _ _ => True) := by
  cases result with
  | ok a => exact Triple.pure fun _ _ => trivial
  | error e => exact Triple.raise fun _ _ => trivial

theorem openCapability_starts (a : OpenCapabilityAnswers) :
    Triple (fun _ => True) (builder.openCapability a)
      (fun capability _ => builder.Starts a capability.sessionConfig capability.trusted
        capability.worker.config)
      (fun _ _ => True) := by
  unfold LeanWorkerCapabilityBuilder.openCapability
  cases a.bootstrap with
  | some finding => exact Triple.raise fun _ _ => trivial
  | none =>
    apply Triple.bind (orFail_ends _)
    intro manifestPath
    apply Triple.bind (orFail_ends _)
    intro child effects _
    dsimp only
    have started := spawn_meets (builder.workerConfig child) a.spawn
      ⟨.fresh (builder.workerConfig child) 0 false 0 0, effects⟩
    cases spawned : spawn (builder.workerConfig child) a.spawn
        ⟨.fresh (builder.workerConfig child) 0 false 0 0, effects⟩ with
    | raised e t => trivial
    | waiting t => trivial
    | returned worker t =>
      rw [spawned] at started
      obtain ⟨-, pid, stderr, elapsed, now, rfl⟩ := started
      dsimp only
      have kept := prepareOrDrop_config builder (builder.sessionConfig manifestPath a) a _
        ⟨.fresh (builder.workerConfig child) pid stderr elapsed now, t.effects⟩ rfl
      cases prepared : builder.prepareOrDrop (builder.sessionConfig manifestPath a) a
          ⟨.fresh (builder.workerConfig child) pid stderr elapsed now, t.effects⟩ with
      | raised e u => trivial
      | waiting u => trivial
      | returned _ u =>
        rw [prepared] at kept
        exact ⟨⟨child, kept⟩, ⟨manifestPath, rfl⟩, rfl⟩

end Opening

namespace LeanWorkerPool

theorem modify_standings (f : LeanWorkerPool → LeanWorkerPool)
    (same : ∀ pool, (f pool).entries = pool.entries) : Fixes PoolWorld.standings (modify f) :=
  .update fun s => congrArg (List.map PoolEntry.standing) (same s.pool)

theorem poolFullError_standings {A : Type} :
    Fixes PoolWorld.standings (poolFullError : PoolProcedure A) := by
  apply Fixes.bind Fixes.read
  intro s
  apply Fixes.choose
  · intro _
    exact .bind (modify_standings _ fun _ => rfl) fun _ => .bind .read fun _ => .raise _
  · intro _
    exact .bind (modify_standings _ fun _ => rfl) fun _ =>
      .bind (modify_standings _ fun _ => rfl) fun _ => .bind .read fun _ => .raise _

theorem ensureSpawnWithinTotalRssBudget_standings (rss : PoolRssTotal) :
    Fixes PoolWorld.standings (ensureSpawnWithinTotalRssBudget rss) := by
  apply Fixes.bind Fixes.read
  intro s
  cases s.pool.config.maxTotalChildRssKib with
  | none => exact .pure _
  | some limitKib =>
    apply Fixes.choose (fun _ => .pure _)
    intro _
    apply Fixes.choose
    · intro _
      exact .bind (modify_standings _ fun _ => rfl) fun _ =>
        .bind (modify_standings _ fun _ => rfl) fun _ => .bind .read fun _ => .raise _
    · exact fun _ => .pure _

theorem refreshEntries_standing (samples : Nat → Option Nat) (index : Nat) (rss : PoolRssTotal)
    (entries : List PoolEntry) :
    (refreshEntries samples index rss entries).2.map PoolEntry.standing =
      entries.map PoolEntry.standing := by
  induction entries generalizing index rss with
  | nil => rfl
  | cons entry rest ih =>
    rw [refreshEntries, List.map_cons, List.map_cons, sampleRss_standing, ih]

theorem sampleEntries_standings (samples : Nat → Option Nat) :
    Fixes PoolWorld.standings (sampleEntries samples) := by
  intro v s held
  exact (refreshEntries_standing samples 0 ⟨0, 0⟩ s.pool.entries).trans held

theorem recordKeyMiss_entries (pool : LeanWorkerPool) :
    pool.recordKeyMiss.recordColdOpenAttempt.entries = pool.entries := by
  unfold recordKeyMiss
  split <;> rfl

theorem admitLease_standings (key : LeanWorkerSessionKey) (samples : Nat → Option Nat) :
    Fixes PoolWorld.standings (admitLease key samples) := by
  apply Fixes.bind (modify_standings _ fun pool => rememberSeenKey_entries pool key)
  intro _
  apply Fixes.bind Fixes.read
  intro s
  cases s.pool.entries.findIdx? (fun entry => entry.key == key) with
  | some index =>
    refine Fixes.bind (modify_standings _ fun pool => ?_) fun _ => .pure _
    rfl
  | none =>
    refine Fixes.bind (modify_standings _ fun pool => recordKeyMiss_entries pool) fun _ => ?_
    apply Fixes.bind (sampleEntries_standings samples)
    intro rss
    apply Fixes.bind Fixes.read
    intro s
    apply Fixes.choose (fun _ => poolFullError_standings)
    intro _
    exact .bind (ensureSpawnWithinTotalRssBudget_standings rss) fun _ =>
      .bind (modify_standings _ fun _ => rfl) fun _ => .pure _

theorem enforceEntryPolicyBeforeAssignment_standings (index : Nat)
    (a : PoolEntry.PolicyAnswers) :
    Fixes PoolWorld.standings (enforceEntryPolicyBeforeAssignment index a) := by
  apply Fixes.bind Fixes.read
  intro s
  refine Fixes.bind ?_ fun _ => .pure _
  intro v t held
  simp only [onEntryAt, bind_apply, read_apply, Outcome.andThen_returned]
  cases found : t.pool.entries[index]? with
  | none => exact held
  | some entry =>
    apply focus_meets
    rw [← held]
    apply (enforcePolicy_standing s.pool.config a entry.standing ⟨entry, t.effects⟩ rfl).weaken
    · exact fun _ u same => map_set_of_same PoolEntry.standing found same
    · exact fun _ u same => map_set_of_same PoolEntry.standing found same

theorem status_config (answer : TryWait) : Moves SameConfig (LeanRs.status answer) :=
  fun s => congrArg Ledger.config (status_frame answer s).ledger

end LeanWorkerPool

def AllStand (P : Standing → Prop) (size : Nat) (standings : List Standing) : Prop :=
  standings.length = size ∧ ∀ standing ∈ standings, P standing

/-- What holds of an entry holds of it again when its worker is opened anew. -/
def Renewable (P : Standing → Prop) (a : OpenCapabilityAnswers) : Prop :=
  ∀ standing sessionConfig trusted config, P standing →
    standing.builder.Starts a sessionConfig trusted config →
    P { standing with sessionConfig := sessionConfig, trusted := trusted, config := config }

/-- It holds of an entry that is opened from the builder under the key. -/
def HoldsFresh (P : Standing → Prop) (builder : LeanWorkerCapabilityBuilder)
    (key : LeanWorkerSessionKey) (a : OpenCapabilityAnswers) : Prop :=
  ∀ sessionConfig trusted config, builder.Starts a sessionConfig trusted config →
    P ⟨key, builder, builder.poolRequestTimeout, sessionConfig, trusted, config⟩

section Pools

variable {P : Standing → Prop} {size : Nat} {standings : List Standing}

theorem AllStand.set (all : AllStand P size standings) (index : Nat) {standing : Standing}
    (stands : P standing) : AllStand P size (standings.set index standing) := by
  refine ⟨(List.length_set ..).trans all.1, fun other member => ?_⟩
  obtain member | rfl := List.mem_or_eq_of_mem_set member
  · exact all.2 other member
  · exact stands

theorem AllStand.append (all : AllStand P size standings) {standing : Standing}
    (stands : P standing) : AllStand P (size + 1) (standings ++ [standing]) := by
  constructor
  · rw [List.length_append, all.1, List.length_singleton]
  · intro other member
    obtain member | member := List.mem_append.mp member
    · exact all.2 other member
    · rw [List.mem_singleton.mp member]
      exact stands

theorem AllStand.mono {P' : Standing → Prop} (all : AllStand P size standings)
    (more : ∀ standing, P standing → P' standing) : AllStand P' size standings :=
  ⟨all.1, fun standing member => more standing (all.2 standing member)⟩

namespace LeanWorkerPool

theorem grantAt_stand (index : Nat) (missing : String) :
    Triple (fun s => AllStand P size s.standings) (grantAt index missing)
      (fun granted t => granted.1 = index ∧ AllStand P size t.standings)
      (fun _ t => AllStand P size t.standings) := by
  intro s all
  simp only [grantAt, bind_apply, read_apply, Outcome.andThen_returned]
  cases found : s.pool.entries[index]? with
  | none => exact all
  | some entry =>
    have same :=
      map_set_of_same (b := (grantLease s.pool.config entry).1) PoolEntry.standing found rfl
    have kept : AllStand P size ((s.pool.entries.set index
        (grantLease s.pool.config entry).1).map PoolEntry.standing) := by
      rw [same]
      exact all
    exact ⟨rfl, kept⟩

theorem reopened_stand (a : AcquireAnswers) (renewable : Renewable P a.reopened) :
    Triple (fun t : EntryWorld => P t.standing) (do
        match ← PoolEntry.onWorker (supervised (LeanRs.status a.status)) with
        | .running => pure ()
        | .exited _ => do
          let s ← read
          let capability ← opening EntryWorld.effects
            (fun s effects => { s with effects := effects }) s.entry.builder a.reopened
          PoolEntry.modify fun entry => { entry with
            capability := capability, lastActivity := a.reopenedAt })
      (fun _ t => P t.standing) fun _ t => P t.standing := by
  apply Triple.bind ((onWorker_standing (supervised_config (status_config a.status))).keeps P)
  intro state
  cases state with
  | running => exact Triple.pure fun _ stands => stands
  | exited exit =>
    intro t stands
    simp only [opening, bind_apply, read_apply, Outcome.andThen_returned, focus]
    have opened := openCapability_starts t.entry.builder a.reopened t.effects trivial
    cases outcome : t.entry.builder.openCapability a.reopened t.effects with
    | waiting effects => trivial
    | raised e effects => exact stands
    | returned capability effects =>
      rw [outcome] at opened
      exact renewable t.standing _ _ _ stands opened

theorem ensureEntryRunning_stand (index : Nat) (a : AcquireAnswers)
    (renewable : Renewable P a.reopened) :
    Triple (fun s => AllStand P size s.standings) (ensureEntryRunning index a)
      (fun _ s => AllStand P size s.standings) fun _ s => AllStand P size s.standings := by
  intro s all
  simp only [ensureEntryRunning, onEntryAt, bind_apply, read_apply, Outcome.andThen_returned]
  cases found : s.pool.entries[index]? with
  | none => exact all
  | some entry =>
    have member : entry.standing ∈ s.standings :=
      List.mem_map_of_mem (List.mem_of_getElem? found)
    have back : ∀ t : EntryWorld, P t.standing →
        AllStand P size (s.withEntry index t).standings := by
      intro t stands
      show AllStand P size ((s.pool.entries.set index t.entry).map PoolEntry.standing)
      rw [List.map_set]
      exact all.set index stands
    apply focus_meets
    apply (reopened_stand a renewable ⟨entry, s.effects⟩ (all.2 _ member)).weaken
    · exact fun _ => back
    · exact fun _ => back

/-- The worker that is added was opened from the builder that the call was made with, and it is on
it that the lease is granted. -/
theorem openColdEntry_stand (key : LeanWorkerSessionKey) (builder : LeanWorkerCapabilityBuilder)
    (a : AcquireAnswers) (fresh : HoldsFresh P builder key a.opened) :
    Triple (fun s => AllStand P size s.standings) (openColdEntry key builder a)
      (fun granted t => granted.1 = size ∧ AllStand P (size + 1) t.standings)
      (fun _ t => ∃ size', AllStand P size' t.standings) := by
  intro s all
  simp only [openColdEntry, opening, bind_apply, capture_apply, focus]
  have opens := openCapability_starts builder a.opened s.effects trivial
  cases outcome : builder.openCapability a.opened s.effects with
  | waiting effects => trivial
  | raised e effects => exact ⟨size, all⟩
  | returned capability effects =>
    rw [outcome] at opens
    simp only [Outcome.captured_returned, Outcome.andThen_returned, bind_apply, modify_apply,
      read_apply]
    have standing := sampleRss_standing (newEntry key builder capability a.openedAt) a.openedRss
    generalize ((newEntry key builder capability a.openedAt).sampleRss a.openedRss).2 = entry
      at standing
    have stands : P entry.standing := by
      rw [standing]
      exact fresh _ _ _ opens
    have added : AllStand P (size + 1) ((s.pool.entries ++ [entry]).map PoolEntry.standing) := by
      rw [List.map_append]
      exact all.append stands
    have length : (s.pool.entries ++ [entry]).length - 1 = size := by
      rw [List.length_append, ← all.1]
      exact (List.length_map ..).symm
    apply (grantAt_stand _ _ _ added).weaken
    · rintro granted t ⟨landed, all'⟩
      exact ⟨landed.trans length, all'⟩
    · exact fun _ t all' => ⟨size + 1, all'⟩

theorem acquireLease_stand (builder : LeanWorkerCapabilityBuilder) (a : AcquireAnswers)
    (renewable : Renewable P a.reopened) {P' : Standing → Prop}
    (more : ∀ standing, P standing → P' standing)
    (fresh : HoldsFresh P' builder (builder.sessionKey a.key) a.opened) :
    Triple (fun s => AllStand P size s.standings) (acquireLease builder a)
      (fun granted t => (∃ size', AllStand P' size' t.standings) ∧
        (granted.1 < size → AllStand P size t.standings))
      (fun _ t => ∃ size', AllStand P' size' t.standings) := by
  have widened : ∀ t : PoolWorld, AllStand P size t.standings →
      ∃ size', AllStand P' size' t.standings := fun t all => ⟨size, all.mono more⟩
  have admits : Triple (fun s => AllStand P size s.standings)
      (admitLease (builder.sessionKey a.key) a.samples)
      (fun _ t => AllStand P size t.standings)
      (fun _ t => ∃ size', AllStand P' size' t.standings) :=
    ((admitLease_standings _ _).keeps (AllStand P size)).consequence (fun _ all => all)
      (fun _ _ all => all) fun _ => widened
  apply Triple.bind admits
  intro decision
  cases decision with
  | reuseWarmEntry index =>
    have reuses : Triple (fun s => AllStand P size s.standings) (do
        ensureEntryRunning index a
        enforceEntryPolicyBeforeAssignment index a.policy
        grantAt index "worker pool entry disappeared during lease acquisition")
        (fun granted t => granted.1 = index ∧ AllStand P size t.standings)
        (fun _ t => AllStand P size t.standings) := by
      apply Triple.bind (ensureEntryRunning_stand index a renewable)
      intro _
      apply Triple.bind ((enforceEntryPolicyBeforeAssignment_standings index _).keeps
        (AllStand P size))
      exact fun _ => grantAt_stand index _
    apply reuses.consequence (fun _ all => all)
    · exact fun _ t all => ⟨widened t all.2, fun _ => all.2⟩
    · exact fun _ => widened
  | openColdEntry =>
    apply (openColdEntry_stand (builder.sessionKey a.key) builder a fresh).consequence
      (fun _ all => AllStand.mono all more)
    · rintro granted t ⟨landed, all⟩
      exact ⟨⟨size + 1, all⟩, fun inside => absurd landed (Nat.ne_of_lt inside)⟩
    · exact fun _ t all => all

end LeanWorkerPool

namespace PoolState

def Stand (P : Standing → Prop) (s : PoolState) : Prop :=
  ∃ size, AllStand P size (s.pool.entries.map PoolEntry.standing)

variable {s t : PoolState}

theorem new_stand (config : LeanWorkerPoolConfig) : (new config).Stand P :=
  ⟨0, rfl, fun _ member => absurd member List.not_mem_nil⟩

theorem onLease_stand {m : LeaseProcedure Unit} (keeps : Triple (fun s => P s.standing) m
      (fun _ s => P s.standing) fun _ s => P s.standing)
    (stand : s.Stand P) (moved : s.onLease m = some t) : t.Stand P := by
  obtain ⟨held, out, moved⟩ := Option.bind_eq_some_iff.mp moved
  obtain ⟨entry, found, moved⟩ := Option.bind_eq_some_iff.mp moved
  obtain ⟨u, ended, rfl⟩ := Option.map_eq_some_iff.mp moved
  obtain ⟨size, all⟩ := stand
  have here : P entry.standing :=
    all.2 _ (List.mem_map_of_mem (List.mem_of_getElem? found))
  have after : P u.standing :=
    Outcome.Meets.ended (I := fun s => P s.standing) (keeps ⟨entry, held.2, []⟩ here) ended
  refine ⟨size, ?_⟩
  show AllStand P size ((s.pool.entries.set held.1 u.entry).map PoolEntry.standing)
  rw [List.map_set]
  exact all.set held.1 after

theorem step_stand (leases : ∀ op : LeaseOp, Triple (fun s => P s.standing) op.perform
      (fun _ s => P s.standing) fun _ s => P s.standing)
    (action : PoolAction) (opens : ∀ builder a, action = .acquire builder a →
      Renewable P a.reopened ∧ HoldsFresh P builder (builder.sessionKey a.key) a.opened)
    (stand : s.Stand P) (moved : s.step action = some t) : t.Stand P := by
  cases action with
  | acquire builder a =>
    obtain ⟨size, all⟩ := stand
    obtain ⟨renewable, fresh⟩ := opens builder a rfl
    have stands := LeanWorkerPool.acquireLease_stand builder a renewable (fun _ held => held)
      fresh ⟨s.pool, []⟩ all
    simp only [step] at moved
    split at moved
    · cases moved
    cases outcome : LeanWorkerPool.acquireLease builder a ⟨s.pool, []⟩ with
    | waiting u => rw [outcome] at moved; cases moved
    | raised e u =>
      rw [outcome] at moved stands
      obtain rfl := Option.some.inj moved
      exact stands
    | returned granted u =>
      rw [outcome] at moved stands
      obtain rfl := Option.some.inj moved
      exact stands.1
  | lease op => exact onLease_stand (leases op) stand moved
  | release =>
    obtain ⟨u, released, rfl⟩ := Option.map_eq_some_iff.mp moved
    have stand' : u.Stand P :=
      onLease_stand (LeanWorkerSessionLease.release_standing.keeps P) stand released
    exact stand'
  | drop =>
    obtain ⟨u, released, rfl⟩ := Option.map_eq_some_iff.mp moved
    have stand' : u.Stand P :=
      onLease_stand (LeanWorkerSessionLease.releaseOnce_standing.keeps P) stand released
    exact stand'

theorem run_stand (leases : ∀ op : LeaseOp, Triple (fun s => P s.standing) op.perform
      (fun _ s => P s.standing) fun _ s => P s.standing)
    {actions : List PoolAction} (opens : ∀ builder a, .acquire builder a ∈ actions →
      Renewable P a.reopened ∧ HoldsFresh P builder (builder.sessionKey a.key) a.opened)
    (stand : s.Stand P) (reached : Runs.run step s actions = some t) : t.Stand P := by
  induction actions generalizing s with
  | nil => exact Option.some.inj reached ▸ stand
  | cons action rest ih =>
    rw [Runs.run_cons] at reached
    obtain ⟨u, moved, reached⟩ := Option.bind_eq_some_iff.mp reached
    have stepped : u.Stand P := by
      apply step_stand leases action _ stand moved
      rintro builder a rfl
      exact opens builder a List.mem_cons_self
    apply ih _ stepped reached
    exact fun builder a member => opens builder a (List.mem_cons_of_mem _ member)

end PoolState

end Pools

end LeanRs
