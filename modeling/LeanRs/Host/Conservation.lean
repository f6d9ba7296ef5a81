import Mathlib.Data.List.Basic
import LeanRs.Host.SessionPool

/-! What the counters of the host's pool say: every entry that was ever released to it is on the
free list, was reused, was drained, or was evicted, as long as no acquire takes an entry off the
list and then fails over its shims. -/
namespace LeanRs.Host

open Procedures Procedure

theorem saturatingAdd_exact {a b : Nat} (below : saturatingAdd a b < u64Max) :
    saturatingAdd a b = a + b := by
  unfold saturatingAdd at *
  generalize u64Max = limit at *
  omega

theorem saturatingAdd_room {a b : Nat} (below : saturatingAdd a b < u64Max) : a < u64Max := by
  have exact := saturatingAdd_exact below
  omega

namespace PoolStats

structure Unsaturated (s : PoolStats) : Prop where
  importsPerformed : s.importsPerformed < u64Max
  reused : s.reused < u64Max
  acquired : s.acquired < u64Max
  releasedToPool : s.releasedToPool < u64Max
  drained : s.drained < u64Max
  keyHits : s.keyHits < u64Max
  keyMisses : s.keyMisses < u64Max
  missEmptyPool : s.missEmptyPool < u64Max
  missReuseDisabled : s.missReuseDisabled < u64Max
  missNoMatchingKey : s.missNoMatchingKey < u64Max
  missStaleEnvironment : s.missStaleEnvironment < u64Max
  staleEvictions : s.staleEvictions < u64Max

def misses (s : PoolStats) : Nat :=
  s.missEmptyPool + s.missReuseDisabled + s.missNoMatchingKey + s.missStaleEnvironment

/-- The counters account for every acquire, every miss and every entry, with `held` entries
still to be accounted for. -/
structure Accounts (s : PoolStats) (held : Nat) : Prop where
  acquired : s.acquired = s.importsPerformed + s.reused
  hits : s.keyHits = s.reused
  misses : s.keyMisses = s.misses
  released : s.releasedToPool = held + s.reused + s.drained + s.staleEvictions

def Balanced (s : PoolStats) (held : Nat) : Prop := s.Unsaturated → s.Accounts held

theorem Balanced.congr {s t : PoolStats} {held : Nat} (balanced : s.Balanced held)
    (same : { t with
      releasedDropped := s.releasedDropped
      drains := s.drains
      freshImportRefusals := s.freshImportRefusals
      rssSamples := s.rssSamples
      rssSamplesUnavailable := s.rssSamplesUnavailable
      distinctKeysSeen := s.distinctKeysSeen
      freshImportsAvoided := s.freshImportsAvoided
      lastMissReason := s.lastMissReason } = s) : t.Balanced held := by
  intro below
  obtain ⟨⟩ := below
  have accounts : s.Accounts held := by
    apply balanced
    rw [← same]
    constructor <;> assumption
  rw [← same] at accounts
  obtain ⟨acquired, hits, misses, released⟩ := accounts
  exact ⟨acquired, hits, misses, released⟩

theorem Balanced.reuse {s : PoolStats} {held : Nat} (balanced : s.Balanced (held + 1)) :
    s.bumpReused.Balanced held := by
  intro below
  have reused : s.bumpReused.reused = s.reused + 1 := saturatingAdd_exact below.reused
  have acquired : s.bumpReused.acquired = s.acquired + 1 := saturatingAdd_exact below.acquired
  have hits : s.bumpReused.keyHits = s.keyHits + 1 := saturatingAdd_exact below.keyHits
  have accounts := balanced {
    below with
    reused := saturatingAdd_room below.reused
    acquired := saturatingAdd_room below.acquired
    keyHits := saturatingAdd_room below.keyHits }
  refine ⟨?_, ?_, accounts.misses, ?_⟩
  · rw [acquired, reused, accounts.acquired]
    rfl
  · rw [hits, reused, accounts.hits]
  · have released := accounts.released
    rw [reused]
    show s.releasedToPool = held + (s.reused + 1) + s.drained + s.staleEvictions
    omega

theorem Balanced.imported {s : PoolStats} {held : Nat} (balanced : s.Balanced held) :
    s.bumpImported.Balanced held := by
  intro below
  have imported : s.bumpImported.importsPerformed = s.importsPerformed + 1 :=
    saturatingAdd_exact below.importsPerformed
  have acquired : s.bumpImported.acquired = s.acquired + 1 := saturatingAdd_exact below.acquired
  have accounts := balanced {
    below with
    importsPerformed := saturatingAdd_room below.importsPerformed
    acquired := saturatingAdd_room below.acquired }
  refine ⟨?_, accounts.hits, accounts.misses, accounts.released⟩
  have sum := accounts.acquired
  rw [acquired, imported]
  show s.acquired + 1 = s.importsPerformed + 1 + s.reused
  omega

theorem Balanced.evict {s : PoolStats} {held count : Nat} (balanced : s.Balanced (held + count)) :
    (s.bumpStaleEvictions (min count u64Max)).Balanced held := by
  intro below
  have evicted : saturatingAdd s.staleEvictions (min count u64Max) =
      s.staleEvictions + min count u64Max := saturatingAdd_exact below.staleEvictions
  have bound : s.staleEvictions + min count u64Max < u64Max := evicted ▸ below.staleEvictions
  have fits : min count u64Max = count := by
    generalize u64Max = limit at *
    omega
  have accounts := balanced { below with staleEvictions := by omega }
  refine ⟨accounts.acquired, accounts.hits, accounts.misses, ?_⟩
  have released := accounts.released
  show s.releasedToPool = held + s.reused + s.drained + saturatingAdd s.staleEvictions _
  rw [evicted, fits]
  omega

theorem bumpMiss_exact {s : PoolStats} (reason : SessionPoolKeyMissReason)
    (below : (s.bumpMiss reason).Unsaturated) :
    s.Unsaturated ∧ (s.bumpMiss reason).misses = s.misses + 1 := by
  cases reason with
  | emptyPool =>
    have exact := saturatingAdd_exact below.missEmptyPool
    refine ⟨{ below with missEmptyPool := saturatingAdd_room below.missEmptyPool }, ?_⟩
    simp only [misses, bumpMiss, exact]
    omega
  | reuseDisabled =>
    have exact := saturatingAdd_exact below.missReuseDisabled
    refine ⟨{ below with missReuseDisabled := saturatingAdd_room below.missReuseDisabled }, ?_⟩
    simp only [misses, bumpMiss, exact]
    omega
  | noMatchingKey =>
    have exact := saturatingAdd_exact below.missNoMatchingKey
    refine ⟨{ below with missNoMatchingKey := saturatingAdd_room below.missNoMatchingKey }, ?_⟩
    simp only [misses, bumpMiss, exact]
    omega
  | staleEnvironment =>
    have exact := saturatingAdd_exact below.missStaleEnvironment
    refine ⟨{ below with
      missStaleEnvironment := saturatingAdd_room below.missStaleEnvironment }, ?_⟩
    simp only [misses, bumpMiss, exact]
    omega

theorem Balanced.miss {s : PoolStats} {held : Nat} (reason : SessionPoolKeyMissReason)
    (balanced : s.Balanced held) : (s.bumpKeyMiss reason).Balanced held := by
  intro below
  obtain ⟨start, total⟩ := bumpMiss_exact
    (s := { s with keyMisses := saturatingAdd s.keyMisses 1 }) reason { below with }
  have missed := saturatingAdd_exact start.keyMisses
  have accounts := balanced { start with keyMisses := saturatingAdd_room start.keyMisses }
  have sum : (s.bumpKeyMiss reason).keyMisses = (s.bumpKeyMiss reason).misses := by
    have counted : (s.bumpKeyMiss reason).keyMisses = s.keyMisses + 1 := by
      rw [← missed]
      cases reason <;> rfl
    rw [counted, accounts.misses]
    exact total.symm
  cases reason <;> exact ⟨accounts.acquired, accounts.hits, sum, accounts.released⟩

theorem Balanced.release {s : PoolStats} {held : Nat} (balanced : s.Balanced held) :
    ({ s with releasedToPool := saturatingAdd s.releasedToPool 1 } : PoolStats).Balanced
      (held + 1) := by
  intro below
  have released := saturatingAdd_exact below.releasedToPool
  have accounts := balanced { below with
    releasedToPool := saturatingAdd_room below.releasedToPool }
  refine ⟨accounts.acquired, accounts.hits, accounts.misses, ?_⟩
  have sum := accounts.released
  show saturatingAdd s.releasedToPool 1 = held + 1 + s.reused + s.drained + s.staleEvictions
  omega

theorem Balanced.drain {s : PoolStats} {held : Nat} (balanced : s.Balanced held) :
    ({ s with drained := saturatingAdd s.drained (min held u64Max) } : PoolStats).Balanced 0 := by
  intro below
  have drained := saturatingAdd_exact below.drained
  have bound : saturatingAdd s.drained (min held u64Max) < u64Max := below.drained
  have fits : min held u64Max = held := by
    generalize u64Max = limit at *
    omega
  have accounts := balanced { below with drained := saturatingAdd_room below.drained }
  refine ⟨accounts.acquired, accounts.hits, accounts.misses, ?_⟩
  have sum := accounts.released
  show s.releasedToPool = 0 + s.reused + saturatingAdd s.drained _ + s.staleEvictions
  rw [drained, fits]
  omega

end PoolStats

theorem takeMatching_some {key : SessionPoolKey} {free rest : List PooledEntry}
    {entry : PooledEntry} (taken : takeMatching key free = some (entry, rest)) :
    ∃ older newer, free = older ++ entry :: newer ∧ rest = older ++ newer ∧ entry.key = key ∧
      ∀ other ∈ newer, other.key ≠ key := by
  obtain ⟨found, last, same⟩ := Option.map_eq_some_iff.mp taken
  cases same
  obtain ⟨matches', newer, older, split, others⟩ := List.find?_eq_some_iff_append.mp last
  have absent : ∀ other ∈ newer, ¬(other.key == key) = true := fun other member => by
    simpa using others other member
  have front : free = older.reverse ++ entry :: newer.reverse := by
    have reversed := congrArg List.reverse split
    simpa using reversed
  refine ⟨older.reverse, newer.reverse, front, ?_, by simpa using matches', fun other member => ?_⟩
  · rw [split, List.eraseP_append_right _ absent]
    simp [matches']
  · simpa using absent other (List.mem_reverse.mp member)

theorem takeMatching_none {key : SessionPoolKey} {free : List PooledEntry} :
    takeMatching key free = none ↔ ∀ entry ∈ free, entry.key ≠ key := by
  unfold takeMatching
  simp

namespace SessionPool

/-- The pool keeps to its configuration and accounts for every entry but `pending` ones, with room
for `admitted` more imports. -/
structure Holds (config : SessionPoolConfig) (pending admitted : Nat) (p : SessionPool) : Prop where
  configured : p.config = config
  room : p.free.length + pending ≤ config.capacity
  imports : ∀ limit, config.memoryPolicy.maxFreshImports = some limit →
    p.stats.importsPerformed + admitted ≤ limit
  balanced : p.stats.Balanced (p.free.length + pending)

variable {config : SessionPoolConfig} {pending admitted : Nat} {p : SessionPool}

theorem withConfig_holds (config : SessionPoolConfig) : (withConfig config).Holds config 0 0 :=
  ⟨rfl, Nat.zero_le _, fun _ _ => Nat.zero_le _, fun _ => ⟨rfl, rfl, rfl, rfl⟩⟩

theorem Holds.settle (holds : p.Holds config pending admitted) : p.Holds config pending 0 :=
  ⟨holds.configured, holds.room,
    fun limit set => Nat.le_trans (Nat.le_add_right _ _) (holds.imports limit set), holds.balanced⟩

theorem Holds.bump (holds : p.Holds config pending admitted) (f : PoolStats → PoolStats)
    (imports : (f p.stats).importsPerformed = p.stats.importsPerformed)
    (balanced : (f p.stats).Balanced (p.free.length + pending)) :
    (p.bump f).Holds config pending admitted :=
  ⟨holds.configured, holds.room, fun limit set => imports ▸ holds.imports limit set, balanced⟩

theorem Holds.rememberSeenKey (holds : p.Holds config pending admitted) (key : SessionPoolKey) :
    (p.rememberSeenKey key).Holds config pending admitted := by
  unfold SessionPool.rememberSeenKey
  split
  · exact ⟨holds.configured, holds.room, holds.imports, holds.balanced.congr rfl⟩
  · exact holds

theorem Holds.take (holds : p.Holds config 0 admitted) {key : SessionPoolKey}
    {entry : PooledEntry} {rest : List PooledEntry}
    (taken : takeMatching key p.free = some (entry, rest)) :
    { p with free := rest }.Holds config 1 admitted := by
  obtain ⟨older, newer, front, rfl, -, -⟩ := takeMatching_some taken
  have length : p.free.length = (older ++ newer).length + 1 := by
    rw [front, List.length_append, List.length_cons, List.length_append, Nat.add_assoc]
  exact ⟨holds.configured, length ▸ holds.room, holds.imports, length ▸ holds.balanced⟩

theorem Holds.miss (holds : p.Holds config pending admitted) (reason : SessionPoolKeyMissReason) :
    (p.bump (.bumpKeyMiss reason)).Holds config pending admitted :=
  holds.bump _ (by cases reason <;> rfl) (holds.balanced.miss reason)

theorem Holds.reuse (holds : p.Holds config 1 admitted) :
    (p.bump .bumpReused).Holds config 0 admitted :=
  ⟨holds.configured, Nat.le_of_succ_le holds.room, holds.imports, holds.balanced.reuse⟩

theorem Holds.evict (holds : p.Holds config 1 admitted) :
    (p.bump (.bumpStaleEvictions 1)).Holds config 0 admitted :=
  ⟨holds.configured, Nat.le_of_succ_le holds.room, holds.imports, holds.balanced.evict⟩

theorem Holds.imported (holds : p.Holds config 0 1) :
    (p.bump .bumpImported).Holds config 0 0 :=
  ⟨holds.configured, holds.room,
    fun limit set => Nat.le_trans (saturatingAdd_le _ 1) (holds.imports limit set),
    holds.balanced.imported⟩

theorem Holds.sweepStale (holds : p.Holds config 0 admitted) (live : Option UInt64) :
    (p.sweepStale live).Holds config 0 admitted := by
  have fewer :=
    List.length_filter_le (fun entry => live == some entry.extensionRegistryEpoch) p.free
  have room := holds.room
  unfold SessionPool.sweepStale
  dsimp only
  split
  · refine ⟨holds.configured, Nat.le_trans fewer room, holds.imports, PoolStats.Balanced.evict ?_⟩
    have total : p.free.length + 0 =
        (p.free.filter fun entry => live == some entry.extensionRegistryEpoch).length + 0 +
        (p.free.length -
          (p.free.filter fun entry => live == some entry.extensionRegistryEpoch).length) := by
      omega
    exact total ▸ holds.balanced
  · have same : (p.free.filter fun entry => live == some entry.extensionRegistryEpoch).length =
        p.free.length := by omega
    exact ⟨holds.configured, same ▸ room, holds.imports, same ▸ holds.balanced⟩

theorem Holds.release (holds : p.Holds config 0 admitted) (returned : PooledSession) :
    (p.release returned).Holds config 0 admitted := by
  unfold SessionPool.release
  split
  · rename_i free
    refine ⟨holds.configured, ?_, holds.imports, ?_⟩
    · rw [List.length_append, ← holds.configured]
      exact free
    · rw [List.length_append]
      exact holds.balanced.release
  · exact holds.bump _ rfl (holds.balanced.congr rfl)

theorem Holds.drain (holds : p.Holds config 0 admitted) : p.drain.2.Holds config 0 admitted :=
  ⟨holds.configured, Nat.zero_le _, holds.imports, holds.balanced.drain.congr rfl⟩

end SessionPool

section Acquire

variable {config : SessionPoolConfig} {admitted : Nat}

abbrev Process.Holds (config : SessionPoolConfig) (pending admitted : Nat) (s : Process) : Prop :=
  s.pool.Holds config pending admitted

def Keeping {A : Type} (config : SessionPoolConfig) (admitted : Nat) (m : PoolProcedure A) : Prop :=
  Triple (Process.Holds config 0 admitted) m (fun _ => Process.Holds config 0 admitted)
    fun _ => Process.Holds config 0 0

theorem onPool_keeping {f : SessionPool → SessionPool}
    (keeps : ∀ p : SessionPool, p.Holds config 0 admitted → (f p).Holds config 0 admitted) :
    Keeping config admitted (onPool f) := Triple.update fun s held => keeps s.pool held

theorem raise_keeping {A : Type} (err : LeanError) :
    Keeping config admitted (raise err : PoolProcedure A) :=
  Triple.raise fun _ held => held.settle

theorem refusal_keeping : Keeping config admitted (onPool (.bump .bumpFreshImportRefusal)) :=
  onPool_keeping fun _ held => held.bump _ rfl (held.balanced.congr rfl)

theorem sample_keeping (unavailable : Bool) :
    Keeping config admitted (onPool (.bump (.bumpRssSample unavailable))) :=
  onPool_keeping fun _ held => held.bump _ rfl (held.balanced.congr rfl)

theorem enforceImportLimit_admits (imports : Nat) :
    Triple (Process.Holds config 0 0) (enforceImportLimit imports)
      (fun _ => Process.Holds config 0 1) fun _ => Process.Holds config 0 0 := by
  intro s held
  unfold enforceImportLimit
  rw [bind_apply, read_apply, Outcome.andThen_returned, held.configured]
  cases set : config.memoryPolicy.maxFreshImports with
  | none =>
    refine ⟨held.configured, held.room, fun limit found => ?_, held.balanced⟩
    cases set.symm.trans found
  | some limit =>
    by_cases full : limit ≤ s.pool.stats.importsPerformed
    · simp only [if_pos full]
      have refuses := refusal_keeping s held
      exact refuses
    · simp only [if_neg full]
      refine ⟨held.configured, held.room, fun other found => ?_, held.balanced⟩
      cases set.symm.trans found
      exact Nat.lt_of_not_le full

theorem enforceRssCeiling_keeping (imports : Nat) (currentRssKib : Option Nat) :
    Keeping config admitted (enforceRssCeiling imports currentRssKib) := by
  intro s held
  unfold enforceRssCeiling
  rw [bind_apply, read_apply, Outcome.andThen_returned]
  cases s.pool.config.memoryPolicy.maxRssKib with
  | none => exact held
  | some limitKib =>
    have refuses (unavailable : Bool) (err : LeanError) :
        Keeping config admitted (A := Unit) (
          onPool (.bump (.bumpRssSample unavailable)) >>= fun _ =>
          onPool (.bump .bumpFreshImportRefusal) >>= fun _ => raise err) :=
      Triple.bind (sample_keeping unavailable) fun _ =>
        Triple.bind refusal_keeping fun _ => raise_keeping err
    cases currentRssKib with
    | none => exact refuses true _ s held
    | some currentKib =>
      by_cases reached : limitKib ≤ currentKib
      · simp only [if_pos reached]
        exact refuses false _ s held
      · simp only [if_neg reached]
        exact sample_keeping false s held

theorem enforceBeforeFreshImport_admits (imports : Nat) (currentRssKib : Option Nat) :
    Triple (Process.Holds config 0 0) (enforceBeforeFreshImport imports currentRssKib)
      (fun _ => Process.Holds config 0 1) fun _ => Process.Holds config 0 0 :=
  Triple.bind (enforceImportLimit_admits imports) fun _ =>
    enforceRssCeiling_keeping imports currentRssKib

theorem sessionWithProfile_keeping (key : SessionPoolKey) (a : AcquireAnswers) :
    Keeping config admitted (sessionWithProfile key a) := by
  refine Triple.bind (M := fun _ => Process.Holds config 0 admitted)
    (Triple.update fun _ held => held) fun _ s held => ?_
  rw [bind_apply, read_apply, Outcome.andThen_returned]
  cases a.imported with
  | ok answer => exact held
  | error err => exact held.settle

theorem importFresh_keeping (key : SessionPoolKey) (a : AcquireAnswers) :
    Keeping config 0 (importFresh key a) := by
  refine Triple.bind (enforceBeforeFreshImport_admits key.imports.length a.currentRssKib) fun _ =>
    Triple.bind (sessionWithProfile_keeping key a) fun session => ?_
  have remembered : Keeping config 1
      (onPool fun p => { p with lastImportStats := some session.importStats }) :=
    onPool_keeping fun _ held => ⟨held.configured, held.room, held.imports, held.balanced⟩
  refine Triple.bind remembered fun _ => Triple.bind (M := fun _ => Process.Holds config 0 0) ?_
    fun _ => Triple.pure fun _ held => held
  exact Triple.update fun _ held => held.imported

theorem takeMatched_holds (key : SessionPoolKey) (shims : Except LeanRs.LeanError Unit) :
    Triple (fun s => s.Holds config 0 0 ∧ ((takeMatching key s.pool.free).isSome → shims = .ok ()))
      (takeMatched key)
      (fun matched s => match matched with
        | .ok _ => s.Holds config 1 0 ∧ shims = .ok ()
        | .error _ => s.Holds config 0 0)
      fun _ => Process.Holds config 0 0 := by
  rintro s ⟨held, resolved⟩
  unfold takeMatched
  rw [bind_apply, read_apply, Outcome.andThen_returned]
  cases taken : takeMatching key s.pool.free with
  | none => exact held
  | some found =>
    rw [taken] at resolved
    exact ⟨held.take taken, resolved rfl⟩

theorem confirmLive_holds (session : LeanSession) :
    Triple (Process.Holds config 1 0) (confirmLive session) (fun _ => Process.Holds config 0 0)
      fun _ => Process.Holds config 0 0 := by
  intro s held
  unfold confirmLive
  rw [bind_apply, read_apply, Outcome.andThen_returned]
  split
  · exact held.reuse
  · exact held.evict.miss .staleEnvironment

theorem reuseMatched_holds (shims : Except LeanRs.LeanError Unit)
    (matched : Except SessionPoolKeyMissReason PooledEntry) :
    Triple (fun s => match matched with
        | .ok _ => s.Holds config 1 0 ∧ shims = .ok ()
        | .error _ => s.Holds config 0 0)
      (reuseMatched shims matched) (fun _ => Process.Holds config 0 0)
      fun _ => Process.Holds config 0 0 := by
  cases matched with
  | ok entry =>
    rintro s ⟨held, rfl⟩
    exact confirmLive_holds _ s held
  | error reason =>
    exact Triple.bind (onPool_keeping fun _ held => held.miss reason) fun _ =>
      Triple.pure fun _ held => held

theorem orImport_keeping (key : SessionPoolKey) (a : AcquireAnswers) (reused : Option LeanSession) :
    Keeping config 0 (orImport key a reused) := by
  cases reused with
  | some session => exact Triple.pure fun _ held => held
  | none => exact importFresh_keeping key a

theorem acquireWithProfile_holds (key : SessionPoolKey) (a : AcquireAnswers) :
    Triple (fun s => s.Holds config 0 0 ∧ (a.cancelled = false →
        (takeMatching key s.pool.free).isSome → a.shims = .ok ()))
      (acquireWithProfile key a) (fun _ => Process.Holds config 0 0)
      fun _ => Process.Holds config 0 0 := by
  refine Triple.bind (M := fun _ s => s.Holds config 0 0 ∧
    ((takeMatching key s.pool.free).isSome → a.shims = .ok ())) ?_ fun _ => ?_
  · rintro s ⟨held, resolved⟩
    unfold checkCancellation
    cases cancelled : a.cancelled with
    | true => exact held
    | false => exact ⟨held, resolved cancelled⟩
  refine Triple.bind (M := fun _ s => s.Holds config 0 0 ∧
    ((takeMatching key s.pool.free).isSome → a.shims = .ok ())) ?_ fun _ => ?_
  · rintro s ⟨held, resolved⟩
    refine ⟨held.rememberSeenKey key, ?_⟩
    rw [show (s.pool.rememberSeenKey key).free = s.pool.free from ?_]
    · exact resolved
    · unfold SessionPool.rememberSeenKey
      split <;> rfl
  refine Triple.bind (takeMatched_holds key a.shims) fun matched =>
    Triple.bind (reuseMatched_holds a.shims matched) fun reused =>
    Triple.bind (orImport_keeping key a reused) fun session => ?_
  exact Triple.bind (onPool_keeping fun _ held => held.sweepStale _) fun _ =>
    Triple.pure fun _ held => held

end Acquire

def LeanSession.Live (session : LeanSession) (s : Process) : Prop :=
  s.registries.extensionRegistryEpoch = .ok session.extensionRegistryEpoch

theorem confirmLive_live (session : LeanSession) :
    Triple (fun _ => True) (confirmLive session)
      (fun confirmed s => ∀ session ∈ confirmed, session.Live s) fun _ _ => True := by
  intro s _
  unfold confirmLive
  rw [bind_apply, read_apply, Outcome.andThen_returned]
  split
  · rename_i live
    rintro other ⟨⟩
    exact congrArg Except.ok (Option.some.inj live)
  · exact fun _ none => nomatch none

theorem reuseMatched_live (shims : Except LeanRs.LeanError Unit)
    (matched : Except SessionPoolKeyMissReason PooledEntry) :
    Triple (fun _ => True) (reuseMatched shims matched)
      (fun reused s => ∀ session ∈ reused, session.Live s) fun _ _ => True := by
  cases matched with
  | ok entry =>
    cases shims with
    | ok => exact fun s _ => confirmLive_live _ s trivial
    | error err => exact fun _ _ => trivial
  | error reason => exact fun _ _ _ none => nomatch none

theorem importFresh_live (key : SessionPoolKey) (a : AcquireAnswers) :
    Triple (fun _ => True) (importFresh key a) LeanSession.Live fun _ _ => True := by
  refine Triple.after _ fun _ => Triple.bind (M := LeanSession.Live) (fun s _ => ?_) fun session =>
    Triple.bind (M := fun _ => session.Live) (Triple.update fun _ live => live) fun _ =>
    Triple.bind (M := fun _ => session.Live) (Triple.update fun _ live => live) fun _ =>
    Triple.pure fun _ live => live
  unfold sessionWithProfile
  cases imported : a.imported with
  | ok answer => rfl
  | error err => trivial

theorem acquireWithProfile_live (key : SessionPoolKey) (a : AcquireAnswers) :
    Triple (fun _ => True) (acquireWithProfile key a)
      (fun acquired s => acquired.key = key ∧ acquired.session.Live s) fun _ _ => True := by
  refine Triple.after _ fun _ => Triple.after _ fun _ => Triple.after _ fun matched =>
    Triple.bind (reuseMatched_live a.shims matched) fun reused =>
    Triple.bind (M := LeanSession.Live) ?_ fun session =>
    Triple.bind (M := fun _ => session.Live) (Triple.update fun _ live => live) fun _ =>
    Triple.pure fun _ live => ⟨rfl, live⟩
  cases reused with
  | some session => exact Triple.pure fun _ live => live session rfl
  | none => exact fun s _ => importFresh_live key a s trivial

namespace Process

/-- The acquire takes an entry off the free list, and then fails over the shims. -/
def losesEntry (s : Process) : PoolAction → Bool
  | .acquire key a =>
    !a.cancelled && (takeMatching key s.pool.free).isSome && a.shims.toOption.isNone
  | _ => false

variable {config : SessionPoolConfig}

theorem step_holds (s : Process) (action : PoolAction) (t : Process) (held : s.Holds config 0 0)
    (keeps : s.losesEntry action = false) (moved : s.step action = some t) :
    t.Holds config 0 0 := by
  cases action with
  | acquire key a =>
    have resolved : a.cancelled = false → (takeMatching key s.pool.free).isSome →
        a.shims = .ok () := by
      intro running matched
      cases shims : a.shims with
      | ok => rfl
      | error err => simp [losesEntry, running, matched, shims, Except.toOption] at keeps
    have holds := acquireWithProfile_holds key a s ⟨held, resolved⟩
    simp only [step] at moved
    cases outcome : acquireWithProfile key a s with
    | returned session u =>
      rw [outcome] at moved holds
      exact Option.some.inj moved ▸ holds
    | raised err u =>
      rw [outcome] at moved holds
      exact Option.some.inj moved ▸ holds
    | waiting u =>
      rw [outcome] at moved
      cases moved
  | drop index =>
    obtain ⟨session, -, rfl⟩ := Option.map_eq_some_iff.mp moved
    exact held.release session
  | drain => exact Option.some.inj moved ▸ held.drain
  | elsewhere registered => exact Option.some.inj moved ▸ held

/-- What a pool has room for, what its counters say, and what it can hand out next. -/
structure Accounts (config : SessionPoolConfig) (s : Process) : Prop where
  room : s.pool.free.length ≤ config.capacity
  acquired : s.pool.stats.acquired = s.pool.stats.importsPerformed + s.pool.stats.reused
  hits : s.pool.stats.keyHits = s.pool.stats.reused
  misses : s.pool.stats.keyMisses = s.pool.stats.missEmptyPool + s.pool.stats.missReuseDisabled +
    s.pool.stats.missNoMatchingKey + s.pool.stats.missStaleEnvironment
  released : s.pool.stats.releasedToPool = s.pool.free.length + s.pool.stats.reused +
    s.pool.stats.drained + s.pool.stats.staleEvictions
  imports : ∀ limit, config.memoryPolicy.maxFreshImports = some limit →
    s.pool.stats.importsPerformed ≤ limit
  live : ∀ key a acquired t, acquireWithProfile key a s = .returned acquired t →
    acquired.key = key ∧
    t.registries.extensionRegistryEpoch = .ok acquired.session.extensionRegistryEpoch

end Process

/-- After every operation of a run in which no acquire fails over the shims of an entry it took,
the pool is within its bounds and accounts for every acquire, every miss and every entry; and
a session that can be acquired has the key asked for and the stamp of the process. -/
theorem reachable_sessions_account {config : SessionPoolConfig} {registries : Registries}
    {actions : List PoolAction} {s : Process}
    (kept : Runs.Guarded Process.step (fun s action => s.losesEntry action = false)
      (.new config registries) actions)
    (reached : Runs.run Process.step (.new config registries) actions = some s)
    (below : s.pool.stats.Unsaturated) : s.Accounts config := by
  have start : (Process.new config registries).Holds config 0 0 :=
    SessionPool.withConfig_holds config
  have held := Runs.invariant_of_guarded Process.step_holds start kept reached
  have accounts := held.balanced below
  refine ⟨held.room, accounts.acquired, accounts.hits, accounts.misses, accounts.released,
    held.imports, fun key a acquired t outcome => ?_⟩
  have live := acquireWithProfile_live key a s trivial
  rw [outcome] at live
  exact live

def plainImport : AcquireAnswers where
  imported := .ok (0, {})

def warmReuse : List PoolAction :=
  [.acquire ⟨"a", ["Init"], .private⟩ plainImport, .drop 0,
    .acquire ⟨"a", ["Init"], .private⟩ plainImport, .drop 0]

theorem warm_reuse_accounts : ∃ s : Process,
    Runs.run Process.step (.new ⟨1, {}⟩ ⟨0, 0, 0⟩) warmReuse = some s ∧
    s.pool.stats.releasedToPool = s.pool.free.length + s.pool.stats.reused +
      s.pool.stats.drained + s.pool.stats.staleEvictions := by
  have kept : Runs.Guarded Process.step (fun s action => s.losesEntry action = false)
      (.new ⟨1, {}⟩ ⟨0, 0, 0⟩) warmReuse :=
    .cons rfl rfl (.cons rfl rfl (.cons rfl rfl (.cons rfl rfl trivial)))
  refine ⟨_, rfl, (reachable_sessions_account kept rfl ?_).released⟩
  constructor <;> decide

def unresolvedShims : AcquireAnswers where
  shims := .error ⟨"host", "missing symbol"⟩
  imported := .ok (0, {})

theorem unresolved_shims_lose_entry : ∃ s : Process,
    Runs.run Process.step (.new ⟨1, {}⟩ ⟨0, 0, 0⟩)
      [.acquire ⟨"a", ["Init"], .private⟩ plainImport, .drop 0,
        .acquire ⟨"a", ["Init"], .private⟩ unresolvedShims] = some s ∧
    s.pool.stats.Unsaturated ∧
    s.pool.stats.releasedToPool ≠ s.pool.free.length + s.pool.stats.reused +
      s.pool.stats.drained + s.pool.stats.staleEvictions := by
  refine ⟨_, rfl, ?_, by decide⟩
  constructor <;> decide

end LeanRs.Host
