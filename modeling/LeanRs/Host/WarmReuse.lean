import LeanRs.Host.Conservation

/-! When the host's pool reuses a warm environment: the free list may hold one that still has the
stamp of the process, and an older one of the same key that was released after it. -/
namespace LeanRs.Host

open Procedures Procedure

def PooledEntry.session (entry : PooledEntry) : LeanSession :=
  ⟨entry.environment, entry.importStats, entry.extensionRegistryEpoch⟩

namespace Process

/-- The free list holds an environment of the key with the stamp of the process. -/
def Warm (s : Process) (key : SessionPoolKey) : Prop :=
  ∃ entry ∈ s.pool.free, entry.key = key ∧ entry.session.Live s

def Reuses (s : Process) (key : SessionPoolKey) (a : AcquireAnswers) : Prop :=
  ∃ acquired t, acquireWithProfile key a s = .returned acquired t ∧ t.imports = s.imports ∧
    ∃ entry ∈ s.pool.free, entry.key = key ∧ entry.session.Live s ∧
      acquired = ⟨key, entry.session⟩

/-- Of the environments of the key, the one that was released last has the stamp. -/
def LastReleasedLive (s : Process) (key : SessionPoolKey) : Prop :=
  ∃ older entry newer, s.pool.free = older ++ entry :: newer ∧ entry.key = key ∧
    (∀ other ∈ newer, other.key ≠ key) ∧ entry.session.Live s

end Process

def Stays (s t : Process) : Prop := t.imports = s.imports ∧ t.registries = s.registries

instance : Std.Refl Stays := ⟨fun _ => ⟨rfl, rfl⟩⟩

instance : IsTrans Process Stays :=
  ⟨fun _ _ _ first next => ⟨next.1.trans first.1, next.2.trans first.2⟩⟩

theorem enforceBeforeFreshImport_stays (imports : Nat) (currentRssKib : Option Nat) :
    Moves Stays (enforceBeforeFreshImport imports currentRssKib) := by
  refine Moves.bind (fun s => ?_) fun _ s => ?_
  · unfold enforceImportLimit
    rw [bind_apply, read_apply, Outcome.andThen_returned]
    cases s.pool.config.memoryPolicy.maxFreshImports with
    | none => exact ⟨rfl, rfl⟩
    | some limit =>
      by_cases full : limit ≤ s.pool.stats.importsPerformed <;> simp [full] <;> exact ⟨rfl, rfl⟩
  · unfold enforceRssCeiling
    rw [bind_apply, read_apply, Outcome.andThen_returned]
    cases s.pool.config.memoryPolicy.maxRssKib with
    | none => exact ⟨rfl, rfl⟩
    | some limitKib =>
      cases currentRssKib with
      | none => exact ⟨rfl, rfl⟩
      | some currentKib =>
        by_cases reached : limitKib ≤ currentKib <;> simp [reached] <;> exact ⟨rfl, rfl⟩

theorem importFresh_imports (key : SessionPoolKey) (a : AcquireAnswers)
    (imports : List SessionPoolKey) :
    Triple (fun s => s.imports = imports) (importFresh key a)
      (fun _ s => s.imports = imports ++ [key]) fun _ _ => True := by
  refine Triple.bind (M := fun _ s => s.imports = imports) (fun s same => ?_) fun _ =>
    Triple.bind (M := fun _ s => s.imports = imports ++ [key]) (fun s same => ?_) fun session =>
    Triple.bind (M := fun _ s => s.imports = imports ++ [key])
      (Triple.update fun _ same => same) fun _ =>
    Triple.bind (M := fun _ s => s.imports = imports ++ [key])
      (Triple.update fun _ same => same) fun _ =>
    Triple.pure fun _ same => same
  · have stays := enforceBeforeFreshImport_stays key.imports.length a.currentRssKib s
    cases outcome : enforceBeforeFreshImport key.imports.length a.currentRssKib s with
    | returned u t =>
      rw [outcome] at stays
      exact stays.1.trans same
    | raised err t => trivial
    | waiting t => trivial
  · unfold sessionWithProfile
    cases a.imported with
    | ok answer => exact congrArg (· ++ [key]) same
    | error err => trivial

theorem acquireWithProfile_matched {s : Process} {key : SessionPoolKey} {a : AcquireAnswers}
    {entry : PooledEntry} {rest : List PooledEntry} (running : a.cancelled = false)
    (resolved : a.shims = .ok ()) (taken : takeMatching key s.pool.free = some (entry, rest)) :
    ∃ p, acquireWithProfile key a s =
      (confirmLive entry.session { s with pool := p }).andThen fun reused =>
        orImport key a reused >>= fun session =>
          onPool (.sweepStale (some session.extensionRegistryEpoch)) >>= fun _ =>
            pure ⟨key, session⟩ := by
  have same : (s.pool.rememberSeenKey key).free = s.pool.free := by
    unfold SessionPool.rememberSeenKey
    split <;> rfl
  refine ⟨{ s.pool.rememberSeenKey key with free := rest }, ?_⟩
  unfold acquireWithProfile checkCancellation takeMatched
  rw [running, resolved]
  simp [onPool, same, taken, reuseMatched, fromEnvironmentWithImportStats, PooledEntry.session]

theorem takeMatching_of_last {key : SessionPoolKey} {older newer : List PooledEntry}
    {entry : PooledEntry} (keyed : entry.key = key) (last : ∀ other ∈ newer, other.key ≠ key) :
    ∃ rest, takeMatching key (older ++ entry :: newer) = some (entry, rest) := by
  have absent : (newer.reverse.find? fun entry => entry.key == key) = none := by
    rw [List.find?_eq_none]
    intro other member
    simpa using last other (List.mem_reverse.mp member)
  unfold takeMatching
  rw [List.reverse_append, List.reverse_cons, List.append_assoc, List.find?_append, absent]
  simp [keyed]

theorem acquireWithProfile_reuses {s : Process} {key : SessionPoolKey} {a : AcquireAnswers}
    {entry : PooledEntry} {rest : List PooledEntry} (running : a.cancelled = false)
    (resolved : a.shims = .ok ()) (taken : takeMatching key s.pool.free = some (entry, rest))
    (live : entry.session.Live s) : s.Reuses key a := by
  obtain ⟨p, outcome⟩ := acquireWithProfile_matched running resolved taken
  obtain ⟨older, newer, front, -, keyed, -⟩ := takeMatching_some taken
  have member : entry ∈ s.pool.free := by simp [front]
  have stamp : s.registries.extensionRegistryEpoch.toOption =
      some entry.session.extensionRegistryEpoch := by
    rw [live]
    rfl
  have reused : acquireWithProfile key a s = .returned ⟨key, entry.session⟩ { s with
      pool := (p.bump .bumpReused).sweepStale (some entry.extensionRegistryEpoch) } := by
    rw [outcome, confirmLive, bind_apply, read_apply, Outcome.andThen_returned, if_pos stamp]
    rfl
  exact ⟨_, _, reused, rfl, entry, member, keyed, live, rfl⟩

theorem acquireWithProfile_imports {s : Process} {key : SessionPoolKey} {a : AcquireAnswers}
    {entry : PooledEntry} {rest : List PooledEntry} (running : a.cancelled = false)
    (resolved : a.shims = .ok ()) (taken : takeMatching key s.pool.free = some (entry, rest))
    (stale : ¬entry.session.Live s) :
    (acquireWithProfile key a s).Meets (fun _ t => t.imports = s.imports ++ [key])
      fun _ _ => True := by
  obtain ⟨p, outcome⟩ := acquireWithProfile_matched running resolved taken
  have stamp : ¬s.registries.extensionRegistryEpoch.toOption =
      some entry.session.extensionRegistryEpoch := by
    intro same
    exact stale (congrArg Except.ok (Option.some.inj same))
  rw [outcome, confirmLive, bind_apply, read_apply, Outcome.andThen_returned, if_neg stamp]
  refine Triple.bind (importFresh_imports key a s.imports) (fun session =>
    Triple.bind (M := fun _ t => t.imports = s.imports ++ [key])
      (Triple.update fun _ same => same) fun _ => Triple.pure fun _ same => same) _ ?_
  rfl

/-- An acquire that finds a warm environment reuses one exactly when the environment of its key
that was released last is one. -/
theorem acquire_reuses_iff (s : Process) (key : SessionPoolKey) (a : AcquireAnswers)
    (running : a.cancelled = false) (resolved : a.shims = .ok ()) (warm : s.Warm key) :
    s.Reuses key a ↔ s.LastReleasedLive key := by
  obtain ⟨other, member, same, -⟩ := warm
  cases taken : takeMatching key s.pool.free with
  | none => exact absurd same (takeMatching_none.mp taken other member)
  | some found =>
    obtain ⟨entry, rest⟩ := found
    obtain ⟨older, newer, front, -, keyed, last⟩ := takeMatching_some taken
    constructor
    · rintro ⟨acquired, t, outcome, unchanged, -⟩
      refine ⟨older, entry, newer, front, keyed, last, ?_⟩
      by_contra stale
      have imports := acquireWithProfile_imports running resolved taken stale
      rw [outcome] at imports
      have grown : s.imports ++ [key] = s.imports := imports.symm.trans unchanged
      simp at grown
    · rintro ⟨older', entry', newer', front', keyed', last', live⟩
      have found : ∃ rest, takeMatching key (older' ++ entry' :: newer') = some (entry', rest) :=
        takeMatching_of_last keyed' last'
      rw [← front'] at found
      obtain ⟨rest', taken'⟩ := found
      exact acquireWithProfile_reuses running resolved taken' live

/-- An environment that was imported and released. -/
theorem released_environment_is_reused : ∃ s : Process,
    Runs.run Process.step (.new ⟨1, {}⟩ ⟨0, 0, 0⟩)
      [.acquire ⟨"a", ["Init"], .private⟩ plainImport, .drop 0] = some s ∧
    s.Reuses ⟨"a", ["Init"], .private⟩ plainImport := by
  refine ⟨_, rfl, (acquire_reuses_iff _ _ _ rfl rfl ?_).mpr ?_⟩
  · exact ⟨_, List.mem_singleton.mpr rfl, rfl, rfl⟩
  · exact ⟨[], _, [], rfl, rfl, List.forall_mem_nil _, rfl⟩

/-- Two checkouts of one key, the first older than an import elsewhere in the process and released
after the second. -/
def releasedOutOfOrder : List PoolAction :=
  [.acquire ⟨"a", ["Init"], .private⟩ plainImport, .elsewhere ⟨0, 1, 0⟩,
    .acquire ⟨"a", ["Init"], .private⟩ plainImport, .drop 1, .drop 0]

/-- The pool refuses the acquire, with an environment that it could have handed out. -/
theorem stale_release_hides_warm_environment : ∃ s : Process,
    Runs.run Process.step (.new ⟨2, ⟨some 2, none⟩⟩ ⟨0, 0, 0⟩) releasedOutOfOrder = some s ∧
    s.Warm ⟨"a", ["Init"], .private⟩ ∧
    (∃ message facts t, acquireWithProfile ⟨"a", ["Init"], .private⟩ plainImport s =
      .raised (.resourceExhausted message facts) t) ∧
    ¬s.Reuses ⟨"a", ["Init"], .private⟩ plainImport := by
  refine ⟨_, rfl, ⟨_, List.mem_cons_self, rfl, rfl⟩, ⟨_, _, _, rfl⟩, ?_⟩
  rintro ⟨acquired, t, outcome, -⟩
  cases outcome

end LeanRs.Host
