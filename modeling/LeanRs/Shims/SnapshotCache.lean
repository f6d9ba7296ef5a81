import LeanRs.Shims.CachePolicy
import Mathlib.Algebra.Order.BigOperators.Group.List

/-! The snapshot cache of the shim: what it counts, its bounds, what it evicts and what it finds
again. -/
namespace LeanRs

open Selection

section Entries

variable {S : Type} {entries : List (ModuleSnapshot S)} {maxEntries maxBytes : Nat}

theorem totalBytes_eq (entries : List (ModuleSnapshot S)) :
    totalBytes entries = (entries.map (·.approxBytes)).sum := by
  unfold totalBytes
  rw [← List.foldl_map, List.sum_eq_foldl]

def isFresh (nowMs ttlMillis : Nat) (entry : ModuleSnapshot S) : Bool :=
  ttlMillis != 0 && nowMs - entry.lastUsedMs < ttlMillis

theorem pruneExpired_entries (nowMs ttlMillis : Nat) (entries : List (ModuleSnapshot S)) :
    (pruneExpired nowMs ttlMillis entries).1 = entries.filter (isFresh nowMs ttlMillis) := by
  unfold pruneExpired isFresh
  by_cases off : ttlMillis = 0
  · simp [off]
  · rw [if_neg off]
    suffices ∀ kept : List (ModuleSnapshot S) × Nat × Bool,
        (entries.foldl (fun state entry =>
          if nowMs - entry.lastUsedMs ≥ ttlMillis then
            (state.1, state.2.1 + entry.approxBytes, true)
          else (state.1 ++ [entry], state.2.1, state.2.2)) kept).1 =
          kept.1 ++ entries.filter fun entry => ttlMillis != 0 &&
            nowMs - entry.lastUsedMs < ttlMillis from this ([], 0, false)
    induction entries with
    | nil => simp
    | cons entry rest ih =>
      intro kept
      rw [List.foldl_cons, ih]
      by_cases old : nowMs - entry.lastUsedMs ≥ ttlMillis
      · have gone : ¬nowMs - entry.lastUsedMs < ttlMillis := Nat.not_lt_of_le old
        simp [old, gone]
      · have young : nowMs - entry.lastUsedMs < ttlMillis := Nat.lt_of_not_ge old
        simp [old, young, off]

theorem enforceCacheLimits_bounds (maxEntries maxBytes : Nat)
    (entries : List (ModuleSnapshot S)) :
    (enforceCacheLimits maxEntries maxBytes entries).1.length ≤ maxEntries ∧
      totalBytes (enforceCacheLimits maxEntries maxBytes entries).1 ≤ maxBytes ∧
      (enforceCacheLimits maxEntries maxBytes entries).2.1 =
        totalBytes (enforceCacheLimits maxEntries maxBytes entries).1 := by
  fun_induction enforceCacheLimits maxEntries maxBytes entries with
  | case1 entries fits => exact ⟨fits.1, fits.2, rfl⟩
  | case2 entries => exact ⟨Nat.zero_le _, Nat.zero_le _, rfl⟩
  | case3 entries _ oldest _ ih => exact ih

theorem enforceCacheLimits_sublist (maxEntries maxBytes : Nat)
    (entries : List (ModuleSnapshot S)) :
    (enforceCacheLimits maxEntries maxBytes entries).1.Sublist entries := by
  fun_induction enforceCacheLimits maxEntries maxBytes entries with
  | case1 entries => exact List.Sublist.refl entries
  | case2 entries => exact List.nil_sublist entries
  | case3 entries _ oldest _ ih => exact ih.trans List.filter_sublist

def KeysDistinct (entries : List (ModuleSnapshot S)) : Prop := (entries.map (·.key)).Nodup

theorem KeysDistinct.sublist {fewer : List (ModuleSnapshot S)} (distinct : KeysDistinct entries)
    (part : fewer.Sublist entries) : KeysDistinct fewer :=
  List.Nodup.sublist (part.map _) distinct

theorem KeysDistinct.eq_of_key {e f : ModuleSnapshot S} (distinct : KeysDistinct entries)
    (first : e ∈ entries) (second : f ∈ entries) (same : e.key = f.key) : e = f :=
  List.inj_on_of_nodup_map distinct first second same

theorem oldest?_le {oldest e : ModuleSnapshot S} (found : oldest? entries = some oldest)
    (member : e ∈ entries) : oldest.lastUsedMs ≤ e.lastUsedMs := by
  unfold oldest? at found
  rw [foldl_keepBetter] at found
  exact List.le_of_mem_argmin member found

theorem enforceCacheLimits_recent {kept gone : ModuleSnapshot S} (distinct : KeysDistinct entries)
    (stays : kept ∈ (enforceCacheLimits maxEntries maxBytes entries).1) (member : gone ∈ entries)
    (leaves : gone ∉ (enforceCacheLimits maxEntries maxBytes entries).1) :
    gone.lastUsedMs ≤ kept.lastUsedMs := by
  fun_induction enforceCacheLimits maxEntries maxBytes entries with
  | case1 entries => exact absurd member leaves
  | case2 entries => cases stays
  | case3 entries _ oldest found ih =>
    have inside := (enforceCacheLimits_sublist _ _ _).subset stays
    by_cases same : gone.key = oldest.key
    · obtain rfl := distinct.eq_of_key member (oldest?_mem found) same
      exact oldest?_le found (List.mem_of_mem_filter inside)
    · refine ih (distinct.sublist List.filter_sublist) stays ?_ leaves
      exact List.mem_filter.mpr ⟨member, by simpa using same⟩

theorem oldest?_append {newest : ModuleSnapshot S} (some' : entries ≠ [])
    (latest : ∀ e ∈ entries, e.lastUsedMs ≤ newest.lastUsedMs) :
    ∃ oldest ∈ entries, oldest? (entries ++ [newest]) = some oldest := by
  cases found : entries.argmin ModuleSnapshot.lastUsedMs with
  | none => exact absurd (List.argmin_eq_none.mp found) some'
  | some oldest =>
    have member := List.argmin_mem found
    refine ⟨oldest, member, ?_⟩
    unfold oldest?
    rw [foldl_keepBetter, List.argmin_concat, found]
    exact if_neg (Nat.not_lt_of_le (latest oldest member))

theorem withoutKey_append {newest oldest : ModuleSnapshot S}
    (distinct : KeysDistinct (entries ++ [newest])) (member : oldest ∈ entries) :
    withoutKey oldest.key (entries ++ [newest]) = withoutKey oldest.key entries ++ [newest] := by
  have apart : newest.key ≠ oldest.key := by
    intro same
    unfold KeysDistinct at distinct
    rw [List.map_append, List.nodup_append] at distinct
    exact distinct.2.2 _ (List.mem_map_of_mem member) newest.key (by simp) same.symm
  unfold withoutKey
  rw [List.filter_append]
  simp [apart]

theorem enforceCacheLimits_newest {newest : ModuleSnapshot S} (room : 1 ≤ maxEntries)
    (fits : newest.approxBytes ≤ maxBytes) (distinct : KeysDistinct (entries ++ [newest]))
    (latest : ∀ e ∈ entries, e.lastUsedMs ≤ newest.lastUsedMs) :
    newest ∈ (enforceCacheLimits maxEntries maxBytes (entries ++ [newest])).1 := by
  -- the entries before the newest one, which grow fewer
  induction size : entries.length using Nat.strong_induction_on generalizing entries with
  | _ n ih =>
    by_cases alone : entries = []
    · subst alone
      have within : [newest].length ≤ maxEntries ∧ totalBytes [newest] ≤ maxBytes :=
        ⟨room, by simpa [totalBytes_eq] using fits⟩
      rw [List.nil_append, enforceCacheLimits, if_pos within]
      exact List.mem_singleton_self newest
    · obtain ⟨oldest, member, found⟩ := oldest?_append alone latest
      rw [enforceCacheLimits]
      split
      · simp
      · split
        · rename_i none
          rw [found] at none
          cases none
        · rename_i other same
          rw [found] at same
          cases same
          have part : (withoutKey oldest.key entries ++ [newest]).Sublist (entries ++ [newest]) :=
            List.Sublist.append List.filter_sublist (List.Sublist.refl _)
          rw [withoutKey_append distinct member]
          exact ih _ (size ▸ withoutKey_length_lt member) (distinct.sublist part)
            (fun e kept => latest e (List.mem_of_mem_filter kept)) rfl

theorem enforceCacheLimits_of_fits (few : entries.length ≤ maxEntries)
    (small : totalBytes entries ≤ maxBytes) :
    (enforceCacheLimits maxEntries maxBytes entries).1 = entries := by
  rw [enforceCacheLimits, if_pos ⟨few, small⟩]

theorem withoutKey_of_forall {key : String} (apart : ∀ e ∈ entries, e.key ≠ key) :
    withoutKey key entries = entries := by
  unfold withoutKey
  rw [List.filter_eq_self]
  exact fun e member => by simpa using apart e member

theorem perm_withoutKey {e : ModuleSnapshot S} (distinct : KeysDistinct entries)
    (member : e ∈ entries) : entries.Perm (e :: withoutKey e.key entries) := by
  induction entries with
  | nil => cases member
  | cons head rest ih =>
    obtain ⟨fresh, distinct⟩ := List.nodup_cons.mp distinct
    obtain rfl | member := List.mem_cons.mp member
    · have gone : withoutKey e.key (e :: rest) = withoutKey e.key rest := by simp [withoutKey]
      have others : ∀ f ∈ rest, f.key ≠ e.key := fun f inside same =>
        fresh (List.mem_map.mpr ⟨f, inside, same⟩)
      rw [gone, withoutKey_of_forall others]
    · have apart : head.key ≠ e.key := fun same =>
        fresh (List.mem_map.mpr ⟨e, member, same.symm⟩)
      have kept : withoutKey e.key (head :: rest) = head :: withoutKey e.key rest := by
        simp [withoutKey, apart]
      rw [kept]
      exact ((ih distinct member).cons head).trans (List.Perm.swap _ _ _)

end Entries

section Query

variable {S F : Type} {policy : ModuleQueryCachePolicy} {nowMs laterMs clock : Nat}
  {cache : ModuleSnapshotCacheState S}

/-- The cache counts what it holds, once for each key, and nothing in it is from the future. -/
structure Tidy (clock : Nat) (cache : ModuleSnapshotCacheState S) : Prop where
  counted : cache.approxBytes = totalBytes cache.entries
  distinct : KeysDistinct cache.entries
  past : ∀ e ∈ cache.entries, e.lastUsedMs ≤ clock

/-- The limits of a policy; each of them is at least one. -/
structure WithinLimits (policy : ModuleQueryCachePolicy) (cache : ModuleSnapshotCacheState S) :
    Prop where
  few : cache.entries.length ≤ policy.maxEntries.toNat.max 1
  small : totalBytes cache.entries ≤ policy.maxBytes.toNat.max 1

theorem Tidy.later (tidy : Tidy clock cache) (le : clock ≤ laterMs) : Tidy laterMs cache where
  counted := tidy.counted
  distinct := tidy.distinct
  past := fun e member => Nat.le_trans (tidy.past e member) le

theorem pruneCache_entries (policy : ModuleQueryCachePolicy) (nowMs : Nat)
    (cache : ModuleSnapshotCacheState S) :
    (pruneCache policy nowMs cache).1.entries =
      (enforceCacheLimits (policy.maxEntries.toNat.max 1) (policy.maxBytes.toNat.max 1)
        (cache.entries.filter (isFresh nowMs policy.ttlMillis.toNat))).1 := by
  unfold pruneCache
  rw [← pruneExpired_entries]

theorem pruneCache_sublist (policy : ModuleQueryCachePolicy) (nowMs : Nat)
    (cache : ModuleSnapshotCacheState S) :
    (pruneCache policy nowMs cache).1.entries.Sublist cache.entries := by
  rw [pruneCache_entries]
  exact (enforceCacheLimits_sublist _ _ _).trans List.filter_sublist

theorem pruneCache_within (policy : ModuleQueryCachePolicy) (nowMs : Nat)
    (cache : ModuleSnapshotCacheState S) :
    WithinLimits policy (pruneCache policy nowMs cache).1 := by
  obtain ⟨few, small, -⟩ := enforceCacheLimits_bounds (policy.maxEntries.toNat.max 1)
    (policy.maxBytes.toNat.max 1) (cache.entries.filter (isFresh nowMs policy.ttlMillis.toNat))
  rw [← pruneCache_entries] at few small
  exact ⟨few, small⟩

theorem Tidy.prune (tidy : Tidy clock cache) (policy : ModuleQueryCachePolicy) (nowMs : Nat) :
    Tidy clock (pruneCache policy nowMs cache).1 where
  counted := by
    unfold pruneCache
    exact (enforceCacheLimits_bounds _ _ _).2.2
  distinct := tidy.distinct.sublist (pruneCache_sublist policy nowMs cache)
  past := fun e member => tidy.past e ((pruneCache_sublist policy nowMs cache).subset member)

theorem pruneCache_of_within (within : WithinLimits policy cache) :
    (pruneCache policy nowMs cache).1.entries =
      cache.entries.filter (isFresh nowMs policy.ttlMillis.toNat) := by
  have part : (cache.entries.filter (isFresh nowMs policy.ttlMillis.toNat)).Sublist
      cache.entries := List.filter_sublist
  have fewer : totalBytes (cache.entries.filter (isFresh nowMs policy.ttlMillis.toNat)) ≤
      totalBytes cache.entries := by
    rw [totalBytes_eq, totalBytes_eq]
    exact List.Sublist.sum_le_sum (part.map _) fun _ _ => Nat.zero_le _
  rw [pruneCache_entries]
  exact enforceCacheLimits_of_fits (Nat.le_trans part.length_le within.few)
    (Nat.le_trans fewer within.small)

theorem pruneCache_recent {kept gone : ModuleSnapshot S} (distinct : KeysDistinct cache.entries)
    (stays : kept ∈ (pruneCache policy nowMs cache).1.entries) (member : gone ∈ cache.entries)
    (young : isFresh nowMs policy.ttlMillis.toNat gone = true)
    (leaves : gone ∉ (pruneCache policy nowMs cache).1.entries) :
    gone.lastUsedMs ≤ kept.lastUsedMs := by
  rw [pruneCache_entries] at stays leaves
  exact enforceCacheLimits_recent (distinct.sublist List.filter_sublist) stays
    (List.mem_filter.mpr ⟨member, young⟩) leaves

theorem findSnapshot?_some {key : String} {entries : List (ModuleSnapshot S)}
    {found : ModuleSnapshot S} (same : findSnapshot? key entries = some found) :
    found ∈ entries ∧ found.key = key := by
  refine ⟨List.mem_of_find?_eq_some same, ?_⟩
  simpa using List.find?_some same

theorem findSnapshot?_of_mem {entries : List (ModuleSnapshot S)} {e : ModuleSnapshot S}
    (distinct : KeysDistinct entries) (member : e ∈ entries) :
    findSnapshot? e.key entries = some e := by
  cases found : findSnapshot? e.key entries with
  | none =>
    unfold findSnapshot? at found
    rw [List.find?_eq_none] at found
    exact absurd (beq_self_eq_true e.key) (found e member)
  | some other =>
    obtain ⟨inside, same⟩ := findSnapshot?_some found
    rw [distinct.eq_of_key inside member same]

theorem KeysDistinct.upsert {entries : List (ModuleSnapshot S)} (distinct : KeysDistinct entries)
    (snapshot : ModuleSnapshot S) : KeysDistinct (upsertSnapshot snapshot entries) := by
  have others : snapshot.key ∉ (withoutKey snapshot.key entries).map (·.key) := by
    intro member
    obtain ⟨e, inside, same⟩ := List.mem_map.mp member
    have apart := (List.mem_filter.mp inside).2
    simp [same] at apart
  unfold KeysDistinct upsertSnapshot
  rw [List.map_append]
  exact List.Nodup.append (distinct.sublist List.filter_sublist) (List.nodup_singleton _)
    (List.disjoint_singleton.mpr others)

theorem mem_upsertSnapshot {entries : List (ModuleSnapshot S)} {snapshot e : ModuleSnapshot S}
    (member : e ∈ upsertSnapshot snapshot entries) : e ∈ entries ∨ e = snapshot := by
  obtain inside | last := List.mem_append.mp member
  · exact .inl (List.mem_of_mem_filter inside)
  · exact .inr (List.mem_singleton.mp last)

theorem perm_touch {found : ModuleSnapshot S} (distinct : KeysDistinct cache.entries)
    (member : found ∈ cache.entries) (nowMs : Nat) :
    ∃ others, cache.entries.Perm (found :: others) ∧
      (upsertSnapshot { found with lastUsedMs := nowMs } cache.entries).Perm
        ({ found with lastUsedMs := nowMs } :: others) :=
  ⟨withoutKey found.key cache.entries, perm_withoutKey distinct member,
    List.perm_append_singleton _ _⟩

theorem Tidy.touch {found : ModuleSnapshot S} (tidy : Tidy clock cache)
    (member : found ∈ cache.entries) (le : clock ≤ nowMs) :
    Tidy nowMs { cache with
      entries := upsertSnapshot { found with lastUsedMs := nowMs } cache.entries } := by
  obtain ⟨others, before, after⟩ := perm_touch tidy.distinct member nowMs
  refine ⟨?_, tidy.distinct.upsert _, fun e inside => ?_⟩
  · dsimp only
    rw [tidy.counted, totalBytes_eq, totalBytes_eq, (before.map _).sum_eq, (after.map _).sum_eq]
    rfl
  · obtain old | rfl := mem_upsertSnapshot inside
    · exact Nat.le_trans (tidy.past e old) le
    · exact Nat.le_refl _

theorem newestSameFileSnapshot?_mem {fileIdentity : String} {entries : List (ModuleSnapshot S)}
    {newest : ModuleSnapshot S}
    (found : newestSameFileSnapshot? fileIdentity entries = some newest) :
    newest ∈ entries := by
  unfold newestSameFileSnapshot? at found
  obtain impossible | member := foldl_picks (fun best? entry => by grind) found
  · cases impossible
  · exact member

inductive Queried
    (build : ModuleQueryCachePolicy → Option (ModuleSnapshot S) → Except F (ModuleSnapshot S))
    (policy : ModuleQueryCachePolicy) (nowMs laterMs : Nat)
    (cache1 : ModuleSnapshotCacheState S) :
    ModuleSnapshotCacheState S × ModuleQueryCacheStatus × Except F (ModuleSnapshot S) → Prop where
  /-- A snapshot under the key answers. -/
  | hit (found : ModuleSnapshot S) (member : found ∈ cache1.entries)
    (key : found.key = policy.key) :
    Queried build policy nowMs laterMs cache1
      ({ cache1 with entries := upsertSnapshot { found with lastUsedMs := nowMs } cache1.entries },
        .hit, .ok { found with lastUsedMs := nowMs })
  | failed (absent : findSnapshot? policy.key cache1.entries = none) (failure : F)
    (status : ModuleQueryCacheStatus) (missed : status ≠ .hit)
    (failing : build policy (newestSameFileSnapshot? policy.fileIdentity cache1.entries) =
      .error failure) :
    Queried build policy nowMs laterMs cache1 (cache1, status, .error failure)
  /-- A snapshot that is larger than the cache is not filed. -/
  | oversized (absent : findSnapshot? policy.key cache1.entries = none)
    (snapshot : ModuleSnapshot S) (status : ModuleQueryCacheStatus) (missed : status ≠ .hit)
    (built : build policy (newestSameFileSnapshot? policy.fileIdentity cache1.entries) =
      .ok snapshot) (large : snapshot.approxBytes > policy.maxBytes.toNat) :
    Queried build policy nowMs laterMs cache1
      ((pruneCache policy laterMs cache1).1, status, .ok snapshot)
  | filed (absent : findSnapshot? policy.key cache1.entries = none)
    (snapshot : ModuleSnapshot S) (status : ModuleQueryCacheStatus) (missed : status ≠ .hit)
    (built : build policy (newestSameFileSnapshot? policy.fileIdentity cache1.entries) =
      .ok snapshot) (small : snapshot.approxBytes ≤ policy.maxBytes.toNat) :
    Queried build policy nowMs laterMs cache1
      ((pruneCache policy laterMs ⟨upsertSnapshot snapshot cache1.entries,
        totalBytes (upsertSnapshot snapshot cache1.entries)⟩).1, status, .ok snapshot)

theorem processModuleQueryBatchCached_cases
    (build : ModuleQueryCachePolicy → Option (ModuleSnapshot S) → Except F (ModuleSnapshot S))
    (policyRaw : String) (nowMs laterMs : Nat) (cache0 : ModuleSnapshotCacheState S) :
    Queried build (parseCachePolicy policyRaw) nowMs laterMs
      (pruneCache (parseCachePolicy policyRaw) nowMs cache0).1
      (processModuleQueryBatchCached build policyRaw nowMs laterMs cache0) := by
  unfold processModuleQueryBatchCached
  generalize parseCachePolicy policyRaw = policy
  dsimp only
  generalize pruneCache policy nowMs cache0 = pruned
  obtain ⟨cache1, evicted⟩ := pruned
  dsimp only
  have missed : (if hasFileIdentity policy.fileIdentity cache1.entries = true then
      ModuleQueryCacheStatus.rebuilt else if evicted = true then .evicted else .miss) ≠ .hit := by
    split
    · decide
    · split <;> decide
  cases looked : findSnapshot? policy.key cache1.entries with
  | some found =>
    obtain ⟨member, key⟩ := findSnapshot?_some looked
    exact .hit found member key
  | none =>
    dsimp only
    cases built : build policy (newestSameFileSnapshot? policy.fileIdentity cache1.entries) with
    | error failure => exact .failed looked failure _ missed built
    | ok snapshot =>
      dsimp only
      by_cases large : snapshot.approxBytes > policy.maxBytes.toNat
      · rw [if_pos large]
        exact .oversized looked snapshot _ missed built large
      · rw [if_neg large]
        exact .filed looked snapshot _ missed built (Nat.le_of_not_gt large)

variable {build : ModuleQueryCachePolicy → Option (ModuleSnapshot S) →
    Except F (ModuleSnapshot S)}
  {outcome : ModuleSnapshotCacheState S × ModuleQueryCacheStatus × Except F (ModuleSnapshot S)}

theorem WithinLimits.touch {found : ModuleSnapshot S} (within : WithinLimits policy cache)
    (distinct : KeysDistinct cache.entries) (member : found ∈ cache.entries) :
    WithinLimits policy { cache with
      entries := upsertSnapshot { found with lastUsedMs := nowMs } cache.entries } := by
  obtain ⟨others, before, after⟩ := perm_touch distinct member nowMs
  have few := within.few
  have small := within.small
  rw [before.length_eq] at few
  rw [totalBytes_eq, (before.map _).sum_eq] at small
  refine ⟨?_, ?_⟩
  · dsimp only
    rw [after.length_eq]
    exact few
  · dsimp only
    rw [totalBytes_eq, (after.map _).sum_eq]
    exact small

theorem Tidy.file {snapshot : ModuleSnapshot S} (tidy : Tidy clock cache)
    (dated : snapshot.lastUsedMs ≤ clock) :
    Tidy clock ⟨upsertSnapshot snapshot cache.entries,
      totalBytes (upsertSnapshot snapshot cache.entries)⟩ where
  counted := rfl
  distinct := tidy.distinct.upsert snapshot
  past := fun e member => by
    obtain old | rfl := mem_upsertSnapshot member
    · exact tidy.past e old
    · exact dated

theorem Queried.tidy (queried : Queried build policy nowMs laterMs cache outcome)
    (tidy : Tidy nowMs cache) (within : WithinLimits policy cache) (onward : nowMs ≤ laterMs)
    (dated : ∀ old? snapshot, build policy old? = .ok snapshot → snapshot.lastUsedMs ≤ laterMs) :
    Tidy laterMs outcome.1 ∧ WithinLimits policy outcome.1 := by
  cases queried with
  | hit found member key =>
    exact ⟨(tidy.touch member (Nat.le_refl _)).later onward,
      within.touch tidy.distinct member⟩
  | failed absent failure status missed failing => exact ⟨tidy.later onward, within⟩
  | oversized absent snapshot status missed built large =>
    exact ⟨(tidy.later onward).prune policy laterMs, pruneCache_within policy laterMs cache⟩
  | filed absent snapshot status missed built small =>
    exact ⟨((tidy.later onward).file (dated _ _ built)).prune policy laterMs,
      pruneCache_within policy laterMs _⟩

theorem filed_stays {snapshot : ModuleSnapshot S} (tidy : Tidy nowMs cache)
    (latest : nowMs ≤ snapshot.lastUsedMs) (small : snapshot.approxBytes ≤ policy.maxBytes.toNat)
    (fresh : isFresh laterMs policy.ttlMillis.toNat snapshot = true) :
    snapshot ∈ (pruneCache policy laterMs ⟨upsertSnapshot snapshot cache.entries,
      totalBytes (upsertSnapshot snapshot cache.entries)⟩).1.entries := by
  have kept : (upsertSnapshot snapshot cache.entries).filter
      (isFresh laterMs policy.ttlMillis.toNat) = (withoutKey snapshot.key cache.entries).filter
        (isFresh laterMs policy.ttlMillis.toNat) ++ [snapshot] := by
    unfold upsertSnapshot
    rw [List.filter_append, List.filter_singleton, fresh]
    rfl
  have distinct := (tidy.distinct.upsert snapshot).sublist
    (List.filter_sublist (p := isFresh laterMs policy.ttlMillis.toNat))
  rw [pruneCache_entries, kept]
  rw [kept] at distinct
  refine enforceCacheLimits_newest (Nat.le_max_right _ _)
    (Nat.le_trans small (Nat.le_max_left _ _)) distinct fun e member => ?_
  have old := List.mem_of_mem_filter (List.mem_of_mem_filter member)
  exact Nat.le_trans (tidy.past e old) latest

theorem processModuleQueryBatchCached_hit {policyRaw : String} {snapshot : ModuleSnapshot S}
    (distinct : KeysDistinct cache.entries)
    (within : WithinLimits (parseCachePolicy policyRaw) cache) (member : snapshot ∈ cache.entries)
    (key : snapshot.key = (parseCachePolicy policyRaw).key)
    (fresh : isFresh nowMs (parseCachePolicy policyRaw).ttlMillis.toNat snapshot = true) :
    (processModuleQueryBatchCached build policyRaw nowMs laterMs cache).2 =
      (.hit, .ok { snapshot with lastUsedMs := nowMs }) := by
  have there : snapshot ∈ (pruneCache (parseCachePolicy policyRaw) nowMs cache).1.entries := by
    rw [pruneCache_of_within within]
    exact List.mem_filter.mpr ⟨member, fresh⟩
  have found := findSnapshot?_of_mem (distinct.sublist (pruneCache_sublist _ _ _)) there
  rw [key] at found
  unfold processModuleQueryBatchCached
  dsimp only
  rw [found]

theorem mem_withoutKey {key : String} {entries : List (ModuleSnapshot S)} {e : ModuleSnapshot S} :
    e ∈ withoutKey key entries ↔ e ∈ entries ∧ e.key ≠ key := by
  unfold withoutKey
  rw [List.mem_filter, bne_iff_ne]

theorem Queried.origin (queried : Queried build policy nowMs laterMs cache outcome)
    (dated : ∀ old? snapshot, build policy old? = .ok snapshot → nowMs ≤ snapshot.lastUsedMs)
    {kept : ModuleSnapshot S} (stays : kept ∈ outcome.1.entries) :
    kept ∈ cache.entries ∨ nowMs ≤ kept.lastUsedMs := by
  cases queried with
  | hit found member key =>
    obtain old | rfl := mem_upsertSnapshot stays
    · exact .inl old
    · exact .inr (Nat.le_refl _)
  | failed absent failure status missed failing => exact .inl stays
  | oversized absent snapshot status missed built large =>
    exact .inl ((pruneCache_sublist _ _ _).subset stays)
  | filed absent snapshot status missed built small =>
    obtain old | rfl := mem_upsertSnapshot ((pruneCache_sublist _ _ _).subset stays)
    · exact .inl old
    · exact .inr (dated _ _ built)

theorem Queried.recent (queried : Queried build policy nowMs laterMs cache outcome)
    (distinct : KeysDistinct cache.entries)
    (keyed : ∀ old? snapshot, build policy old? = .ok snapshot → snapshot.key = policy.key)
    {kept gone : ModuleSnapshot S} (stays : kept ∈ outcome.1.entries)
    (member : gone ∈ cache.entries) (other : gone.key ≠ policy.key)
    (fresh : isFresh laterMs policy.ttlMillis.toNat gone = true)
    (leaves : gone ∉ outcome.1.entries) : gone.lastUsedMs ≤ kept.lastUsedMs := by
  cases queried with
  | hit found inside key =>
    refine absurd (List.mem_append_left _ (mem_withoutKey.mpr ⟨member, ?_⟩)) leaves
    exact fun same => other (same.trans key)
  | failed absent failure status missed failing => exact absurd member leaves
  | oversized absent snapshot status missed built large =>
    exact pruneCache_recent distinct stays member fresh leaves
  | filed absent snapshot status missed built small =>
    refine pruneCache_recent (distinct.upsert snapshot) stays (List.mem_append_left _
      (mem_withoutKey.mpr ⟨member, ?_⟩)) fresh leaves
    exact fun same => other (same.trans (keyed _ _ built))

theorem isFresh_earlier {ttlMillis : Nat} {entry : ModuleSnapshot S} (le : nowMs ≤ laterMs)
    (fresh : isFresh laterMs ttlMillis entry = true) : isFresh nowMs ttlMillis entry = true := by
  unfold isFresh at fresh ⊢
  simp only [Bool.and_eq_true, bne_iff_ne, decide_eq_true_eq] at fresh ⊢
  omega

/-- A snapshot that has not expired leaves the cache only if all that stay have been used as late:
the least recently used ones go first. -/
theorem processModuleQueryBatchCached_recent {policyRaw : String}
    (tidy : Tidy nowMs cache) (onward : nowMs ≤ laterMs)
    (keyed : ∀ old? snapshot, build (parseCachePolicy policyRaw) old? = .ok snapshot →
      snapshot.key = (parseCachePolicy policyRaw).key ∧ nowMs ≤ snapshot.lastUsedMs)
    {kept gone : ModuleSnapshot S}
    (stays : kept ∈ (processModuleQueryBatchCached build policyRaw nowMs laterMs
      cache).1.entries)
    (member : gone ∈ cache.entries) (other : gone.key ≠ (parseCachePolicy policyRaw).key)
    (fresh : isFresh laterMs (parseCachePolicy policyRaw).ttlMillis.toNat gone = true)
    (leaves : gone ∉ (processModuleQueryBatchCached build policyRaw nowMs laterMs
      cache).1.entries) : gone.lastUsedMs ≤ kept.lastUsedMs := by
  have queried := processModuleQueryBatchCached_cases build policyRaw nowMs laterMs cache
  by_cases first : gone ∈ (pruneCache (parseCachePolicy policyRaw) nowMs cache).1.entries
  · exact queried.recent (tidy.distinct.sublist (pruneCache_sublist _ _ _))
      (fun old? snapshot built => (keyed old? snapshot built).1) stays first other fresh leaves
  · obtain old | young := queried.origin (fun old? snapshot built => (keyed old? snapshot built).2)
      stays
    · exact pruneCache_recent tidy.distinct old member (isFresh_earlier onward fresh) first
    · exact Nat.le_trans (tidy.past gone member) young

end Query

end LeanRs
