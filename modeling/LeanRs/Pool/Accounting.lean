import LeanRs.Pool.Pool

/-! What every run of a pool keeps: one entry for each key, room for all of them, and counters that
agree with each other and with the calls. -/
namespace LeanRs

open Procedures Procedure Supervisor

def PoolEntry.tenancy (entry : PoolEntry) : LeanWorkerSessionKey × Nat :=
  (entry.key, entry.activeLeases)

def SameTenancy (s t : EntryWorld) : Prop := t.entry.tenancy = s.entry.tenancy

instance : Std.Refl SameTenancy := ⟨fun _ => rfl⟩

instance : IsTrans EntryWorld SameTenancy where
  trans _ _ _ first second := Eq.trans second first

theorem onWorker_tenancy {A : Type} (m : WorkerProcedure A) :
    Moves SameTenancy (PoolEntry.onWorker m) := .focus fun _ => rfl

theorem modify_tenancy (f : PoolEntry → PoolEntry)
    (same : ∀ entry, (f entry).tenancy = entry.tenancy) :
    Moves SameTenancy (PoolEntry.modify f) :=
  fun s => same s.entry

theorem sampleRss_tenancy (entry : PoolEntry) (sample : Option Nat) :
    (entry.sampleRss sample).2.tenancy = entry.tenancy := by
  unfold PoolEntry.sampleRss
  cases entry.worker.childRssKib sample <;> rfl

theorem cycleForPolicy_tenancy (reason : LeanWorkerRestartReason) (a : PoolEntry.PolicyAnswers) :
    Moves SameTenancy (PoolEntry.cycleForPolicy reason a) :=
  .bind (onWorker_tenancy _) fun _ => modify_tenancy _ fun _ => rfl

theorem ceilingReached_tenancy (config : LeanWorkerPoolConfig) (sample : Option Nat) :
    Moves SameTenancy (PoolEntry.ceilingReached config sample) := by
  unfold PoolEntry.ceilingReached
  cases config.perWorkerRssCeilingKib with
  | none => exact .pure _
  | some limitKib => exact fun s => sampleRss_tenancy s.entry sample

theorem enforcePolicy_tenancy (config : LeanWorkerPoolConfig) (a : PoolEntry.PolicyAnswers) :
    Moves SameTenancy (PoolEntry.enforcePolicy config a) := by
  refine .bind (ceilingReached_tenancy config a.rss) fun reached => ?_
  cases reached with
  | some sample =>
    exact .bind .read fun _ => .bind (cycleForPolicy_tenancy _ a) fun _ => .pure _
  | none =>
    cases config.idleCycleAfter with
    | none => exact .pure _
    | some limit =>
      exact .choose (fun _ => .bind (cycleForPolicy_tenancy _ a) fun _ => .pure _)
        fun _ => .pure _

def LeanWorkerPool.books (pool : LeanWorkerPool) : LeanWorkerPool := { pool with entries := [] }

def LeanWorkerPool.tenancies (pool : LeanWorkerPool) : List (LeanWorkerSessionKey × Nat) :=
  pool.entries.map PoolEntry.tenancy

structure Untouched (s t : PoolWorld) : Prop where
  books : t.pool.books = s.pool.books
  tenancies : t.pool.tenancies = s.pool.tenancies

instance : Std.Refl Untouched := ⟨fun _ => ⟨rfl, rfl⟩⟩

instance : IsTrans PoolWorld Untouched where
  trans _ _ _ first second :=
    ⟨second.books.trans first.books, second.tenancies.trans first.tenancies⟩

theorem map_set_of_same {A B : Type} (f : A → B) {entries : List A} {index : Nat} {a b : A}
    (found : entries[index]? = some a) (same : f b = f a) :
    (entries.set index b).map f = entries.map f := by
  obtain ⟨bound, rfl⟩ := List.getElem?_eq_some_iff.mp found
  rw [List.map_set, same, ← List.getElem_map f (h := by simpa using bound)]
  exact List.set_getElem_self _

def Distinct (entries : List PoolEntry) : Prop :=
  entries.Pairwise fun e f => (e.key == f.key) = false

theorem distinct_congr {entries entries' : List PoolEntry} (distinct : Distinct entries)
    (same : entries'.map PoolEntry.key = entries.map PoolEntry.key) : Distinct entries' := by
  unfold Distinct at distinct ⊢
  rw [← List.pairwise_map (f := PoolEntry.key) (R := fun k l => (k == l) = false)] at distinct ⊢
  rwa [same]

theorem distinct_set {entries : List PoolEntry} {index : Nat} {entry entry' : PoolEntry}
    (distinct : Distinct entries) (found : entries[index]? = some entry)
    (same : entry'.key = entry.key) : Distinct (entries.set index entry') :=
  distinct_congr distinct (map_set_of_same PoolEntry.key found same)

theorem onEntryAt_untouched {A : Type} (index : Nat) (missing : String) {m : EntryProcedure A}
    (keeps : Moves SameTenancy m) : Moves Untouched (LeanWorkerPool.onEntryAt index missing m) := by
  intro s
  simp only [LeanWorkerPool.onEntryAt, bind_apply, read_apply, Outcome.andThen_returned]
  cases found : s.pool.entries[index]? with
  | none => exact ⟨rfl, rfl⟩
  | some entry =>
    have moved := focus_state (fun s : PoolWorld => (⟨entry, s.effects⟩ : EntryWorld))
      (fun s t => s.withEntry index t) m s
    simp only [moved]
    exact ⟨rfl, map_set_of_same PoolEntry.tenancy found (keeps ⟨entry, s.effects⟩)⟩

theorem ensureEntryRunning_untouched (index : Nat) (a : LeanWorkerPool.AcquireAnswers) :
    Moves Untouched (LeanWorkerPool.ensureEntryRunning index a) := by
  refine onEntryAt_untouched _ _ (.bind (onWorker_tenancy _) fun state => ?_)
  cases state with
  | running => exact .pure _
  | exited exit =>
    exact .bind .read fun s => .bind (.focus fun _ => rfl) fun _ => modify_tenancy _ fun _ => rfl

theorem enforceEntryPolicyBeforeAssignment_untouched (index : Nat) (a : PoolEntry.PolicyAnswers) :
    Moves Untouched (LeanWorkerPool.enforceEntryPolicyBeforeAssignment index a) :=
  .bind .read fun _ => .bind (onEntryAt_untouched _ _ (enforcePolicy_tenancy _ a)) fun _ => .pure _

namespace LeanWorkerPool

/-- The counters agree with each other and with the number of calls, as far as they can count.
`opens` cold opens are under way, and `owed` attempts are not decided yet. -/
structure Balanced (pool : LeanWorkerPool) (calls opens owed : Nat) : Prop where
  inProgress : pool.coldOpensInProgress = opens
  attempts : pool.coldOpenAttempts =
    saturatingAdd (saturatingAdd pool.coldOpenAdmitted pool.coldOpenRefusals) owed
  reasons : pool.keyMisses = saturatingAdd pool.missEmptyPool pool.missNoMatchingKey
  misses : pool.keyMisses = pool.coldOpenAttempts
  calls : saturatingAdd pool.keyHits pool.keyMisses = min calls u64Max

/-- The active leases of the entries when none or one of them is leased. -/
def leasesOut (leased : Option Nat) (workers : Nat) : List Nat :=
  match leased with
  | none => .replicate workers 0
  | some index => (List.replicate workers 0).set index 1

/-- One entry for each key, room for all of them, and no lease but the one that is out. -/
structure Housed (pool : LeanWorkerPool) (leased : Option Nat) : Prop where
  room : pool.entries.length ≤ pool.config.maxWorkers
  distinct : Distinct pool.entries
  active : pool.entries.map PoolEntry.activeLeases = leasesOut leased pool.entries.length

section

variable {pool pool' : LeanWorkerPool} {calls opens owed : Nat} {leased : Option Nat}

theorem Balanced.congr (balanced : pool.Balanced calls opens owed)
    (same : pool'.books = pool.books) : pool'.Balanced calls opens owed := by
  have booked : pool.books.Balanced calls opens owed :=
    ⟨balanced.inProgress, balanced.attempts, balanced.reasons, balanced.misses, balanced.calls⟩
  rw [← same] at booked
  exact ⟨booked.inProgress, booked.attempts, booked.reasons, booked.misses, booked.calls⟩

theorem Housed.congr (housed : pool.Housed leased) (config : pool'.config = pool.config)
    (same : pool'.tenancies = pool.tenancies) : pool'.Housed leased := by
  have length : pool'.entries.length = pool.entries.length := by
    simpa [tenancies] using congrArg List.length same
  have keys : pool'.entries.map PoolEntry.key = pool.entries.map PoolEntry.key := by
    simpa [tenancies, PoolEntry.tenancy, Function.comp_def] using congrArg (List.map Prod.fst) same
  have active : pool'.entries.map PoolEntry.activeLeases =
      pool.entries.map PoolEntry.activeLeases := by
    simpa [tenancies, PoolEntry.tenancy, Function.comp_def] using congrArg (List.map Prod.snd) same
  refine ⟨?_, ?_, ?_⟩
  · rw [length, config]
    exact housed.room
  · exact distinct_congr housed.distinct keys
  · rw [active, length]
    exact housed.active

theorem housed_of_untouched {s t : PoolWorld} (untouched : Untouched s t)
    (housed : s.pool.Housed leased) : t.pool.Housed leased :=
  housed.congr (congrArg (fun books => books.config) untouched.books) untouched.tenancies

theorem Balanced.hit (balanced : pool.Balanced calls opens owed) :
    pool.recordKeyHit.Balanced (calls + 1) opens owed := by
  refine ⟨balanced.inProgress, balanced.attempts, balanced.reasons, balanced.misses, ?_⟩
  show saturatingAdd (saturatingAdd pool.keyHits 1) pool.keyMisses = _
  rw [saturatingAdd_right_comm, balanced.calls, saturatingAdd_min]

theorem Balanced.missed (balanced : pool.Balanced calls opens 0) :
    pool.recordKeyMiss.recordColdOpenAttempt.Balanced (calls + 1) opens 1 := by
  have attempted : saturatingAdd pool.coldOpenAttempts 1 =
      saturatingAdd (saturatingAdd pool.coldOpenAdmitted pool.coldOpenRefusals) 1 := by
    rw [balanced.attempts, saturatingAdd_zero]
  have missed : saturatingAdd pool.keyMisses 1 = saturatingAdd pool.coldOpenAttempts 1 := by
    rw [balanced.misses]
  have counted : saturatingAdd pool.keyHits (saturatingAdd pool.keyMisses 1) =
      min (calls + 1) u64Max := by
    rw [← saturatingAdd_assoc, balanced.calls, saturatingAdd_min]
  unfold recordKeyMiss
  split
  · refine ⟨balanced.inProgress, attempted, ?_, missed, counted⟩
    show saturatingAdd pool.keyMisses 1 =
      saturatingAdd (saturatingAdd pool.missEmptyPool 1) pool.missNoMatchingKey
    rw [balanced.reasons, saturatingAdd_right_comm]
  · refine ⟨balanced.inProgress, attempted, ?_, missed, counted⟩
    show saturatingAdd pool.keyMisses 1 =
      saturatingAdd pool.missEmptyPool (saturatingAdd pool.missNoMatchingKey 1)
    rw [balanced.reasons, saturatingAdd_assoc]

theorem Balanced.refused (balanced : pool.Balanced calls opens 1) (reason : String) :
    (pool.recordColdOpenRefusal reason).Balanced calls opens 0 := by
  refine ⟨balanced.inProgress, ?_, balanced.reasons, balanced.misses, balanced.calls⟩
  show pool.coldOpenAttempts = saturatingAdd
    (saturatingAdd pool.coldOpenAdmitted (saturatingAdd pool.coldOpenRefusals 1)) 0
  rw [balanced.attempts, saturatingAdd_zero, saturatingAdd_assoc]

theorem Balanced.admitted (balanced : pool.Balanced calls 0 1) :
    pool.recordColdOpenAdmitted.Balanced calls 1 0 := by
  refine ⟨?_, ?_, balanced.reasons, balanced.misses, balanced.calls⟩
  · show saturatingAdd pool.coldOpensInProgress 1 = 1
    rw [balanced.inProgress]
    rfl
  · show pool.coldOpenAttempts = saturatingAdd
      (saturatingAdd (saturatingAdd pool.coldOpenAdmitted 1) pool.coldOpenRefusals) 0
    rw [balanced.attempts, saturatingAdd_zero, saturatingAdd_right_comm]

theorem Balanced.opened (balanced : pool.Balanced calls 1 0) :
    pool.finishColdOpen.Balanced calls 0 0 := by
  refine ⟨?_, balanced.attempts, balanced.reasons, balanced.misses, balanced.calls⟩
  show pool.coldOpensInProgress - 1 = 0
  rw [balanced.inProgress]

theorem rememberSeenKey_entries (pool : LeanWorkerPool) (key : LeanWorkerSessionKey) :
    (pool.rememberSeenKey key).entries = pool.entries := by
  unfold rememberSeenKey
  split <;> rfl

theorem rememberSeenKey_config (pool : LeanWorkerPool) (key : LeanWorkerSessionKey) :
    (pool.rememberSeenKey key).config = pool.config := by
  unfold rememberSeenKey
  split <;> rfl

theorem Balanced.remembered (balanced : pool.Balanced calls opens owed)
    (key : LeanWorkerSessionKey) : (pool.rememberSeenKey key).Balanced calls opens owed := by
  unfold rememberSeenKey
  split
  · exact ⟨balanced.inProgress, balanced.attempts, balanced.reasons, balanced.misses,
      balanced.calls⟩
  · exact balanced

end

@[simp] theorem modify_apply (f : LeanWorkerPool → LeanWorkerPool) (s : PoolWorld) :
    modify f s = .returned () { s with pool := f s.pool } := rfl

theorem refreshEntries_tenancies (samples : Nat → Option Nat) (index : Nat) (rss : PoolRssTotal)
    (entries : List PoolEntry) :
    (refreshEntries samples index rss entries).2.map PoolEntry.tenancy =
      entries.map PoolEntry.tenancy := by
  induction entries generalizing index rss with
  | nil => rfl
  | cons entry rest ih =>
    simp only [refreshEntries, List.map_cons, sampleRss_tenancy]
    rw [ih]

def sampled (pool : LeanWorkerPool) (samples : Nat → Option Nat) : LeanWorkerPool :=
  { (pool.refreshTotalChildRss samples).2 with
    rssBeforeAdmissionKib := (pool.refreshTotalChildRss samples).1.availableTotal }

theorem sampleEntries_apply (samples : Nat → Option Nat) (s : PoolWorld) :
    sampleEntries samples s =
      .returned (s.pool.refreshTotalChildRss samples).1 ⟨s.pool.sampled samples, s.effects⟩ := rfl

theorem Balanced.sampled {pool : LeanWorkerPool} {calls opens owed : Nat}
    (balanced : pool.Balanced calls opens owed) (samples : Nat → Option Nat) :
    (pool.sampled samples).Balanced calls opens owed :=
  ⟨balanced.inProgress, balanced.attempts, balanced.reasons, balanced.misses, balanced.calls⟩

theorem sampled_tenancies (pool : LeanWorkerPool) (samples : Nat → Option Nat) :
    (pool.sampled samples).tenancies = pool.tenancies := refreshEntries_tenancies samples 0 _ _

theorem poolFullError_keeps {A : Type} (calls : Nat) :
    Triple (fun s => s.pool.Balanced calls 0 1 ∧ s.pool.Housed none)
      (poolFullError : PoolProcedure A) (fun _ _ => False)
      (fun _ t => t.pool.Balanced calls 0 0 ∧ t.pool.Housed none) := by
  intro s ⟨balanced, housed⟩
  simp only [poolFullError, bind_apply, read_apply, Outcome.andThen_returned]
  split
  · simp only [bind_apply, modify_apply, read_apply, Outcome.andThen_returned, raise_apply]
    exact ⟨balanced.refused _, housed.room, housed.distinct, housed.active⟩
  · simp only [bind_apply, modify_apply, read_apply, Outcome.andThen_returned, raise_apply]
    have counted : ({ s.pool with
        queueTimeouts := saturatingAdd s.pool.queueTimeouts 1 } : LeanWorkerPool).Balanced
          calls 0 1 :=
      ⟨balanced.inProgress, balanced.attempts, balanced.reasons, balanced.misses, balanced.calls⟩
    exact ⟨counted.refused _, housed.room, housed.distinct, housed.active⟩

theorem ensureSpawnWithinTotalRssBudget_keeps (rss : PoolRssTotal) (s : PoolWorld) (calls : Nat)
    (balanced : s.pool.Balanced calls 0 1) (housed : s.pool.Housed none) :
    (ensureSpawnWithinTotalRssBudget rss s).Meets (fun _ t => t = s)
      (fun _ t => t.pool.Balanced calls 0 0 ∧ t.pool.Housed none) := by
  simp only [ensureSpawnWithinTotalRssBudget, bind_apply, read_apply, Outcome.andThen_returned]
  cases s.pool.config.maxTotalChildRssKib with
  | none => rfl
  | some limitKib =>
    simp only
    split
    · rfl
    split
    · simp only [bind_apply, modify_apply, read_apply, Outcome.andThen_returned, raise_apply]
      have counted : ({ s.pool with
          memoryBudgetRejections := saturatingAdd s.pool.memoryBudgetRejections 1 } :
            LeanWorkerPool).Balanced calls 0 1 :=
        ⟨balanced.inProgress, balanced.attempts, balanced.reasons, balanced.misses,
          balanced.calls⟩
      exact ⟨counted.refused _, housed.room, housed.distinct, housed.active⟩
    · rfl

/-- What an admission has found, with the call counted. -/
def Decided (key : LeanWorkerSessionKey) (calls : Nat) (pool : LeanWorkerPool) :
    PoolAdmissionDecision → Prop
  | .reuseWarmEntry index => pool.Balanced calls 0 0 ∧
    ∃ entry, pool.entries[index]? = some entry ∧ (entry.key == key) = true
  | .openColdEntry => pool.Balanced calls 1 0 ∧
    pool.entries.length < pool.config.maxWorkers ∧
      ∀ entry ∈ pool.entries, (entry.key == key) = false

theorem keys_of_tenancies {pool pool' : LeanWorkerPool} (same : pool'.tenancies = pool.tenancies)
    {key : LeanWorkerSessionKey} (other : ∀ entry ∈ pool.entries, (entry.key == key) = false) :
    ∀ entry ∈ pool'.entries, (entry.key == key) = false := by
  intro entry member
  have found : entry.tenancy ∈ pool.tenancies := same ▸ List.mem_map_of_mem member
  obtain ⟨entry', member', tenancy⟩ := List.mem_map.mp found
  have key' : entry'.key = entry.key := congrArg Prod.fst tenancy
  rw [← key']
  exact other entry' member'

theorem admitLease_keeps (key : LeanWorkerSessionKey) (samples : Nat → Option Nat) (calls : Nat) :
    Triple (fun s => s.pool.Balanced calls 0 0 ∧ s.pool.Housed none) (admitLease key samples)
      (fun decision t => t.pool.Housed none ∧ Decided key (calls + 1) t.pool decision)
      (fun _ t => t.pool.Balanced (calls + 1) 0 0 ∧ t.pool.Housed none) := by
  intro s ⟨balanced, housed⟩
  have remembered := balanced.remembered key
  have kept : (s.pool.rememberSeenKey key).Housed none :=
    housed.congr (rememberSeenKey_config _ _)
      (congrArg (List.map PoolEntry.tenancy) (rememberSeenKey_entries _ _))
  simp only [admitLease, bind_apply, modify_apply, read_apply, Outcome.andThen_returned]
  generalize s.pool.rememberSeenKey key = pool at remembered kept
  cases found : pool.entries.findIdx? (fun entry => entry.key == key) with
  | some index =>
    simp only [bind_apply, modify_apply, Outcome.andThen_returned, pure_apply]
    obtain ⟨bound, matches', _⟩ := List.findIdx?_eq_some_iff_getElem.mp found
    refine ⟨⟨kept.room, kept.distinct, kept.active⟩, remembered.hit, pool.entries[index], ?_, ?_⟩
    · exact List.getElem?_eq_getElem bound
    · exact matches'
  | none =>
    have other := List.findIdx?_eq_none_iff.mp found
    have missed := (remembered.missed).sampled samples
    have entries : (pool.recordKeyMiss.recordColdOpenAttempt).entries = pool.entries := by
      unfold recordKeyMiss
      split <;> rfl
    have config : (pool.recordKeyMiss.recordColdOpenAttempt).config = pool.config := by
      unfold recordKeyMiss
      split <;> rfl
    simp only [bind_apply, modify_apply, sampleEntries_apply, read_apply,
      Outcome.andThen_returned]
    have tenancies := sampled_tenancies pool.recordKeyMiss.recordColdOpenAttempt samples
    have same : (pool.recordKeyMiss.recordColdOpenAttempt.sampled samples).tenancies =
        pool.tenancies := tenancies.trans (congrArg (List.map _) entries)
    have sampledHoused : (pool.recordKeyMiss.recordColdOpenAttempt.sampled samples).Housed none :=
      kept.congr config same
    have fresh := keys_of_tenancies same other
    generalize pool.recordKeyMiss.recordColdOpenAttempt.sampled samples = pool'
      at missed sampledHoused fresh
    split
    · exact (poolFullError_keeps (calls + 1) _ ⟨missed, sampledHoused⟩).weaken
        (fun _ _ impossible => impossible.elim) fun _ _ h => h
    · rename_i room
      have budget := ensureSpawnWithinTotalRssBudget_keeps
        (pool.recordKeyMiss.recordColdOpenAttempt.refreshTotalChildRss samples).1
        ⟨pool', s.effects⟩ (calls + 1) missed sampledHoused
      rw [bind_apply]
      cases outcome : ensureSpawnWithinTotalRssBudget
          (pool.recordKeyMiss.recordColdOpenAttempt.refreshTotalChildRss samples).1
          ⟨pool', s.effects⟩ with
      | waiting t => trivial
      | raised e t => rw [outcome] at budget; exact budget
      | returned _ t =>
        rw [outcome] at budget
        obtain rfl : t = ⟨pool', s.effects⟩ := budget
        exact ⟨⟨sampledHoused.room, sampledHoused.distinct, sampledHoused.active⟩,
          missed.admitted, Nat.lt_of_not_le room, fresh⟩

/-- What a lease is granted on: an entry of the requested key, at the generation that its worker
has, and no other lease is out. -/
structure Granted (key : LeanWorkerSessionKey) (pool : LeanWorkerPool) (index : Nat)
    (lease : LeanWorkerSessionLease) : Prop where
  entry : ∃ entry, pool.entries[index]? = some entry ∧ (entry.key == key) = true ∧
    lease.admittedGeneration = entry.workerGeneration
  unreleased : lease.released = false

theorem grantAt_keeps (key : LeanWorkerSessionKey) (index : Nat) (missing : String) (calls : Nat) :
    Triple (fun s => s.pool.Balanced calls 0 0 ∧ s.pool.Housed none ∧
        ∃ entry, s.pool.entries[index]? = some entry ∧ (entry.key == key) = true)
      (grantAt index missing)
      (fun granted t => t.pool.Balanced calls 0 0 ∧ t.pool.Housed (some granted.1) ∧
        Granted key t.pool granted.1 granted.2)
      (fun _ t => t.pool.Balanced calls 0 0 ∧ t.pool.Housed none) := by
  intro s ⟨balanced, housed, entry, found, same⟩
  obtain ⟨bound, rfl⟩ := List.getElem?_eq_some_iff.mp found
  simp only [grantAt, bind_apply, read_apply, Outcome.andThen_returned, found, grantLease,
    modify_apply, pure_apply]
  have free : s.pool.entries[index].activeLeases = 0 := by
    have active := congrArg (fun leases : List Nat => leases[index]?) housed.active
    simpa [leasesOut, bound] using active
  refine ⟨⟨balanced.inProgress, balanced.attempts, balanced.reasons, balanced.misses,
    balanced.calls⟩, ⟨?_, ?_, ?_⟩, ⟨_, List.getElem?_set_self bound, same, rfl⟩, rfl⟩
  · simpa using housed.room
  · exact distinct_set housed.distinct found rfl
  · have active := housed.active
    simp only [List.map_set, List.length_set, active, free, leasesOut]
    rfl

theorem found_of_untouched {s t : PoolWorld} (untouched : Untouched s t)
    {key : LeanWorkerSessionKey}
    {index : Nat}
    (found : ∃ entry, s.pool.entries[index]? = some entry ∧ (entry.key == key) = true) :
    ∃ entry, t.pool.entries[index]? = some entry ∧ (entry.key == key) = true := by
  obtain ⟨entry, found, same⟩ := found
  have tenancies : t.pool.tenancies[index]? = some entry.tenancy := by
    rw [untouched.tenancies]
    simp [tenancies, found]
  simp only [LeanWorkerPool.tenancies, List.getElem?_map, Option.map_eq_some_iff] at tenancies
  obtain ⟨entry', found', tenancy⟩ := tenancies
  refine ⟨entry', found', ?_⟩
  have key' : entry'.key = entry.key := congrArg Prod.fst tenancy
  rwa [key']

theorem untouched_keeps {A : Type} {m : PoolProcedure A} (moves : Moves Untouched m)
    (key : LeanWorkerSessionKey) (index calls : Nat) :
    Triple (fun s => s.pool.Balanced calls 0 0 ∧ s.pool.Housed none ∧
        ∃ entry, s.pool.entries[index]? = some entry ∧ (entry.key == key) = true) m
      (fun _ t => t.pool.Balanced calls 0 0 ∧ t.pool.Housed none ∧
        ∃ entry, t.pool.entries[index]? = some entry ∧ (entry.key == key) = true)
      (fun _ t => t.pool.Balanced calls 0 0 ∧ t.pool.Housed none) := by
  intro s ⟨balanced, housed, found⟩
  have moved := moves s
  cases outcome : m s with
  | waiting t => trivial
  | raised e t =>
    rw [outcome] at moved
    exact ⟨balanced.congr moved.books, housed_of_untouched moved housed⟩
  | returned x t =>
    rw [outcome] at moved
    exact ⟨balanced.congr moved.books, housed_of_untouched moved housed,
      found_of_untouched moved found⟩

theorem openColdEntry_keeps (key : LeanWorkerSessionKey) (builder : LeanWorkerCapabilityBuilder)
    (a : AcquireAnswers) (calls : Nat) :
    Triple (fun s => s.pool.Housed none ∧ Decided key calls s.pool .openColdEntry)
      (openColdEntry key builder a)
      (fun granted t => t.pool.Balanced calls 0 0 ∧ t.pool.Housed (some granted.1) ∧
        Granted key t.pool granted.1 granted.2)
      (fun _ t => t.pool.Balanced calls 0 0 ∧ t.pool.Housed none) := by
  intro s ⟨housed, balanced, room, fresh⟩
  simp only [openColdEntry, opening, bind_apply, capture_apply, focus]
  cases builder.openCapability a.opened s.effects with
  | waiting effects => trivial
  | raised e effects =>
    simp only [Outcome.captured_raised, Outcome.andThen_returned, bind_apply, modify_apply,
      raise_apply]
    exact ⟨balanced.opened, housed.room, housed.distinct, housed.active⟩
  | returned capability effects =>
    simp only [Outcome.captured_returned, Outcome.andThen_returned, bind_apply, modify_apply,
      read_apply]
    have tenancy : ((newEntry key builder capability a.openedAt).sampleRss a.openedRss).2.tenancy =
        (key, 0) := sampleRss_tenancy _ _
    generalize ((newEntry key builder capability a.openedAt).sampleRss a.openedRss).2 = entry
      at tenancy
    have opened := balanced.opened
    have named : entry.key = key := congrArg Prod.fst tenancy
    have free : entry.activeLeases = 0 := congrArg Prod.snd tenancy
    refine grantAt_keeps key _ _ calls _ ⟨⟨opened.inProgress, opened.attempts, opened.reasons,
      opened.misses, opened.calls⟩, ⟨?_, ?_, ?_⟩, entry, ?_, ?_⟩
    · simpa [finishColdOpen] using Nat.succ_le_of_lt room
    · simp only [Distinct, finishColdOpen, List.pairwise_append, List.mem_singleton]
      refine ⟨housed.distinct, List.pairwise_singleton _ _, fun e member f same => ?_⟩
      rw [same, named]
      exact fresh e member
    · have active := housed.active
      simp [finishColdOpen, active, free, leasesOut, List.replicate_succ']
    · simp [finishColdOpen]
    · rw [named]
      exact beq_self_eq_true key

/-- Whichever way a call ends, it has been counted, and a lease that it grants is the one lease that
is out. -/
theorem acquireLease_keeps (builder : LeanWorkerCapabilityBuilder) (a : AcquireAnswers)
    (calls : Nat) :
    Triple (fun s => s.pool.Balanced calls 0 0 ∧ s.pool.Housed none) (acquireLease builder a)
      (fun granted t => t.pool.Balanced (calls + 1) 0 0 ∧ t.pool.Housed (some granted.1) ∧
        Granted (builder.sessionKey a.key) t.pool granted.1 granted.2)
      (fun _ t => t.pool.Balanced (calls + 1) 0 0 ∧ t.pool.Housed none) := by
  refine Triple.bind (admitLease_keeps _ a.samples calls) fun decision => ?_
  cases decision with
  | openColdEntry => exact openColdEntry_keeps _ builder a (calls + 1)
  | reuseWarmEntry index =>
    refine Triple.consequence (P := fun s => s.pool.Balanced (calls + 1) 0 0 ∧ s.pool.Housed none ∧
      ∃ entry, s.pool.entries[index]? = some entry ∧
        (entry.key == builder.sessionKey a.key) = true) ?_
      (fun _ h => ⟨h.2.1, h.1, h.2.2⟩) (fun _ _ h => h) fun _ _ h => h
    exact Triple.bind (untouched_keeps (ensureEntryRunning_untouched index a) _ index _) fun _ =>
      Triple.bind (untouched_keeps (enforceEntryPolicyBeforeAssignment_untouched index a.policy)
        _ index _) fun _ => grantAt_keeps _ index _ _

def Configured (s t : PoolWorld) : Prop := t.pool.config = s.pool.config

instance : Std.Refl Configured := ⟨fun _ => rfl⟩

instance : IsTrans PoolWorld Configured where
  trans _ _ _ first second := Eq.trans second first

theorem modify_configured (f : LeanWorkerPool → LeanWorkerPool)
    (same : ∀ pool, (f pool).config = pool.config) : Moves Configured (modify f) :=
  fun s => same s.pool

theorem configured_of_untouched {A : Type} {m : PoolProcedure A} (moves : Moves Untouched m) :
    Moves Configured m := by
  intro s
  have same := congrArg LeanWorkerPool.config (moves s).books
  exact same

theorem poolFullError_configured {A : Type} :
    Moves Configured (poolFullError : PoolProcedure A) :=
  .bind .read fun _ => .choose
    (fun _ => .bind (modify_configured _ fun _ => rfl) fun _ => .bind .read fun _ => .raise _)
    fun _ => .bind (modify_configured _ fun _ => rfl) fun _ =>
      .bind (modify_configured _ fun _ => rfl) fun _ => .bind .read fun _ => .raise _

theorem ensureSpawnWithinTotalRssBudget_configured (rss : PoolRssTotal) :
    Moves Configured (ensureSpawnWithinTotalRssBudget rss) := by
  refine .bind .read fun s => ?_
  cases s.pool.config.maxTotalChildRssKib with
  | none => exact .pure _
  | some limitKib =>
    exact .choose (fun _ => .pure _) fun _ => .choose
      (fun _ => .bind (modify_configured _ fun _ => rfl) fun _ =>
        .bind (modify_configured _ fun _ => rfl) fun _ => .bind .read fun _ => .raise _)
      fun _ => .pure _

theorem admitLease_configured (key : LeanWorkerSessionKey) (samples : Nat → Option Nat) :
    Moves Configured (admitLease key samples) := by
  refine .bind (modify_configured _ fun pool => rememberSeenKey_config pool key) fun _ =>
    .bind .read fun s => ?_
  cases s.pool.entries.findIdx? (fun entry => entry.key == key) with
  | some index => exact .bind (modify_configured _ fun _ => rfl) fun _ => .pure _
  | none =>
    refine .bind (modify_configured _ fun pool => ?_) fun _ => .bind (fun _ => rfl) fun rss =>
      .bind .read fun s => .choose (fun _ => poolFullError_configured) fun _ =>
      .bind (ensureSpawnWithinTotalRssBudget_configured rss) fun _ =>
      .bind (modify_configured _ fun _ => rfl) fun _ => .pure _
    unfold recordKeyMiss
    split <;> rfl

theorem grantAt_configured (index : Nat) (missing : String) :
    Moves Configured (grantAt index missing) := by
  refine .bind .read fun s => ?_
  cases s.pool.entries[index]? with
  | none => exact .raise _
  | some entry => exact .bind (modify_configured _ fun _ => rfl) fun _ => .pure _

theorem openColdEntry_configured (key : LeanWorkerSessionKey)
    (builder : LeanWorkerCapabilityBuilder) (a : AcquireAnswers) :
    Moves Configured (openColdEntry key builder a) := by
  refine .bind (.capture (.focus fun _ => rfl)) fun opened => ?_
  cases opened with
  | error err => exact .bind (modify_configured _ fun _ => rfl) fun _ => .raise _
  | ok capability =>
    exact .bind (modify_configured _ fun _ => rfl) fun _ =>
      .bind (modify_configured _ fun _ => rfl) fun _ =>
      .bind (modify_configured _ fun _ => rfl) fun _ => .bind .read fun _ =>
      grantAt_configured _ _

theorem acquireLease_configured (builder : LeanWorkerCapabilityBuilder) (a : AcquireAnswers) :
    Moves Configured (acquireLease builder a) := by
  refine .bind (admitLease_configured _ _) fun decision => ?_
  cases decision with
  | openColdEntry => exact openColdEntry_configured _ _ _
  | reuseWarmEntry index =>
    exact .bind (configured_of_untouched (ensureEntryRunning_untouched index a)) fun _ =>
      .bind (configured_of_untouched (enforceEntryPolicyBeforeAssignment_untouched index a.policy))
        fun _ => grantAt_configured _ _

end LeanWorkerPool

namespace LeanWorkerSessionLease

structure Holds (s t : LeaseWorld) : Prop where
  tenancy : t.entry.tenancy = s.entry.tenancy
  released : t.lease.released = s.lease.released

instance : Std.Refl Holds := ⟨fun _ => ⟨rfl, rfl⟩⟩

instance : IsTrans LeaseWorld Holds where
  trans _ _ _ first second :=
    ⟨second.tenancy.trans first.tenancy, second.released.trans first.released⟩

theorem onEntry_holds {A : Type} {m : EntryProcedure A} (keeps : Moves SameTenancy m) :
    Moves Holds (onEntry m) := .focus fun s => ⟨keeps ⟨s.entry, s.effects⟩, rfl⟩

theorem onWorker_holds {A : Type} (m : WorkerProcedure A) :
    Moves Holds (onEntry (PoolEntry.onWorker m)) := onEntry_holds (onWorker_tenancy m)

theorem modify_holds (f : LeanWorkerSessionLease → LeanWorkerSessionLease)
    (same : ∀ lease, (f lease).released = lease.released) : Moves Holds (modify f) :=
  fun s => ⟨rfl, same s.lease⟩

theorem ensureValid_holds : Moves Holds ensureValid := by
  refine .bind .read fun s => ?_
  cases s.lease.refusal s.entry.workerGeneration
  · exact .pure _
  · exact .raise _

theorem enforcePolicyBeforeRequest_holds (a : PoolEntry.PolicyAnswers) :
    Moves Holds (enforcePolicyBeforeRequest a) := by
  refine .bind .read fun s => .bind (onEntry_holds (enforcePolicy_tenancy _ a)) fun cycled => ?_
  cases cycled with
  | none => exact .pure _
  | some reason => exact .bind (modify_holds _ fun _ => rfl) fun _ => .raise _

theorem mapLifecycleResult_holds {A : Type} (now : Instant)
    (result : Except LeanWorkerPoolError A) : Moves Holds (mapLifecycleResult now result) := by
  refine .bind (.bind .read fun s => .choose (fun _ => onWorker_holds _) fun _ => .pure _)
    fun _ => .bind (onEntry_holds (modify_tenancy _ fun _ => rfl)) fun _ => ?_
  cases result with
  | ok value => exact .pure _
  | error err =>
    refine .bind ?_ fun _ => .raise _
    unfold invalidateFor
    cases invalidatedBy err
    · exact .pure _
    · exact modify_holds _ fun _ => rfl

theorem runWithCurrentSession_holds {A : Type} (progress : Bool) (a : CommandAnswers)
    (command again : SessionProcedure A) :
    Moves Holds (runWithCurrentSession progress a command again) := by
  refine .bind ensureValid_holds fun _ => .bind (enforcePolicyBeforeRequest_holds _) fun _ =>
    .bind .read fun s => .bind (.capture (onWorker_holds _)) fun first => .bind ?_ fun result =>
    .bind (onWorker_holds _) fun _ => .bind (onEntry_holds (modify_tenancy _ fun _ => rfl))
    fun _ => mapLifecycleResult_holds _ _
  cases first with
  | ok value => exact .pure _
  | error err =>
    exact .bind .read fun _ => .choose (fun _ => .capture (onWorker_holds _)) fun _ => .pure _

theorem perform_holds (op : LeaseOp) : Moves Holds op.perform := by
  cases op with
  | cycle a =>
    exact .bind ensureValid_holds fun _ => .bind (onWorker_holds _) fun _ =>
      modify_holds _ fun _ => rfl
  | setRequestTimeout timeout =>
    exact .bind ensureValid_holds fun _ => modify_holds _ fun _ => rfl
  | run command progress a first second => exact runWithCurrentSession_holds _ _ _ _

theorem releaseOnce_apply (s : LeaseWorld) (unreleased : s.lease.released = false) :
    releaseOnce s = .returned ()
      ⟨{ s.entry with activeLeases := s.entry.activeLeases - 1 },
        { s.lease with released := true }, s.effects⟩ := by
  simp only [releaseOnce, bind_apply, read_apply, Outcome.andThen_returned, unreleased]
  rfl

theorem release_apply (s : LeaseWorld) (unreleased : s.lease.released = false) :
    release s = releaseOnce s := by
  simp only [release, bind_apply, releaseOnce_apply s unreleased, Outcome.andThen_returned]
  rfl

end LeanWorkerSessionLease

namespace PoolState

/-- What every run keeps: `calls` is how often a lease has been asked for. -/
structure Sound (config : LeanWorkerPoolConfig) (calls : Nat) (s : PoolState) : Prop where
  configured : s.pool.config = config
  balanced : s.pool.Balanced calls 0 0
  housed : s.pool.Housed (s.outstanding.map Prod.fst)
  unreleased : ∀ held ∈ s.outstanding, held.2.released = false

variable {config : LeanWorkerPoolConfig} {calls : Nat} {s t : PoolState}

theorem new_sound (config : LeanWorkerPoolConfig) : (new config).Sound config 0 where
  configured := rfl
  balanced := ⟨rfl, rfl, rfl, rfl, rfl⟩
  housed := ⟨Nat.zero_le _, .nil, rfl⟩
  unreleased _ member := by cases member

theorem onLease_sound (m : LeaseProcedure Unit) (holds : Moves LeanWorkerSessionLease.Holds m)
    (sound : s.Sound config calls) (moved : s.onLease m = some t) : t.Sound config calls := by
  obtain ⟨held, out, moved⟩ := Option.bind_eq_some_iff.mp moved
  obtain ⟨entry, found, moved⟩ := Option.bind_eq_some_iff.mp moved
  obtain ⟨u, ended, rfl⟩ := Option.map_eq_some_iff.mp moved
  have along := holds ⟨entry, held.2, []⟩
  have landed : (m ⟨entry, held.2, []⟩).state = u := by
    cases outcome : m ⟨entry, held.2, []⟩ <;> rw [outcome] at ended <;>
      first | exact Option.some.inj ended | cases ended
  rw [landed] at along
  have housed := sound.housed
  rw [out] at housed
  refine ⟨sound.configured, sound.balanced.congr rfl, ?_, fun held' member => ?_⟩
  · exact housed.congr rfl (map_set_of_same PoolEntry.tenancy found along.tenancy)
  · obtain rfl : (held.1, u.lease) = held' := Option.some.inj member
    exact along.released.trans (sound.unreleased held (out ▸ rfl))

theorem releaseOnce_sound (sound : s.Sound config calls)
    (moved : s.onLease LeanWorkerSessionLease.releaseOnce = some t) :
    t.returned.Sound config calls := by
  obtain ⟨held, out, moved⟩ := Option.bind_eq_some_iff.mp moved
  obtain ⟨entry, found, moved⟩ := Option.bind_eq_some_iff.mp moved
  rw [LeanWorkerSessionLease.releaseOnce_apply _ (sound.unreleased held (out ▸ rfl))] at moved
  obtain rfl := Option.some.inj moved
  have housed := sound.housed
  rw [out] at housed
  obtain ⟨bound, rfl⟩ := List.getElem?_eq_some_iff.mp found
  refine ⟨sound.configured, sound.balanced.congr rfl, ⟨?_, ?_, ?_⟩, fun _ member => nomatch member⟩
  · simpa [returned] using housed.room
  · exact distinct_set housed.distinct found rfl
  · have one : s.pool.entries[held.1].activeLeases = 1 := by
      have active := congrArg (fun leases : List Nat => leases[held.1]?) housed.active
      simpa [LeanWorkerPool.leasesOut, bound] using active
    have active := housed.active
    simp only [returned, List.map_set, active, one, LeanWorkerPool.leasesOut, Option.map_some,
      Option.map_none, List.length_set, List.set_set]
    have inside : held.1 < (List.replicate s.pool.entries.length 0).length := by simpa using bound
    rw [← List.set_getElem_self inside]
    simp

theorem step_sound (action : PoolAction) (sound : s.Sound config calls)
    (moved : s.step action = some t) :
    t.Sound config (calls + if action.acquires then 1 else 0) := by
  cases action with
  | acquire builder a =>
    simp only [step] at moved
    split at moved
    · cases moved
    rename_i free
    have none : s.outstanding = none := by simpa using free
    have housed := sound.housed
    rw [none] at housed
    have keeps := LeanWorkerPool.acquireLease_keeps builder a calls ⟨s.pool, []⟩
      ⟨sound.balanced, housed⟩
    have config := LeanWorkerPool.acquireLease_configured builder a ⟨s.pool, []⟩
    cases outcome : LeanWorkerPool.acquireLease builder a ⟨s.pool, []⟩ with
    | waiting u => rw [outcome] at moved; cases moved
    | raised e u =>
      rw [outcome] at moved keeps config
      obtain rfl := Option.some.inj moved
      exact ⟨Eq.trans config sound.configured, keeps.1, keeps.2, fun _ member => nomatch member⟩
    | returned granted u =>
      rw [outcome] at moved keeps config
      obtain rfl := Option.some.inj moved
      refine ⟨Eq.trans config sound.configured, keeps.1, keeps.2.1, fun held member => ?_⟩
      obtain rfl : granted = held := Option.some.inj member
      exact keeps.2.2.unreleased
  | lease op => exact onLease_sound _ (LeanWorkerSessionLease.perform_holds op) sound moved
  | release =>
    obtain ⟨u, released, rfl⟩ := Option.map_eq_some_iff.mp moved
    refine releaseOnce_sound sound ?_
    obtain ⟨held, out, released⟩ := Option.bind_eq_some_iff.mp released
    obtain ⟨entry, found, released⟩ := Option.bind_eq_some_iff.mp released
    rw [LeanWorkerSessionLease.release_apply _ (sound.unreleased held (out ▸ rfl))] at released
    simp only [onLease, out, found, Option.bind_some]
    exact released
  | drop =>
    obtain ⟨u, released, rfl⟩ := Option.map_eq_some_iff.mp moved
    exact releaseOnce_sound sound released

theorem run_sound {actions : List PoolAction} (sound : s.Sound config calls)
    (reached : Runs.run step s actions = some t) :
    t.Sound config (calls + actions.countP PoolAction.acquires) := by
  induction actions generalizing s calls with
  | nil => exact Option.some.inj reached ▸ sound
  | cons action rest ih =>
    rw [Runs.run_cons] at reached
    obtain ⟨u, moved, reached⟩ := Option.bind_eq_some_iff.mp reached
    have later := ih (step_sound action sound moved) reached
    rw [List.countP_cons, Nat.add_comm (rest.countP _), ← Nat.add_assoc]
    exact later

theorem Sound.exact (sound : s.Sound config calls) (fits : calls < u64Max) :
    s.pool.keyHits + s.pool.keyMisses = calls ∧
      s.pool.keyMisses = s.pool.missEmptyPool + s.pool.missNoMatchingKey ∧
      s.pool.coldOpenAttempts = s.pool.coldOpenAdmitted + s.pool.coldOpenRefusals := by
  have counted := sound.balanced.calls
  have reasons := sound.balanced.reasons
  have attempts := sound.balanced.attempts
  have misses := sound.balanced.misses
  rw [saturatingAdd_zero] at attempts
  unfold saturatingAdd at counted reasons attempts
  generalize u64Max = limit at *
  omega

theorem Sound.grants {calls : Nat} (sound : s.Sound config calls) (free : s.outstanding = none)
    {builder : LeanWorkerCapabilityBuilder} {a : LeanWorkerPool.AcquireAnswers}
    {granted : Nat × LeanWorkerSessionLease} {t : PoolWorld}
    (outcome : LeanWorkerPool.acquireLease builder a ⟨s.pool, []⟩ = .returned granted t) :
    ∃ entry, t.pool.entries[granted.1]? = some entry ∧
      (entry.key == builder.sessionKey a.key) = true ∧
      granted.2.admittedGeneration = entry.workerGeneration := by
  have housed := sound.housed
  rw [free] at housed
  have keeps := LeanWorkerPool.acquireLease_keeps builder a _ ⟨s.pool, []⟩
    ⟨sound.balanced, housed⟩
  rw [outcome] at keeps
  exact keeps.2.2.entry

/-- What a pool has room for, what its counters say of the calls it has had, and what it can
grant next. -/
structure Accounts (config : LeanWorkerPoolConfig) (calls : Nat) (s : PoolState) : Prop where
  room : s.pool.entries.length ≤ config.maxWorkers
  distinct : Distinct s.pool.entries
  inProgress : s.pool.coldOpensInProgress = 0
  unleased : s.outstanding = none → ∀ entry ∈ s.pool.entries, entry.activeLeases = 0
  attempts : s.pool.coldOpenAttempts =
    saturatingAdd s.pool.coldOpenAdmitted s.pool.coldOpenRefusals
  reasons : s.pool.keyMisses = saturatingAdd s.pool.missEmptyPool s.pool.missNoMatchingKey
  misses : s.pool.keyMisses = s.pool.coldOpenAttempts
  counted : saturatingAdd s.pool.keyHits s.pool.keyMisses = min calls u64Max
  plain : calls < u64Max →
    s.pool.keyHits + s.pool.keyMisses = calls ∧
    s.pool.keyMisses = s.pool.missEmptyPool + s.pool.missNoMatchingKey ∧
    s.pool.coldOpenAttempts = s.pool.coldOpenAdmitted + s.pool.coldOpenRefusals
  grants : s.outstanding = none → ∀ builder a granted t,
    LeanWorkerPool.acquireLease builder a ⟨s.pool, []⟩ = .returned granted t →
    ∃ entry, t.pool.entries[granted.1]? = some entry ∧
      (entry.key == builder.sessionKey a.key) = true ∧
      granted.2.admittedGeneration = entry.workerGeneration

end PoolState

/-- Every run of a pool, and every lease that it can grant after it. -/
theorem reachable_pool_accounts (config : LeanWorkerPoolConfig) {actions : List PoolAction}
    {s : PoolState} (reached : Runs.run PoolState.step (.new config) actions = some s) :
    s.Accounts config (actions.countP PoolAction.acquires) := by
  have sound := PoolState.run_sound (PoolState.new_sound config) reached
  rw [Nat.zero_add] at sound
  constructor
  case room => exact sound.configured ▸ sound.housed.room
  case distinct => exact sound.housed.distinct
  case inProgress => exact sound.balanced.inProgress
  case unleased =>
    intro free entry member
    have active := sound.housed.active
    rw [free] at active
    have leases : entry.activeLeases ∈ s.pool.entries.map PoolEntry.activeLeases :=
      List.mem_map_of_mem member
    rw [active] at leases
    exact List.eq_of_mem_replicate leases
  case attempts => rw [sound.balanced.attempts, saturatingAdd_zero]
  case reasons => exact sound.balanced.reasons
  case misses => exact sound.balanced.misses
  case counted => exact sound.balanced.calls
  case plain => exact sound.exact
  case grants => exact fun free builder a granted t outcome => sound.grants free outcome

def leasedTwice : List PoolAction :=
  [.acquire (.plain "a") .smooth, .release, .acquire (.plain "a") .smooth, .drop]

theorem leased_twice_accounts : ∃ s, Runs.run PoolState.step (.new {}) leasedTwice = some s ∧
    s.pool.entries.length = 1 ∧ s.pool.keyHits + s.pool.keyMisses = 2 := by
  have exact : ∀ s, Runs.run PoolState.step (.new {}) leasedTwice = some s →
      s.pool.keyHits + s.pool.keyMisses = leasedTwice.countP PoolAction.acquires :=
    fun s reached =>
      ((reachable_pool_accounts {} reached).plain (by decide)).1
  exact ⟨_, rfl, rfl, exact _ rfl⟩

/-- A capability whose static checks fail: it is admitted, and it is not opened. -/
def failedAcquire : PoolAction :=
  .acquire (.plain "a") { LeanWorkerPool.AcquireAnswers.smooth with
    opened := { OpenCapabilityAnswers.smooth with bootstrap := some ("", "") } }

structure PoolState.Bare (s : PoolState) : Prop where
  entries : s.pool.entries = []
  config : s.pool.config = {}
  keyHits : s.pool.keyHits = 0
  outstanding : s.outstanding = none

theorem failedAcquire_bare {s : PoolState} (bare : s.Bare) :
    ∃ t, s.step failedAcquire = some t ∧ t.Bare := by
  obtain ⟨pool, outstanding⟩ := s
  obtain ⟨entries, config, keyHits, rfl⟩ := bare
  simp only at entries config keyHits
  simp only [PoolState.step, failedAcquire, Option.isSome_none, Bool.false_eq_true, if_false,
    LeanWorkerPool.acquireLease, LeanWorkerPool.admitLease, bind_apply,
    LeanWorkerPool.modify_apply, read_apply, Outcome.andThen_returned]
  -- what is remembered of the key matters to nothing that follows
  have entries' := (LeanWorkerPool.rememberSeenKey_entries pool
    ((LeanWorkerCapabilityBuilder.plain "a").sessionKey
      LeanWorkerPool.AcquireAnswers.smooth.key)).trans entries
  have config' := (LeanWorkerPool.rememberSeenKey_config pool
    ((LeanWorkerCapabilityBuilder.plain "a").sessionKey
      LeanWorkerPool.AcquireAnswers.smooth.key)).trans config
  have keyHits' : (pool.rememberSeenKey ((LeanWorkerCapabilityBuilder.plain "a").sessionKey
      LeanWorkerPool.AcquireAnswers.smooth.key)).keyHits = 0 := by
    unfold LeanWorkerPool.rememberSeenKey
    split <;> exact keyHits
  generalize pool.rememberSeenKey ((LeanWorkerCapabilityBuilder.plain "a").sessionKey
    LeanWorkerPool.AcquireAnswers.smooth.key) = remembered at *
  cases remembered
  simp only at entries' config' keyHits'
  subst entries' config' keyHits'
  exact ⟨_, rfl, rfl, rfl, rfl, rfl⟩

theorem failedAcquires_bare (calls : Nat) {s : PoolState} (bare : s.Bare) :
    ∃ t, Runs.run PoolState.step s (.replicate calls failedAcquire) = some t ∧ t.Bare := by
  induction calls generalizing s with
  | zero => exact ⟨s, rfl, bare⟩
  | succ calls ih =>
    obtain ⟨t, moved, bare⟩ := failedAcquire_bare bare
    obtain ⟨u, reached, bare⟩ := ih bare
    exact ⟨u, by rw [List.replicate_succ, Runs.run_cons, moved]; exact reached, bare⟩

/-- A counter that is full stays behind the calls. -/
theorem full_counter_misses_a_call : ∃ s,
    Runs.run PoolState.step (.new {}) (.replicate (2 ^ 64) failedAcquire) = some s ∧
      s.pool.keyHits + s.pool.keyMisses ≠
        (List.replicate (2 ^ 64) failedAcquire).countP PoolAction.acquires := by
  obtain ⟨s, reached, bare⟩ := failedAcquires_bare (2 ^ 64) (s := .new {}) ⟨rfl, rfl, rfl, rfl⟩
  have sound := PoolState.run_sound (PoolState.new_sound {}) reached
  have misses := sound.balanced.reasons
  have counted : (List.replicate (2 ^ 64) failedAcquire).countP PoolAction.acquires = 2 ^ 64 := by
    rw [List.countP_replicate]
    rfl
  refine ⟨s, reached, ?_⟩
  rw [counted, bare.keyHits, misses, Nat.zero_add]
  have full := saturatingAdd_le_max s.pool.missEmptyPool s.pool.missNoMatchingKey
  unfold u64Max at full
  exact Nat.ne_of_lt (Nat.lt_of_le_pred (by decide) full)

end LeanRs
