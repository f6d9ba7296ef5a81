import LeanRs.Child.ModuleQueryKey
import LeanRs.General.Selection
import LeanRs.Shims.SourceDocument

/-! The policy of the snapshot cache, as text on its way to the shim, and what the shim does with
the cache under the policy that it has read. -/
namespace LeanRs

open Text Selection

structure ModuleQueryCachePolicy where
  fileIdentity : String
  key : String
  maxEntries : UInt64
  ttlMillis : UInt64
  maxBytes : UInt64
  deriving DecidableEq

structure HexDigest where
  text : String
  width : text.toList.length = 64
  digits : ∀ c ∈ text.toList, c.isDigit = true ∨ 'a' ≤ c ∧ c ≤ 'f'

/-- The limits of the cache, which the child reads from its environment. -/
structure ModuleCacheLimits where
  maxEntries : UInt64
  ttlMillis : UInt64
  maxBytes : UInt64

def ModuleQuery.cachePolicy (sha256 : List UInt8 → HexDigest) (toolchain : ToolchainFingerprint)
    (limits : ModuleCacheLimits) (q : ModuleQuery) : ModuleQueryCachePolicy where
  fileIdentity := q.options.fileLabel
  key := (sha256 (q.keyBytes toolchain)).text
  maxEntries := limits.maxEntries
  ttlMillis := limits.ttlMillis
  maxBytes := limits.maxBytes

def policyText (policy : ModuleQueryCachePolicy) : String :=
  policy.fileIdentity ++ "\n" ++ policy.key ++ "\n" ++ policy.maxEntries.toNat.repr ++ "\n" ++
    policy.ttlMillis.toNat.repr ++ "\n" ++ policy.maxBytes.toNat.repr

def fallbackPolicy (raw : String) : ModuleQueryCachePolicy where
  fileIdentity := ""
  key := raw
  maxEntries := 1
  ttlMillis := 0
  maxBytes := 1

def parseCachePolicy (raw : String) : ModuleQueryCachePolicy :=
  match splitOnNewline raw with
  | [fileIdentity, key, maxEntries, ttlMillis, maxBytes] =>
    { fileIdentity
      key
      maxEntries := ((toNat? maxEntries.toList).getD 1).toUInt64
      ttlMillis := ((toNat? ttlMillis.toList).getD 0).toUInt64
      maxBytes := ((toNat? maxBytes.toList).getD 1).toUInt64 }
  | _ => fallbackPolicy raw

/-- A snapshot of an elaborated module; `S` is what has been kept of the elaboration. -/
structure ModuleSnapshot (S : Type) where
  fileIdentity : String
  key : String
  state : S
  approxBytes : Nat
  lastUsedMs : Nat

structure ModuleSnapshotCacheState (S : Type) where
  entries : List (ModuleSnapshot S)
  approxBytes : Nat

variable {S F : Type}

def totalBytes (entries : List (ModuleSnapshot S)) : Nat :=
  entries.foldl (fun bytes e => bytes + e.approxBytes) 0

def pruneExpired (nowMs ttlMillis : Nat) (entries : List (ModuleSnapshot S)) :
    List (ModuleSnapshot S) × Nat × Bool :=
  if ttlMillis = 0 then ([], totalBytes entries, !entries.isEmpty)
  else
    entries.foldl (fun (kept, removedBytes, removedAny) entry =>
      if nowMs - entry.lastUsedMs ≥ ttlMillis then
        (kept, removedBytes + entry.approxBytes, true)
      else (kept ++ [entry], removedBytes, removedAny)) ([], 0, false)

/-- The entry that was used least recently, the first of them. -/
def oldest? (entries : List (ModuleSnapshot S)) : Option (ModuleSnapshot S) :=
  entries.foldl (keepBetter ModuleSnapshot.lastUsedMs) none

theorem oldest?_mem {entries : List (ModuleSnapshot S)} {oldest : ModuleSnapshot S}
    (found : oldest? entries = some oldest) : oldest ∈ entries := by
  unfold oldest? at found
  rw [foldl_keepBetter] at found
  exact List.argmin_mem found

def withoutKey (key : String) (entries : List (ModuleSnapshot S)) : List (ModuleSnapshot S) :=
  entries.filter fun entry => entry.key != key

theorem withoutKey_length_lt {entries : List (ModuleSnapshot S)} {entry : ModuleSnapshot S}
    (member : entry ∈ entries) : (withoutKey entry.key entries).length < entries.length := by
  unfold withoutKey
  rw [List.length_filter_lt_length_iff_exists]
  exact ⟨entry, member, by simp⟩

def enforceCacheLimits (maxEntries maxBytes : Nat) (entries : List (ModuleSnapshot S)) :
    List (ModuleSnapshot S) × Nat × Bool :=
  if entries.length ≤ maxEntries ∧ totalBytes entries ≤ maxBytes then
    (entries, totalBytes entries, false)
  else
    match _ : oldest? entries with
    | none => ([], 0, false)
    | some oldest => enforceCacheLimits maxEntries maxBytes (withoutKey oldest.key entries)
termination_by entries.length
decreasing_by exact withoutKey_length_lt (oldest?_mem ‹oldest? entries = some oldest›)

def pruneCache (policy : ModuleQueryCachePolicy) (nowMs : Nat)
    (cache : ModuleSnapshotCacheState S) : ModuleSnapshotCacheState S × Bool :=
  let maxEntries := policy.maxEntries.toNat.max 1
  let maxBytes := policy.maxBytes.toNat.max 1
  let (ttlEntries, _, ttlRemoved) := pruneExpired nowMs policy.ttlMillis.toNat cache.entries
  let (boundedEntries, boundedBytes, limitRemoved) :=
    enforceCacheLimits maxEntries maxBytes ttlEntries
  (⟨boundedEntries, boundedBytes⟩, ttlRemoved || limitRemoved)

def findSnapshot? (key : String) (entries : List (ModuleSnapshot S)) : Option (ModuleSnapshot S) :=
  entries.find? fun entry => entry.key == key

def hasFileIdentity (fileIdentity : String) (entries : List (ModuleSnapshot S)) : Bool :=
  entries.any fun entry => entry.fileIdentity == fileIdentity

def upsertSnapshot (snapshot : ModuleSnapshot S) (entries : List (ModuleSnapshot S)) :
    List (ModuleSnapshot S) :=
  withoutKey snapshot.key entries ++ [snapshot]

def newestSameFileSnapshot? (fileIdentity : String) (entries : List (ModuleSnapshot S)) :
    Option (ModuleSnapshot S) :=
  entries.foldl (fun best? entry =>
    if entry.fileIdentity != fileIdentity then best?
    else
      match best? with
      | none => some entry
      | some best => if entry.lastUsedMs > best.lastUsedMs then some entry else best?) none

inductive ModuleQueryCacheStatus where
  | hit
  | rebuilt
  | evicted
  | miss
  deriving DecidableEq

/-- What a query leaves in the cache, and the snapshot that it answers from. The elaboration is
given: it may continue from an older snapshot of the file, and it fails on a bad header. -/
def processModuleQueryBatchCached
    (build : ModuleQueryCachePolicy → Option (ModuleSnapshot S) → Except F (ModuleSnapshot S))
    (policyRaw : String) (nowMs laterMs : Nat) (cache0 : ModuleSnapshotCacheState S) :
    ModuleSnapshotCacheState S × ModuleQueryCacheStatus × Except F (ModuleSnapshot S) :=
  let policy := parseCachePolicy policyRaw
  let (cache1, evictedBeforeLookup) := pruneCache policy nowMs cache0
  let sameFileBeforeBuild := hasFileIdentity policy.fileIdentity cache1.entries
  match findSnapshot? policy.key cache1.entries with
  | some snapshot =>
    let freshSnapshot := { snapshot with lastUsedMs := nowMs }
    let cache2 := { cache1 with entries := upsertSnapshot freshSnapshot cache1.entries }
    (cache2, .hit, .ok freshSnapshot)
  | none =>
    let status :=
      if sameFileBeforeBuild then ModuleQueryCacheStatus.rebuilt
      else if evictedBeforeLookup then .evicted
      else .miss
    match build policy (newestSameFileSnapshot? policy.fileIdentity cache1.entries) with
    | .error failure => (cache1, status, .error failure)
    | .ok snapshot =>
      let cacheWithSnapshot :=
        if snapshot.approxBytes > policy.maxBytes.toNat then cache1
        else
          let entries := upsertSnapshot snapshot cache1.entries
          ⟨entries, totalBytes entries⟩
      ((pruneCache policy laterMs cacheWithSnapshot).1, status, .ok snapshot)

theorem HexDigest.plain (digest : HexDigest) : '\n' ∉ digest.text.toList := by
  intro member
  obtain digit | ⟨low, -⟩ := digest.digits _ member
  · cases digit
  · exact absurd low (by decide)

def policyFields (policy : ModuleQueryCachePolicy) : List (List Char) :=
  [policy.fileIdentity.toList, policy.key.toList, policy.maxEntries.toNat.repr.toList,
    policy.ttlMillis.toNat.repr.toList, policy.maxBytes.toNat.repr.toList]

theorem policyText_toList (policy : ModuleQueryCachePolicy) :
    (policyText policy).toList = ['\n'].intercalate (policyFields policy) := by
  unfold policyText policyFields
  simp [List.intercalate, List.intersperse]

theorem count_policyText (policy : ModuleQueryCachePolicy) :
    policy.fileIdentity.toList.count '\n' + 4 ≤ (policyText policy).toList.count '\n' := by
  rw [policyText_toList]
  simp [policyFields, List.intercalate, List.intersperse, List.count_append]
  omega

theorem fallbackPolicy_ne {policy : ModuleQueryCachePolicy} (plain : '\n' ∉ policy.key.toList) :
    fallbackPolicy (policyText policy) ≠ policy := by
  intro same
  have keys : policyText policy = policy.key := congrArg ModuleQueryCachePolicy.key same
  rw [← keys] at plain
  have broken := count_policyText policy
  rw [List.count_eq_zero_of_not_mem plain] at broken
  omega

theorem parseCachePolicy_plain {policy : ModuleQueryCachePolicy}
    (plainKey : '\n' ∉ policy.key.toList) (plain : '\n' ∉ policy.fileIdentity.toList) :
    parseCachePolicy (policyText policy) = policy := by
  have pieces : ∀ piece ∈ policyFields policy, '\n' ∉ piece := by
    intro piece member
    simp only [policyFields, List.mem_cons, List.not_mem_nil, or_false] at member
    obtain rfl | rfl | rfl | rfl | rfl := member
    · exact plain
    · exact plainKey
    · exact not_mem_repr rfl _
    · exact not_mem_repr rfl _
    · exact not_mem_repr rfl _
  have parts : splitOnNewline (policyText policy) = (policyFields policy).map String.ofList := by
    unfold splitOnNewline
    rw [policyText_toList, List.splitOn_intercalate '\n' pieces (by simp [policyFields])]
  unfold parseCachePolicy
  rw [parts]
  simp only [policyFields, List.map_cons, List.map_nil, String.ofList_toList, toNat?_repr,
    Option.getD_some, Nat.toUInt64_eq, UInt64.ofNat_toNat]

theorem parseCachePolicy_broken {policy : ModuleQueryCachePolicy}
    (broken : '\n' ∈ policy.fileIdentity.toList) :
    parseCachePolicy (policyText policy) = fallbackPolicy (policyText policy) := by
  have count := count_policyText policy
  have positive := List.count_pos_iff.mpr broken
  have many : 5 < (splitOnNewline (policyText policy)).length := by
    unfold splitOnNewline
    rw [List.length_map, splitOn_lines]
    omega
  unfold parseCachePolicy
  split
  · rename_i five
    rw [five] at many
    simp at many
  · rfl

theorem pruneExpired_zero (nowMs : Nat) (entries : List (ModuleSnapshot S)) :
    pruneExpired nowMs 0 entries = ([], totalBytes entries, !entries.isEmpty) := if_pos rfl

theorem enforceCacheLimits_nil (maxEntries maxBytes : Nat) :
    enforceCacheLimits maxEntries maxBytes ([] : List (ModuleSnapshot S)) = ([], 0, false) := by
  rw [enforceCacheLimits, if_pos ⟨Nat.zero_le _, Nat.zero_le _⟩]
  rfl

theorem pruneCache_fallback (raw : String) (nowMs : Nat) (cache : ModuleSnapshotCacheState S) :
    (pruneCache (fallbackPolicy raw) nowMs cache).1.entries = [] := by
  have zero : (fallbackPolicy raw).ttlMillis.toNat = 0 := rfl
  unfold pruneCache
  rw [zero, pruneExpired_zero]
  dsimp only
  rw [enforceCacheLimits_nil]

theorem cache_emptied
    (build : ModuleQueryCachePolicy → Option (ModuleSnapshot S) → Except F (ModuleSnapshot S))
    {raw : String} (fallback : parseCachePolicy raw = fallbackPolicy raw) (nowMs laterMs : Nat)
    (cache : ModuleSnapshotCacheState S) :
    (processModuleQueryBatchCached build raw nowMs laterMs cache).1.entries = [] := by
  have emptied := pruneCache_fallback raw nowMs cache
  have missing : findSnapshot? (fallbackPolicy raw).key
      (pruneCache (fallbackPolicy raw) nowMs cache).1.entries = none := by
    rw [emptied]
    rfl
  unfold processModuleQueryBatchCached
  rw [fallback]
  dsimp only
  rw [missing]
  dsimp only
  split
  · exact emptied
  · rw [pruneCache_fallback]

/-- The policy arrives as it was written exactly when the label of the file holds no line break;
otherwise the query runs under the fallback, and empties the cache. -/
theorem cachePolicy_transport_iff (sha256 : List UInt8 → HexDigest)
    (toolchain : ToolchainFingerprint) (limits : ModuleCacheLimits) (q : ModuleQuery) :
    (parseCachePolicy (policyText (q.cachePolicy sha256 toolchain limits)) =
        q.cachePolicy sha256 toolchain limits ↔
      '\n' ∉ q.options.fileLabel.toList) ∧
    (parseCachePolicy (policyText (q.cachePolicy sha256 toolchain limits)) =
        fallbackPolicy (policyText (q.cachePolicy sha256 toolchain limits)) ↔
      '\n' ∈ q.options.fileLabel.toList) ∧
    ('\n' ∈ q.options.fileLabel.toList → ∀ (build : ModuleQueryCachePolicy →
        Option (ModuleSnapshot S) → Except F (ModuleSnapshot S)) (nowMs laterMs : Nat)
        (cache : ModuleSnapshotCacheState S),
      (processModuleQueryBatchCached build (policyText (q.cachePolicy sha256 toolchain limits))
        nowMs laterMs cache).1.entries = []) := by
  have plainKey : '\n' ∉ (q.cachePolicy sha256 toolchain limits).key.toList := HexDigest.plain _
  have label : (q.cachePolicy sha256 toolchain limits).fileIdentity = q.options.fileLabel := rfl
  rw [← label]
  generalize q.cachePolicy sha256 toolchain limits = policy at plainKey
  refine ⟨⟨?_, parseCachePolicy_plain plainKey⟩, ⟨?_, parseCachePolicy_broken⟩, ?_⟩
  · intro same broken
    rw [parseCachePolicy_broken broken] at same
    exact fallbackPolicy_ne plainKey same
  · intro same
    by_contra plain
    rw [parseCachePolicy_plain plainKey plain] at same
    exact fallbackPolicy_ne plainKey same.symm
  · intro broken build nowMs laterMs cache
    exact cache_emptied build (parseCachePolicy_broken broken) nowMs laterMs cache

def brokenLabel : ModuleQuery where
  session := ⟨"/p", .shimsOnly, [], .server⟩
  source := ""
  options := ⟨"", "a\nb", 0, 0⟩

theorem broken_label_falls_back :
    ¬∀ (sha256 : List UInt8 → HexDigest) (toolchain : ToolchainFingerprint)
      (limits : ModuleCacheLimits) (q : ModuleQuery),
      parseCachePolicy (policyText (q.cachePolicy sha256 toolchain limits)) =
        q.cachePolicy sha256 toolchain limits := by
  intro all
  have zeros : ∀ c ∈ (String.ofList (List.replicate 64 '0')).toList, c.isDigit = true ∨
      'a' ≤ c ∧ c ≤ 'f' := by
    intro c member
    rw [String.toList_ofList] at member
    rw [List.eq_of_mem_replicate member]
    exact Or.inl rfl
  have digest : HexDigest := ⟨String.ofList (List.replicate 64 '0'), by simp, zeros⟩
  have broken : '\n' ∈ brokenLabel.options.fileLabel.toList := by decide
  have same := all (fun _ => digest) ⟨"", "", "", "", ""⟩ ⟨8, 60000, 1024⟩ brokenLabel
  rw [parseCachePolicy_broken broken] at same
  exact fallbackPolicy_ne (HexDigest.plain _) same

end LeanRs
