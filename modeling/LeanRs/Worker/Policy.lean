import LeanRs.Worker.Protocol
import Mathlib.Algebra.Order.Ring.Int

/-! Restart policy, per-generation budget and lifetime counters. Durations and instants are
nanoseconds; the counters are 64-bit and saturate. -/
namespace LeanRs

def u64Max : Nat := 2 ^ 64 - 1

def saturatingAdd (a b : Nat) : Nat := min (a + b) u64Max

theorem saturatingAdd_le (a b : Nat) : saturatingAdd a b ≤ a + b := Nat.min_le_left _ _

theorem le_saturatingAdd (a b : Nat) (fits : a ≤ u64Max) : a ≤ saturatingAdd a b := by
  unfold saturatingAdd
  omega

theorem saturatingAdd_le_max (a b : Nat) : saturatingAdd a b ≤ u64Max := Nat.min_le_right _ _

theorem saturatingAdd_zero (a b : Nat) :
    saturatingAdd (saturatingAdd a b) 0 = saturatingAdd a b := by
  unfold saturatingAdd
  generalize u64Max = limit
  omega

theorem saturatingAdd_assoc (a b c : Nat) :
    saturatingAdd (saturatingAdd a b) c = saturatingAdd a (saturatingAdd b c) := by
  unfold saturatingAdd
  generalize u64Max = limit
  omega

theorem saturatingAdd_right_comm (a b c : Nat) :
    saturatingAdd (saturatingAdd a b) c = saturatingAdd (saturatingAdd a c) b := by
  unfold saturatingAdd
  generalize u64Max = limit
  omega

theorem saturatingAdd_min (n : Nat) : saturatingAdd (min n u64Max) 1 = min (n + 1) u64Max := by
  unfold saturatingAdd
  generalize u64Max = limit
  omega

abbrev Duration := Nat
abbrev Instant := Nat

namespace Duration

/-- `Duration::MAX` has `u64::MAX` seconds and 999999999 nanoseconds. -/
def maxNanos : Nat := 2 ^ 64 * 1000000000 - 1
def fromMillis (n : Nat) : Duration := n * 1000000
def fromSecs (n : Nat) : Duration := n * 1000000000
def asMillis (d : Duration) : Nat := d / 1000000
def saturatingAdd (a b : Duration) : Duration := min (a + b) maxNanos

end Duration

namespace Instant

/-- A Unix instant holds a signed 64-bit count of seconds. -/
def maxNanos : Nat := 2 ^ 63 * 1000000000 - 1

def checkedAdd (start : Instant) (d : Duration) : Option Instant :=
  if start + d ≤ maxNanos then some (start + d) else none

def checkedDurationSince (later earlier : Instant) : Option Duration :=
  if earlier ≤ later then some (later - earlier) else none

def saturatingDurationSince (later earlier : Instant) : Duration := later - earlier

end Instant

/-- Parent-side view of one host session: what was asked for, not what the child made of it. -/
inductive LeanWorkerSessionMode where
  | capability (package libName : String) (manifestPath : Option PathBuf)
  | shimsOnly
  deriving DecidableEq

def LeanWorkerSessionMode.same : LeanWorkerSessionMode → LeanWorkerSessionMode → Bool
  | .capability package libName manifest, .capability package' libName' manifest' =>
    package == package' && libName == libName' && manifest == manifest'
  | .shimsOnly, .shimsOnly => true
  | _, _ => false

instance : BEq LeanWorkerSessionMode := ⟨LeanWorkerSessionMode.same⟩

structure LeanWorkerSessionConfig where
  projectRoot : PathBuf
  mode : LeanWorkerSessionMode
  imports : List String
  importProfile : LeanWorkerSessionImportProfile
  deriving DecidableEq

instance : BEq LeanWorkerSessionConfig where
  beq a b := a.projectRoot == b.projectRoot && a.mode == b.mode && a.imports == b.imports &&
    a.importProfile == b.importProfile

def LeanWorkerSessionConfig.projectRootString (config : LeanWorkerSessionConfig) : String :=
  config.projectRoot.pathString

structure RestartIntensityLimit where
  maxRestarts : Nat := 16
  window : Duration := Duration.fromSecs 60
  deriving DecidableEq

theorem no_limit : ∀ limit : Nat, none = some limit → 1 ≤ limit := nofun

theorem RestartIntensityLimit.maxRestarts_pos : 1 ≤ ({} : RestartIntensityLimit).maxRestarts := by
  decide

theorem RestartIntensityLimit.window_pos : 1 ≤ ({} : RestartIntensityLimit).window := by decide

/-- Policy for cycling a worker child before the next request. The builder methods clamp every
limit to at least one, so a policy that the code can hold has positive limits. -/
structure LeanWorkerRestartPolicy where
  maxRequests : Option Nat := none
  maxImports : Option Nat := none
  maxImportResidueBytes : Option Nat := none
  maxRssKib : Option Nat := none
  idleRestartAfter : Option Duration := none
  restartIntensity : RestartIntensityLimit := {}
  maxRequests_pos : ∀ limit, maxRequests = some limit → 1 ≤ limit := by
    first | exact no_limit | simp
  maxImports_pos : ∀ limit, maxImports = some limit → 1 ≤ limit := by
    first | exact no_limit | simp
  maxImportResidueBytes_pos : ∀ limit, maxImportResidueBytes = some limit → 1 ≤ limit := by
    first | exact no_limit | simp
  maxRssKib_pos : ∀ limit, maxRssKib = some limit → 1 ≤ limit := by
    first | exact no_limit | simp
  maxRestarts_pos : 1 ≤ restartIntensity.maxRestarts := by
    first | exact RestartIntensityLimit.maxRestarts_pos | decide
  window_pos : 1 ≤ restartIntensity.window := by
    first | exact RestartIntensityLimit.window_pos | decide
  deriving DecidableEq

namespace LeanWorkerRestartPolicy

def disabled : LeanWorkerRestartPolicy := {}

theorem clamped (limit value : Nat) (set : some (max limit 1) = some value) : 1 ≤ value := by
  have h := Option.some.inj set
  omega

def withMaxRequests (policy : LeanWorkerRestartPolicy) (limit : Nat) : LeanWorkerRestartPolicy :=
  { policy with maxRequests := some (max limit 1), maxRequests_pos := clamped limit }

def withMaxImports (policy : LeanWorkerRestartPolicy) (limit : Nat) : LeanWorkerRestartPolicy :=
  { policy with maxImports := some (max limit 1), maxImports_pos := clamped limit }

def withMaxRestartsPerWindow (policy : LeanWorkerRestartPolicy) (maxRestarts : Nat)
    (window : Duration) : LeanWorkerRestartPolicy :=
  { policy with
    restartIntensity := ⟨max maxRestarts 1, max window (Duration.fromMillis 1)⟩
    maxRestarts_pos := Nat.le_max_right _ _
    window_pos := Nat.le_trans (by decide) (Nat.le_max_right _ _) }

end LeanWorkerRestartPolicy

inductive LeanWorkerRestartReason where
  | explicit
  | maxRequests (limit : Nat)
  | maxImports (limit : Nat)
  | importResidue (residueBytes limitBytes : Nat)
  | rssCeiling (currentKib limitKib : Nat) (lastImportStats : Option LeanWorkerImportStats)
  | rssHardLimit (operation : String) (currentKib limitKib : Nat)
      (lastImportStats : Option LeanWorkerImportStats)
  | idle (idleFor limit : Duration)
  | cancelled (operation : String)
  | requestTimeout (operation : String) (duration : Duration)
  | childAbort (operation status diagnostics : String)
  deriving DecidableEq

def LeanWorkerRestartReason.stableCause : LeanWorkerRestartReason → String
  | explicit => "explicit"
  | maxRequests _ => "max_requests"
  | maxImports _ => "max_imports"
  | importResidue _ _ => "import_residue"
  | rssCeiling _ _ _ => "rss_ceiling"
  | rssHardLimit _ _ _ _ => "rss_hard_limit"
  | idle _ _ => "idle"
  | cancelled _ => "cancelled"
  | requestTimeout _ _ => "timeout"
  | childAbort _ _ _ => "child_abort"

structure GenerationBudget where
  requests : Nat := 0
  imports : Nat := 0
  importResidueBytes : Nat := 0
  deriving DecidableEq, Inhabited

namespace GenerationBudget

def recordRequest (budget : GenerationBudget) (importLike : Bool) : GenerationBudget :=
  { budget with
    requests := saturatingAdd budget.requests 1
    imports := if importLike then saturatingAdd budget.imports 1 else budget.imports }

def recordImport (budget : GenerationBudget) (importStats : LeanWorkerImportStats) :
    GenerationBudget :=
  { budget with
    imports := saturatingAdd budget.imports 1
    importResidueBytes :=
      saturatingAdd budget.importResidueBytes importStats.nonMemoryMappedRegionBytes }

/-- Why this generation must cycle before another import: residue first. -/
def importLimitReached (budget : GenerationBudget) (policy : LeanWorkerRestartPolicy) :
    Option LeanWorkerRestartReason :=
  let byCount := match policy.maxImports with
    | some limit => if budget.imports ≥ limit then some (.maxImports limit) else none
    | none => none
  match policy.maxImportResidueBytes with
  | some limitBytes =>
    if budget.importResidueBytes ≥ limitBytes then
      some (.importResidue budget.importResidueBytes limitBytes)
    else byCount
  | none => byCount

def requestLimitReached (budget : GenerationBudget) (policy : LeanWorkerRestartPolicy) :
    Option LeanWorkerRestartReason :=
  (policy.maxRequests.filter (fun limit => budget.requests ≥ limit)).map .maxRequests

theorem recordRequest_imports_le (budget : GenerationBudget) (importLike : Bool) :
    (budget.recordRequest importLike).imports ≤ budget.imports + 1 := by
  cases importLike
  · exact Nat.le_succ _
  · exact saturatingAdd_le _ _

theorem recordImport_imports_le (budget : GenerationBudget) (importStats : LeanWorkerImportStats) :
    (budget.recordImport importStats).imports ≤ budget.imports + 1 := saturatingAdd_le _ _

theorem imports_lt_of_not_reached (budget : GenerationBudget) (policy : LeanWorkerRestartPolicy)
    (limit : Nat) (configured : policy.maxImports = some limit)
    (below : budget.importLimitReached policy = none) : budget.imports < limit := by
  by_contra reached
  have atLimit : budget.imports ≥ limit := by omega
  unfold importLimitReached at below
  simp only [configured, if_pos atLimit] at below
  split at below
  · split at below <;> cases below
  · cases below

theorem importLimitReached_isSome (budget : GenerationBudget) (policy : LeanWorkerRestartPolicy)
    (limit : Nat) (configured : policy.maxImports = some limit) (reached : limit ≤ budget.imports) :
    (budget.importLimitReached policy).isSome := by
  cases h : budget.importLimitReached policy with
  | some reason => rfl
  | none =>
    have := imports_lt_of_not_reached budget policy limit configured h
    omega

end GenerationBudget

structure LeanWorkerReplacementTiming where
  spawnHandshake : Duration
  capabilityLoad : Duration
  sessionOpenImport : Duration
  firstCommand : Option Duration
  warmCommand : Option Duration
  replacementTotal : Duration
  replacementReason : String
  replacementBudgetStatus : String
  deriving DecidableEq

/-- Lifetime counters, cloned forward onto every replacement child. -/
structure LeanWorkerStats where
  requests : Nat := 0
  imports : Nat := 0
  importLikeAdmissionAttempts : Nat := 0
  importLikeAdmitted : Nat := 0
  lastImportLikeRssBeforeAdmissionKib : Option Nat := none
  exits : Nat := 0
  restarts : Nat := 0
  explicitCycles : Nat := 0
  maxRequestRestarts : Nat := 0
  maxImportRestarts : Nat := 0
  importResidueRestarts : Nat := 0
  importStatsUnusable : Nat := 0
  rssRestarts : Nat := 0
  idleRestarts : Nat := 0
  cancelledRestarts : Nat := 0
  timeoutRestarts : Nat := 0
  rssSamplesUnavailable : Nat := 0
  lastRssKib : Option Nat := none
  lastRestartReason : Option LeanWorkerRestartReason := none
  replacementAttempts : Nat := 0
  replacementSuccesses : Nat := 0
  replacementFailures : Nat := 0
  replacementBudgetAdmitted : Nat := 0
  replacementBudgetSkipped : Nat := 0
  lastReplacementTiming : Option LeanWorkerReplacementTiming := none
  lastReplacementSkippedReason : Option String := none
  lastSpawnHandshakeElapsed : Option Duration := none
  lastCapabilityLoadElapsed : Option Duration := none
  lastSessionOpenImportElapsed : Option Duration := none
  lastFirstCommandElapsed : Option Duration := none
  lastWarmCommandElapsed : Option Duration := none
  lastImportStats : Option LeanWorkerImportStats := none
  streamRequests : Nat := 0
  streamSuccesses : Nat := 0
  streamFailures : Nat := 0
  dataRowsDelivered : Nat := 0
  dataRowPayloadBytes : Nat := 0
  streamElapsed : Duration := 0
  backpressureWaits : Nat := 0
  backpressureFailures : Nat := 0
  deriving DecidableEq, Inhabited

/-- One more restart, under the counter its cause has. A child abort has none of its own. -/
def LeanWorkerStats.recordRestart (stats : LeanWorkerStats) (reason : LeanWorkerRestartReason) :
    LeanWorkerStats :=
  let counted := { stats with
    restarts := saturatingAdd stats.restarts 1, lastRestartReason := some reason }
  match reason with
  | .explicit => { counted with explicitCycles := saturatingAdd stats.explicitCycles 1 }
  | .maxRequests _ =>
    { counted with maxRequestRestarts := saturatingAdd stats.maxRequestRestarts 1 }
  | .maxImports _ => { counted with maxImportRestarts := saturatingAdd stats.maxImportRestarts 1 }
  | .importResidue _ _ =>
    { counted with importResidueRestarts := saturatingAdd stats.importResidueRestarts 1 }
  | .rssCeiling _ _ _ => { counted with rssRestarts := saturatingAdd stats.rssRestarts 1 }
  | .rssHardLimit _ _ _ _ => { counted with rssRestarts := saturatingAdd stats.rssRestarts 1 }
  | .idle _ _ => { counted with idleRestarts := saturatingAdd stats.idleRestarts 1 }
  | .cancelled _ => { counted with cancelledRestarts := saturatingAdd stats.cancelledRestarts 1 }
  | .requestTimeout _ _ => { counted with timeoutRestarts := saturatingAdd stats.timeoutRestarts 1 }
  | .childAbort _ _ _ => counted

@[simp] theorem LeanWorkerStats.recordRestart_restarts (stats : LeanWorkerStats)
    (reason : LeanWorkerRestartReason) :
    (stats.recordRestart reason).restarts = saturatingAdd stats.restarts 1 := by
  cases reason <;> rfl

@[simp] theorem LeanWorkerStats.recordRestart_reason (stats : LeanWorkerStats)
    (reason : LeanWorkerRestartReason) :
    (stats.recordRestart reason).lastRestartReason = some reason := by
  cases reason <;> rfl

end LeanRs
