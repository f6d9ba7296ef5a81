import LeanRs.Worker.Handles
import LeanRs.Worker.Turns

/-! The three counters of the streaming requests, and everything that leaves them alone. -/
namespace LeanRs

open Procedures Procedure Supervisor

structure StreamCounts where
  requests : Nat
  successes : Nat
  failures : Nat
  deriving DecidableEq

def LeanWorkerStats.streams (stats : LeanWorkerStats) : StreamCounts where
  requests := stats.streamRequests
  successes := stats.streamSuccesses
  failures := stats.streamFailures

def World.streams (s : World) : StreamCounts := s.worker.stats.streams

namespace StreamCounts

def requested (k : StreamCounts) : StreamCounts :=
  { k with requests := saturatingAdd k.requests 1 }

def succeeded (k : StreamCounts) : StreamCounts :=
  { k with successes := saturatingAdd k.successes 1 }

def failed (k : StreamCounts) : StreamCounts := { k with failures := saturatingAdd k.failures 1 }

/-- Every streaming request has come to an end, one way or the other. -/
def Conserved (k : StreamCounts) : Prop :=
  k.requests < u64Max → k.requests = k.successes + k.failures

inductive Settles (k : StreamCounts) : StreamCounts → Prop where
  | succeeded : k.Settles k.succeeded
  | failed : k.Settles k.failed

theorem Conserved.settled {k k' : StreamCounts} (conserved : k.Conserved)
    (settles : k.requested.Settles k') : k'.Conserved := by
  unfold Conserved at conserved ⊢
  cases settles <;> simp only [succeeded, failed, requested, saturatingAdd]
  · generalize u64Max = limit at conserved ⊢
    omega
  · generalize u64Max = limit at conserved ⊢
    omega

end StreamCounts

theorem worker_streams : Fixes World.streams worker := fun _ _ held => held

theorem modify_streams (f : LeanWorker → LeanWorker)
    (same : ∀ w, (f w).stats.streams = w.stats.streams) : Fixes World.streams (modify f) :=
  .update fun s => same s.worker

theorem count_streams (f : LeanWorkerStats → LeanWorkerStats)
    (same : ∀ stats, (f stats).streams = stats.streams) : Fixes World.streams (count f) :=
  .update fun s => same s.worker.stats

theorem emit_streams (e : Effect) : Fixes World.streams (emit e) := .update fun _ => rfl

theorem finish_streams : Fixes World.streams (modify LeanWorker.finishInFlight) := by
  refine modify_streams _ fun w => ?_
  unfold LeanWorker.finishInFlight
  split <;> rfl

theorem mark_streams : Fixes World.streams (modify LeanWorker.markCurrentRequestStreaming) := by
  refine modify_streams _ fun w => ?_
  unfold LeanWorker.markCurrentRequestStreaming
  split <;> rfl

theorem stop_streams {A : Type} {m : Supervisor A} (frame : Moves StopFrame m) :
    Fixes World.streams m :=
  frame.fixes fun _ _ held => congrArg (fun ledger => ledger.stats.streams) held.ledger

theorem rssSampled_streams (sample : Option Nat) (stats : LeanWorkerStats) :
    (stats.rssSampled sample).streams = stats.streams := by
  cases sample <;> rfl

theorem admitted_streams (importLike : Bool) (stats : LeanWorkerStats) :
    (stats.admitted importLike).streams = stats.streams := by
  cases importLike <;> rfl

theorem waitWithStderr_streams (answer : WaitAnswer) :
    Fixes World.streams (waitWithStderr answer) := by
  cases answer
  · exact .raise _
  · exact .pure _
  · exact .wait

theorem spawn_streams (config : LeanWorkerConfig) (answer : SpawnAnswer) :
    Fixes World.streams (spawn config answer) := by
  refine .bind (emit_streams _) fun _ => ?_
  cases answer with
  | handshakeFailed wait => exact .bind (waitWithStderr_streams wait) fun _ => .raise _
  | startupTimeout wait => exact .bind (waitWithStderr_streams wait) fun _ => .raise _
  | ready pid stderr elapsed now => exact .pure _
  | _ => exact .raise _

theorem admitRestart_streams (now : Instant) : Fixes World.streams (admitRestart now) :=
  .bind worker_streams fun _ => .choose
    (fun _ => .bind (modify_streams _ fun _ => rfl) fun _ => .raise _)
    fun _ => modify_streams _ fun _ => rfl

theorem spawnReplacement_streams (config : LeanWorkerConfig) (reason : LeanWorkerRestartReason)
    (a : RestartAnswers) : Fixes World.streams (spawnReplacement config reason a) := by
  have recorded : ∀ stats : LeanWorkerStats,
      (stats.budgetAdmitted.recordRestart reason).streams = stats.streams := by
    intro stats
    cases reason <;> rfl
  refine .bind (count_streams _ recorded) fun _ => .bind (modify_streams _ fun _ => rfl)
    fun _ => .bind (.capture (spawn_streams config a.spawn)) fun spawned => ?_
  cases spawned with
  | error err => exact .bind (count_streams _ fun _ => rfl) fun _ => .raise _
  | ok next => exact modify_streams _ fun _ => rfl

theorem restartWithReason_streams (reason : LeanWorkerRestartReason) (a : RestartAnswers) :
    Fixes World.streams (restartWithReason reason a) := by
  refine .bind worker_streams fun w => .bind (emit_streams _) fun _ =>
    .bind (count_streams _ fun _ => rfl) fun _ =>
    .bind (.capture (stop_streams (shutdownChild_frame a.stop (stopIntent reason))))
    fun stopped => ?_
  cases stopped with
  | error err => exact .bind (count_streams _ fun _ => rfl) fun _ => .raise _
  | ok report =>
    refine .bind (.capture (admitRestart_streams a.now)) fun admitted => ?_
    cases admitted with
    | error err => exact .bind (count_streams _ fun _ => rfl) fun _ => .raise _
    | ok _ => exact spawnReplacement_streams w.config reason a

theorem ensureRunning_streams (answer : TryWait) :
    Fixes World.streams (ensureRunning answer) := by
  refine .bind worker_streams fun w => .choose (fun _ => .raise _) fun _ =>
    .bind (stop_streams (status_frame answer)) fun found => ?_
  cases found with
  | running => exact .pure _
  | exited exit => exact .raise _

theorem countImportLikeAdmission_streams (importLike : Bool) (sample : Option Nat) :
    Fixes World.streams (countImportLikeAdmission importLike sample) :=
  .bind worker_streams fun _ => .choose (fun _ => count_streams _ fun _ => rfl) fun _ => .pure _

theorem rssCeilingReached_streams (sample : Option Nat) :
    Fixes World.streams (rssCeilingReached sample) := by
  refine .bind worker_streams fun w => ?_
  split
  · exact .pure _
  · exact .bind (count_streams _ (rssSampled_streams _)) fun _ => .pure _

theorem prepareRequest_streams (importLike : Bool) (a : PrepareAnswers) :
    Fixes World.streams (prepareRequest importLike a) := by
  have restarts : ∀ reason, Fixes World.streams (restartAdmitting importLike reason a.restart) :=
    fun reason => .bind (restartWithReason_streams reason a.restart) fun _ =>
      count_streams _ (admitted_streams importLike)
  refine .bind (ensureRunning_streams a.poll) fun _ =>
    .bind (countImportLikeAdmission_streams importLike _) fun _ => .bind worker_streams fun w => ?_
  split
  · exact restarts _
  · refine .bind (rssCeilingReached_streams a.rss) fun ceiling => ?_
    split
    · exact restarts _
    · split
      · exact restarts _
      · exact count_streams _ (admitted_streams importLike)

theorem sendRequest_streams (poll : TryWait) (request : Request) (answer : WriteAnswer) :
    Fixes World.streams (sendRequest poll request answer) := by
  refine .bind (ensureRunning_streams poll) fun _ => .bind worker_streams fun w =>
    .choose (fun _ => .bind (emit_streams _) fun _ => ?_) fun _ => .raise _
  cases answer
  · exact .pure _
  · exact .raise _
  · exact .raise _

theorem issueRequest_streams (request : Request) (importLike : Bool) (a : RequestAnswers) :
    Fixes World.streams (issueRequest request importLike a) :=
  .bind (prepareRequest_streams importLike a.prepare) fun _ =>
    .bind (sendRequest_streams a.poll request a.write) fun _ => modify_streams _ fun _ => rfl

theorem hardRssLimitExceeded_streams (sample : Option Nat) :
    Fixes World.streams (hardRssLimitExceeded sample) := by
  refine .bind worker_streams fun w => ?_
  split
  · exact .pure _
  · exact .bind (count_streams _ (rssSampled_streams _)) fun _ => .pure _

theorem receiveEvent_streams (c : RequestContext) (a : TurnAnswers) :
    Fixes World.streams (receiveEvent c a) := by
  refine .bind worker_streams fun w => ?_
  split
  · exact .pure _
  · refine .bind (emit_streams _) fun _ => ?_
    split <;> exact .pure _
  · refine .bind (emit_streams _) fun _ => ?_
    split
    · exact .pure _
    · exact .wait
    · exact .pure _

theorem reportParentProgress_streams (present : Bool) (tick : ProgressTick) (elapsed : Duration)
    (sink : SinkAnswer) : Fixes World.streams (reportParentProgress present tick elapsed sink) := by
  refine .choose (fun _ => .bind (emit_streams _) fun _ => ?_) fun _ => .pure _
  cases sink
  · exact .pure _
  · exact .pure _
  · exact .raise _

theorem reportParentDataRow_streams (target : Option DataSinkTarget) (row : DataRow)
    (sink : SinkAnswer) : Fixes World.streams (reportParentDataRow target row sink) := by
  unfold reportParentDataRow
  split
  · exact .raise _
  · exact .raise _
  · exact .bind (emit_streams _) fun _ => .raise _
  · exact emit_streams _

theorem reportParentDiagnostic_streams (present : Bool) (diagnostic : Diagnostic)
    (sink : SinkAnswer) : Fixes World.streams (reportParentDiagnostic present diagnostic sink) := by
  refine .choose (fun _ => .bind (emit_streams _) fun _ => ?_) fun _ => .pure _
  cases sink
  · exact .pure _
  · exact .pure _
  · exact .raise _

end LeanRs
