import Mathlib.Logic.Relation
import LeanRs.Worker.Frame

/-! What the supervisor remembers about one child generation, and the two things that can
happen to it while a request is prepared, sent and read. -/
namespace LeanRs

open Procedures Procedure Supervisor Relation

/-- The per-generation record and what decides about it. -/
structure Core where
  config : LeanWorkerConfig
  budget : GenerationBudget
  openSessionKeys : List LeanWorkerSessionConfig
  reuseHintEnabled : Bool
  reuseObserved : Bool
  pendingRestart : Option LeanWorkerRestartReason
  generation : Nat
  restarts : Nat

def LeanWorker.core (w : LeanWorker) : Core where
  config := w.config
  budget := w.budget
  openSessionKeys := w.openSessionKeys
  reuseHintEnabled := w.reuseHintEnabled
  reuseObserved := w.reuseObserved
  pendingRestart := w.pendingRestart
  generation := w.generation
  restarts := w.stats.restarts

def Core.renewed (k : Core) : Core :=
  { k with
    budget := {}, openSessionKeys := [], reuseHintEnabled := true, reuseObserved := false
    pendingRestart := none, generation := saturatingAdd k.generation 1
    restarts := saturatingAdd k.restarts 1 }

/-- An admitted restart that found no child to continue with has reset the budget already. -/
def Core.discharged (k : Core) : Core :=
  { k with budget := {}, restarts := saturatingAdd k.restarts 1 }

inductive Core.Move : Core → Core → Prop where
  | renewed (k : Core) : Core.Move k k.renewed
  | discharged (k : Core) : Core.Move k k.discharged

def CoreFrame (s t : World) : Prop := ReflTransGen Core.Move s.worker.core t.worker.core

instance : Std.Refl CoreFrame := ⟨fun _ => .refl⟩
instance : IsTrans World CoreFrame := ⟨fun _ _ _ first second => first.trans second⟩

theorem Core.keeps {I : Core → Prop} (renewed : ∀ k, I k → I k.renewed)
    (discharged : ∀ k, I k → I k.discharged) {k k' : Core} (moves : ReflTransGen Core.Move k k')
    (start : I k) : I k' := by
  induction moves with
  | refl => exact start
  | tail _ move ih =>
    cases move with
    | renewed => exact renewed _ ih
    | discharged => exact discharged _ ih

theorem CoreFrame.keeps {I : Core → Prop} (renewed : ∀ k, I k → I k.renewed)
    (discharged : ∀ k, I k → I k.discharged) {s t : World} (frame : CoreFrame s t)
    (start : I s.worker.core) : I t.worker.core :=
  Core.keeps renewed discharged frame start

theorem CoreFrame.config {s t : World} (frame : CoreFrame s t) :
    t.worker.config = s.worker.config :=
  frame.keeps (I := fun k => k.config = s.worker.config) (fun _ h => h) (fun _ h => h) rfl

theorem CoreFrame.ofEq {s t : World} (same : t.worker.core = s.worker.core) : CoreFrame s t := by
  unfold CoreFrame
  rw [same]

theorem CoreFrame.ofMove {s t : World} (move : Core.Move s.worker.core t.worker.core) :
    CoreFrame s t := ReflTransGen.single move

theorem count_core (f : LeanWorkerStats → LeanWorkerStats)
    (same : ∀ stats, (f stats).restarts = stats.restarts) : Moves CoreFrame (count f) :=
  fun s => .ofEq (by simp [LeanWorker.core, same])

theorem emit_core (e : Effect) : Moves CoreFrame (emit e) := fun _ => .ofEq rfl

theorem StopFrame.core {s t : World} (frame : StopFrame s t) :
    t.worker.core = s.worker.core :=
  congrArg (fun ledger : Ledger => (⟨ledger.config, ledger.budget, ledger.openSessionKeys,
    ledger.reuseHintEnabled, ledger.reuseObserved, ledger.pendingRestart,
    ledger.generation, ledger.stats.restarts⟩ : Core)) frame.ledger

theorem moves_core_of_stop {A : Type} {m : Supervisor A} (frame : Moves StopFrame m) :
    Moves CoreFrame m := fun s => .ofEq (frame s).core

theorem spawn_worker (config : LeanWorkerConfig) (answer : SpawnAnswer) (s : World) :
    (spawn config answer s).state.worker = s.worker := by
  cases answer with
  | handshakeFailed wait => cases wait <;> simp [spawn, waitWithStderr]
  | startupTimeout wait => cases wait <;> simp [spawn, waitWithStderr]
  | _ => simp [spawn]

theorem LeanWorker.core_discharged (w : LeanWorker) (reason : LeanWorkerRestartReason) :
    ({ w.counted (fun stats => stats.budgetAdmitted.recordRestart reason) with budget := {} } :
      LeanWorker).core = w.core.discharged := by
  simp only [core, Core.discharged, counted, LeanWorkerStats.recordRestart_restarts]
  rfl

theorem LeanWorker.core_replacedBy (w : LeanWorker) (reason : LeanWorkerRestartReason) (pid : Nat)
    (stderr : Bool) (elapsed : Duration) (now : Instant) (total : Duration) (activity : Instant) :
    (({ w.counted (fun stats => stats.budgetAdmitted.recordRestart reason) with budget := {} } :
      LeanWorker).replacedBy (.fresh w.config pid stderr elapsed now) total activity).core =
        w.core.renewed := by
  simp only [core, Core.renewed, replacedBy, LeanWorkerStats.replaced, counted,
    LeanWorkerStats.recordRestart_restarts]
  rfl

theorem spawnReplacement_core (reason : LeanWorkerRestartReason) (a : RestartAnswers) (s : World) :
    CoreFrame s (spawnReplacement s.worker.config reason a s).state := by
  have started := spawn_meets s.worker.config a.spawn ⟨{ s.worker.counted
    (fun stats => stats.budgetAdmitted.recordRestart reason) with budget := {} }, s.effects⟩
  have kept := spawn_worker s.worker.config a.spawn ⟨{ s.worker.counted
    (fun stats => stats.budgetAdmitted.recordRestart reason) with budget := {} }, s.effects⟩
  have way := spawnReplacement_way s.worker.config reason a s
  generalize spawnReplacement s.worker.config reason a s = outcome at way ⊢
  cases way with
  | @waiting t spawned =>
    rw [spawned] at kept
    have core : t.worker.core = s.worker.core.discharged :=
      (congrArg LeanWorker.core kept).trans (s.worker.core_discharged reason)
    exact .ofMove (core ▸ .discharged _)
  | @failed err t spawned =>
    rw [spawned] at kept
    have core : t.worker.core = s.worker.core.discharged :=
      (congrArg LeanWorker.core kept).trans (s.worker.core_discharged reason)
    have move : Core.Move s.worker.core t.worker.core := core ▸ .discharged _
    exact .ofMove move
  | @started next t spawned =>
    rw [spawned] at started
    obtain ⟨same, pid, stderr, elapsed, now, rfl⟩ := started
    have core : (t.worker.replacedBy (.fresh s.worker.config pid stderr elapsed now) a.total
        a.activity).core = s.worker.core.renewed :=
      (congrArg (fun w : LeanWorker => (w.replacedBy (.fresh s.worker.config pid stderr elapsed now)
        a.total a.activity).core) same).trans (s.worker.core_replacedBy reason _ _ _ _ _ _)
    exact .ofMove (core ▸ .renewed _)

theorem restartWithReason_core (reason : LeanWorkerRestartReason) (a : RestartAnswers) :
    Moves CoreFrame (restartWithReason reason a) := by
  intro s
  have stop := moves_core_of_stop (shutdownChild_frame a.stop (stopIntent reason))
    ⟨s.worker.counted LeanWorkerStats.attempted, s.effects ++ [.replace reason]⟩
  have way := restartWithReason_way reason a s
  generalize restartWithReason reason a s = outcome at way ⊢
  cases way with
  | stopping stopped =>
    rw [stopped] at stop
    exact stop
  | unstopped stopped =>
    rw [stopped] at stop
    exact stop
  | full stopped room =>
    rw [stopped] at stop
    exact stop
  | @admitted report t stopped room =>
    rw [stopped] at stop
    have config : t.worker.config = s.worker.config := CoreFrame.config stop
    rw [← config]
    exact IsTrans.trans _ _ _ stop (spawnReplacement_core reason a ⟨{ t.worker with
      restartWindow := dropExpired t.worker.config.restartPolicy.restartIntensity.window a.now
        t.worker.restartWindow ++ [a.now] }, t.effects⟩)

instance : Framed CoreFrame where
  count := count_core
  emit e _ := emit_core e
  track _ same _ := .ofEq (congrArg LeanWorker.core (same _) :)
  stop := moves_core_of_stop
  restart := restartWithReason_core
  send _ _ := emit_core _
  deliver _ := emit_core _

end LeanRs
