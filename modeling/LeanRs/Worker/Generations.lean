import LeanRs.Worker.Replacement

/-! The generation that callers compare against the one that requests and reader events are
stamped with. The first counts admitted restarts, the second the children they installed. -/
namespace LeanRs

open Procedures Procedure Supervisor

structure LeanWorkerLifecycleSnapshot where
  workerGeneration : Nat
  restarts : Nat
  exits : Nat
  lastRestartReason : Option LeanWorkerRestartReason
  lastExit : Option LeanWorkerExit
  lastRssKib : Option Nat
  rssSamplesUnavailable : Nat
  importResidueBytes : Nat
  importResidueLimitBytes : Option Nat
  deriving DecidableEq

def LeanWorkerLifecycleSnapshot.fromWorker (stats : LeanWorkerStats)
    (lastExit : Option LeanWorkerExit) (importResidueBytes : Nat)
    (importResidueLimitBytes : Option Nat) : LeanWorkerLifecycleSnapshot where
  workerGeneration := stats.restarts
  restarts := stats.restarts
  exits := stats.exits
  lastRestartReason := stats.lastRestartReason
  lastExit := lastExit
  lastRssKib := stats.lastRssKib
  rssSamplesUnavailable := stats.rssSamplesUnavailable
  importResidueBytes := importResidueBytes
  importResidueLimitBytes := importResidueLimitBytes

def LeanWorker.lifecycleSnapshot (w : LeanWorker) : LeanWorkerLifecycleSnapshot :=
  .fromWorker w.stats w.lastExit w.budget.importResidueBytes
    w.config.restartPolicy.maxImportResidueBytes

/-- Every child that a restart of the operation asks for starts and shakes hands. -/
def Op.replacementsStart (op : Op) : Bool := op.restarts.all fun a => a.spawn.starts

/-- Both generations agree, and every child asked for since `first` has moved them by one, up to
the bound of the counter. -/
structure Tallied (first : Nat) (s : World) : Prop where
  reported : s.worker.stats.restarts = s.worker.generation
  generation : s.worker.generation = min (first + spawns s.effects) u64Max

theorem Tallied.congr {first : Nat} {s t : World} (tallied : Tallied first s)
    (core : t.worker.core = s.worker.core) (spawned : spawns t.effects = spawns s.effects) :
    Tallied first t := by
  have generation : t.worker.generation = s.worker.generation := congrArg Core.generation core
  have restarts : t.worker.stats.restarts = s.worker.stats.restarts :=
    congrArg Core.restarts core
  constructor
  · rw [restarts, generation, tallied.reported]
  · rw [generation, spawned, tallied.generation]

theorem Tallied.renewed {first : Nat} {s t : World} (tallied : Tallied first s)
    (core : t.worker.core = s.worker.core.renewed)
    (spawned : spawns t.effects = spawns s.effects + 1) : Tallied first t := by
  have generation : t.worker.generation = saturatingAdd s.worker.generation 1 :=
    congrArg Core.generation core
  have restarts : t.worker.stats.restarts = saturatingAdd s.worker.stats.restarts 1 :=
    congrArg Core.restarts core
  constructor
  · rw [restarts, generation, tallied.reported]
  · rw [generation, spawned, tallied.generation]
    unfold saturatingAdd
    omega

theorem Bookkeeping.generations {f : LeanWorker → LeanWorker} (books : Bookkeeping f)
    (w : LeanWorker) :
    (f w).stats.restarts = w.stats.restarts ∧ (f w).generation = w.generation :=
  ⟨congrArg Lifeline.restarts (books.lifeline w), congrArg Lifeline.generation (books.lifeline w)⟩

theorem contract_tallied (first : Nat) :
    Contract (fun a => a.spawn.starts = true) (Tallied first) (fun _ => True) where
  book f books := by
    refine Triple.update fun s tallied => ?_
    obtain ⟨restarts, generation⟩ := books.generations s.worker
    exact ⟨by rw [restarts, generation, tallied.reported], by rw [generation, tallied.generation]⟩
  emit e request := by
    refine Triple.update fun s tallied => tallied.congr rfl ?_
    have other : e ≠ .spawn := by
      rintro rfl
      cases request
    simp [other]
  status answer :=
    .ofMoves (status_frame answer) fun _ _ frame held => held.congr frame.core frame.spawns
  waitForExit answer :=
    .ofMoves (waitForExit_frame answer) fun _ _ frame held => held.congr frame.core frame.spawns
  killChild answer :=
    .ofMoves (killChild_frame answer) fun _ _ frame held => held.congr frame.core frame.spawns
  shutdown a :=
    .ofMoves (shutdownChild_frame a .graceful) fun _ _ frame held =>
      held.congr frame.core frame.spawns
  restart reason a starts := by
    intro s tallied
    refine (restartWithReason_tallies reason a s).weaken (fun _ t held => ?_) fun e t held => ?_
    · exact tallied.renewed held.2.1 held.2.2
    · rcases held with ⟨core, spawned⟩ | ⟨unstarted, _, _⟩
      · exact ⟨tallied.congr core spawned, fun _ => trivial⟩
      · rw [starts] at unstarted
        cases unstarted
  finish _ _ := trivial
  forget _ _ := trivial

/-- The public generation is the private one, and the operation has moved them by one for every
child that it installed, up to the bound of the counter. -/
structure LeanWorker.Accounts (w : LeanWorker) (t : World) : Prop where
  reported : t.worker.lifecycleSnapshot.workerGeneration = t.worker.generation
  monotone : w.generation ≤ t.worker.generation
  counted : t.worker.generation = min (w.generation + spawns t.effects) u64Max

theorem perform_accounts (w : LeanWorker) (op : Op) (starts : op.replacementsStart = true)
    (reported : w.stats.restarts = w.generation) (fits : w.generation ≤ u64Max) (t : World)
    (ended : (op.perform ⟨w, []⟩).ended = some t) : w.Accounts t := by
  have tallied : Tallied w.generation ⟨w, []⟩ := ⟨reported, by simp [fits]⟩
  have started : ∀ a ∈ op.restarts, a.spawn.starts = true := by
    simpa [Op.replacementsStart] using starts
  have kept : Tallied w.generation t :=
    Outcome.Meets.ended (((contract_tallied w.generation).perform op started ⟨w, []⟩
      tallied).weaken (fun _ _ held => held) fun _ _ held => held.1) ended
  refine ⟨kept.reported, ?_, kept.generation⟩
  rw [kept.generation]
  omega

theorem reachable_reports (config : LeanWorkerConfig) (pid : Nat) (stderr : Bool)
    (elapsed : Duration) (now : Instant) (ops : List Op) (w : LeanWorker)
    (guarded : Runs.Guarded operate (fun _ op => op.replacementsStart = true)
      (.fresh config pid stderr elapsed now) ops)
    (reached : Runs.run operate (.fresh config pid stderr elapsed now) ops = some w) :
    w.stats.restarts = w.generation ∧ w.generation ≤ u64Max := by
  refine Runs.invariant_of_guarded (I := fun w : LeanWorker =>
    w.stats.restarts = w.generation ∧ w.generation ≤ u64Max) (fun w op w' held starts moved => ?_)
    ⟨rfl, Nat.zero_le _⟩ guarded reached
  obtain ⟨t, ended, rfl⟩ := Option.map_eq_some_iff.mp moved
  have accounts := perform_accounts w op starts held.1 held.2 t ended
  refine ⟨accounts.reported, ?_⟩
  rw [accounts.counted]
  exact Nat.min_le_right _ _

/-- In a run in which every child that a restart asks for starts, both generations agree in every
state, and every operation accounts for the children it installs. -/
theorem reachable_generation_accounts (config : LeanWorkerConfig) (pid : Nat) (stderr : Bool)
    (elapsed : Duration) (now : Instant) (ops : List Op) (w : LeanWorker)
    (guarded : Runs.Guarded operate (fun _ op => op.replacementsStart = true)
      (.fresh config pid stderr elapsed now) ops)
    (reached : Runs.run operate (.fresh config pid stderr elapsed now) ops = some w) :
    w.lifecycleSnapshot.workerGeneration = w.generation ∧
      ∀ op : Op, op.replacementsStart = true → ∀ t, (op.perform ⟨w, []⟩).ended = some t →
        w.Accounts t := by
  obtain ⟨reported, fits⟩ := reachable_reports config pid stderr elapsed now ops w guarded reached
  exact ⟨reported, fun op starts t ended => perform_accounts w op starts reported fits t ended⟩

/-- A cycle and a health check, from a worker that has been cycled once. -/
theorem cycled_worker_accounts :
    ∃ w : LeanWorker, Runs.run operate (.spawned {}) [.cycle .smooth] = some w ∧
      w.lifecycleSnapshot.workerGeneration = w.generation ∧ w.generation = 1 ∧
      ∀ t, ((Op.cycle .smooth).perform ⟨w, []⟩).ended = some t →
        w.Accounts t ∧ t.worker.generation = 2 := by
  refine ⟨_, rfl, ?_⟩
  have accounts := reachable_generation_accounts { executable := ⟨[]⟩ } 1 true 0 0 [.cycle .smooth]
    _ (.cons rfl rfl trivial) rfl
  refine ⟨accounts.1, rfl, fun t ended => ⟨accounts.2 (.cycle .smooth) rfl t ended, ?_⟩⟩
  cases ended
  rfl

def RestartAnswers.unstarted : RestartAnswers := { smooth with spawn := .failed "not found" }

/-- The replacement does not start: the public generation has moved, the private one has not, and
there is no child. -/
theorem unstarted_cycle_parts_generations :
    ∃ w : LeanWorker, Runs.run operate (.spawned {}) [.cycle .unstarted] = some w ∧
      w.child = none ∧ w.generation = 0 ∧ w.lifecycleSnapshot.workerGeneration = 1 ∧
      w.lifecycleSnapshot.workerGeneration ≠ w.generation :=
  ⟨_, rfl, rfl, rfl, rfl, by decide⟩

end LeanRs
