import LeanRs.Worker.Contract
import LeanRs.Worker.Handles
import LeanRs.Worker.Memory

/-! What a restart comes to: which answers end it where, and what it leaves of the record. -/
namespace LeanRs

open Procedures Procedure Supervisor

def SpawnAnswer.starts : SpawnAnswer → Bool
  | .ready _ _ _ _ => true
  | _ => false

/-- What the supervisor reports of a child that did not start. A handshake that failed waits for
the child, and that wait may not end. -/
def SpawnAnswer.failure (config : LeanWorkerConfig) : SpawnAnswer → Option LeanWorkerError
  | .failed source => some (.spawn config.executable source)
  | .stdinUnavailable => some (.setup "child stdin unavailable")
  | .stdoutUnavailable => some (.setup "child stdout unavailable")
  | .handshakeFailed (.exited exitStatus stderr) => some (.ofExit (.fromStatus exitStatus stderr))
  | .handshakeFailed (.failed source) | .startupTimeout (.failed source) => some (.wait source)
  | .startupTimeout (.exited _ _) => some (.timeout "startup" config.startupTimeout
      (emptyResourceFacts "worker_timeout" "startup" (some config.startupTimeout)))
  | .readerDisconnected => some (.handshake "handshake reader exited without a result")
  | .configureFailed text => some (.protocol (.configureFrameLimit text))
  | .handshakeFailed .never | .startupTimeout .never | .ready _ _ _ _ => none

theorem SpawnAnswer.isRefusal_failure {config : LeanWorkerConfig} {answer : SpawnAnswer}
    {e : LeanWorkerError} (failed : answer.failure config = some e) : e.isRefusal = false := by
  cases answer with
  | handshakeFailed wait =>
    cases wait with
    | exited exitStatus stderr =>
      exact Option.some.inj failed ▸ LeanWorkerError.isRefusal_ofExit _
    | failed source => exact Option.some.inj failed ▸ rfl
    | never => cases failed
  | startupTimeout wait =>
    cases wait with
    | never => cases failed
    | _ => exact Option.some.inj failed ▸ rfl
  | ready pid stderr elapsed now => cases failed
  | _ => exact Option.some.inj failed ▸ rfl

theorem spawn_comes (config : LeanWorkerConfig) (answer : SpawnAnswer) (s : World) :
    (spawn config answer s).Meets
      (fun next t => t = ⟨s.worker, s.effects ++ [.spawn]⟩ ∧ answer.starts = true ∧
        ∃ pid stderr elapsed now, next = .fresh config pid stderr elapsed now)
      (fun e t => t = ⟨s.worker, s.effects ++ [.spawn]⟩ ∧ answer.starts = false ∧
        answer.failure config = some e) := by
  cases answer with
  | handshakeFailed wait => cases wait <;> simp [spawn, waitWithStderr, SpawnAnswer.starts,
      SpawnAnswer.failure]
  | startupTimeout wait => cases wait <;> simp [spawn, waitWithStderr, SpawnAnswer.starts,
      SpawnAnswer.failure]
  | ready pid stderr elapsed now => exact ⟨rfl, rfl, pid, stderr, elapsed, now, rfl⟩
  | _ => exact ⟨rfl, rfl, rfl⟩

def spawns (effects : List Effect) : Nat := effects.countP fun e => e == .spawn

@[simp] theorem spawns_nil : spawns [] = 0 := rfl

@[simp] theorem spawns_append (first second : List Effect) :
    spawns (first ++ second) = spawns first + spawns second := List.countP_append

@[simp] theorem spawns_singleton (e : Effect) : spawns [e] = if e = .spawn then 1 else 0 := by
  by_cases same : e = .spawn <;> simp [spawns, same]

theorem spawns_eq_zero {effects : List Effect} (none : ∀ e ∈ effects, e ≠ .spawn) :
    spawns effects = 0 := by
  rw [spawns, List.countP_eq_zero]
  intro e member
  simpa using none e member

theorem StopFrame.spawns {s t : World} (frame : StopFrame s t) :
    spawns t.effects = spawns s.effects := by
  obtain ⟨new, joined, stop⟩ := frame.effects
  have none : LeanRs.spawns new = 0 := spawns_eq_zero fun e member same => by
    have stops := stop e member
    rw [same] at stops
    cases stops
  rw [joined, spawns_append, none, Nat.add_zero]

def Unrestarted (a : RestartAnswers) (s t : World) : Prop :=
  (t.worker.core = s.worker.core ∧ spawns t.effects = spawns s.effects) ∨
    (a.spawn.starts = false ∧ t.worker.core = s.worker.core.discharged ∧
      spawns t.effects = spawns s.effects + 1)

theorem spawnReplacement_tallies (reason : LeanWorkerRestartReason) (a : RestartAnswers)
    (s : World) :
    (spawnReplacement s.worker.config reason a s).Meets
      (fun _ t => a.spawn.starts = true ∧ t.worker.core = s.worker.core.renewed ∧
        spawns t.effects = spawns s.effects + 1)
      (fun e t => a.spawn.failure s.worker.config = some e ∧ a.spawn.starts = false ∧
        t.worker.core = s.worker.core.discharged ∧ spawns t.effects = spawns s.effects + 1) := by
  have comes := spawn_comes s.worker.config a.spawn ⟨{ s.worker.counted
    (fun stats => stats.budgetAdmitted.recordRestart reason) with budget := {} }, s.effects⟩
  have way := spawnReplacement_way s.worker.config reason a s
  generalize spawnReplacement s.worker.config reason a s = outcome at way ⊢
  cases way with
  | waiting spawned => trivial
  | failed spawned =>
    rw [spawned] at comes
    obtain ⟨rfl, unstarted, failed⟩ := comes
    exact ⟨failed, unstarted, s.worker.core_discharged reason, by simp⟩
  | started spawned =>
    rw [spawned] at comes
    obtain ⟨rfl, started, pid, stderr, elapsed, now, rfl⟩ := comes
    exact ⟨started, s.worker.core_replacedBy reason _ _ _ _ _ _, by simp⟩

/-- A restart that returns has counted itself and the child it started; one that fails has counted
nothing, unless the child it was admitted for did not start. -/
theorem restartWithReason_tallies (reason : LeanWorkerRestartReason) (a : RestartAnswers)
    (s : World) :
    (restartWithReason reason a s).Meets
      (fun _ t => a.spawn.starts = true ∧ t.worker.core = s.worker.core.renewed ∧
        spawns t.effects = spawns s.effects + 1)
      (fun _ t => Unrestarted a s t) := by
  have frame := shutdownChild_frame a.stop (stopIntent reason)
    ⟨s.worker.counted LeanWorkerStats.attempted, s.effects ++ [.replace reason]⟩
  have way := restartWithReason_way reason a s
  generalize restartWithReason reason a s = outcome at way ⊢
  cases way with
  | stopping stop => trivial
  | unstopped stop =>
    rw [stop] at frame
    exact .inl ⟨frame.core, by simpa using frame.spawns⟩
  | full stop room =>
    rw [stop] at frame
    exact .inl ⟨frame.core, by simpa using frame.spawns⟩
  | @admitted report t stop room =>
    rw [stop] at frame
    have spawned : spawns t.effects = spawns s.effects := by simpa using frame.spawns
    have config : t.worker.config = s.worker.config := congrArg Core.config frame.core
    have tallies := spawnReplacement_tallies reason a
      ⟨{ t.worker with
        restartWindow := dropExpired t.worker.config.restartPolicy.restartIntensity.window a.now
          t.worker.restartWindow ++ [a.now] }, t.effects⟩
    have core : t.worker.core = s.worker.core := frame.core
    rw [← config]
    refine tallies.weaken (fun _ u held => ⟨held.1, ?_, ?_⟩) fun _ u held =>
      .inr ⟨held.2.1, ?_, ?_⟩
    · rw [held.2.1, ← core]
      rfl
    · rw [held.2.2, ← spawned]
    · rw [held.2.2.1, ← core]
      rfl
    · rw [held.2.2.2, ← spawned]

theorem restartWithReason_full (reason : LeanWorkerRestartReason) (a : RestartAnswers)
    {s t : World} {report : LeanWorkerShutdownReport}
    (stopped : shutdownChild a.stop (stopIntent reason)
      ⟨s.worker.counted LeanWorkerStats.attempted, s.effects ++ [.replace reason]⟩ =
        .returned report t)
    (full : t.worker.admitsRestart a.now = false) :
    restartWithReason reason a s = .raised
      (.restartLimitExceeded (dropExpired t.worker.config.restartPolicy.restartIntensity.window
        a.now t.worker.restartWindow).length t.worker.config.restartPolicy.restartIntensity.window)
      ⟨({ t.worker with
        restartWindow := dropExpired t.worker.config.restartPolicy.restartIntensity.window a.now
          t.worker.restartWindow
        state := .restartExhausted t.worker.generation } : LeanWorker).counted fun stats =>
          stats.budgetSkipped.failedBecause "restart_limit_exceeded", t.effects⟩ := by
  simp only [restartWithReason, bind_apply, worker_apply, emit_apply, count_apply, capture_apply,
    Outcome.andThen_returned, stopped, Outcome.captured_returned, admitRestart_apply, full,
    Bool.false_eq_true, if_false, Outcome.captured_raised, raise_apply]

theorem restartWithReason_admitted (reason : LeanWorkerRestartReason) (a : RestartAnswers)
    {s t : World} {report : LeanWorkerShutdownReport}
    (stopped : shutdownChild a.stop (stopIntent reason)
      ⟨s.worker.counted LeanWorkerStats.attempted, s.effects ++ [.replace reason]⟩ =
        .returned report t)
    (room : t.worker.admitsRestart a.now = true) :
    restartWithReason reason a s = spawnReplacement s.worker.config reason a
      ⟨{ t.worker with
        restartWindow := dropExpired t.worker.config.restartPolicy.restartIntensity.window a.now
          t.worker.restartWindow ++ [a.now] }, t.effects⟩ := by
  simp only [restartWithReason, bind_apply, worker_apply, emit_apply, count_apply, capture_apply,
    Outcome.andThen_returned, stopped, Outcome.captured_returned, admitRestart_apply, room, if_true]

end LeanRs
