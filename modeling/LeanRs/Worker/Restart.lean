import LeanRs.Worker.Verdict

/-! Replacing the child: `spawn`, the sliding restart window and
`restart_with_reason_before_spawn`. -/
namespace LeanRs

open Procedures Procedure Supervisor

/-- How an attempt to start a child goes. The handshake failures kill the child and wait for
it; the last two leave it running. -/
inductive SpawnAnswer where
  | failed (source : String)
  | stdinUnavailable
  | stdoutUnavailable
  | handshakeFailed (wait : WaitAnswer)
  | startupTimeout (wait : WaitAnswer)
  | readerDisconnected
  | configureFailed (text : String)
  | ready (pid : Nat) (stderr : Bool) (handshakeElapsed : Duration) (now : Instant)
  deriving DecidableEq

structure RestartAnswers where
  stop : ShutdownAnswers
  /-- `replacement_started`, the instant the restart window is charged with. -/
  now : Instant
  spawn : SpawnAnswer
  total : Duration
  activity : Instant
  deriving DecidableEq

def waitWithStderr (answer : WaitAnswer) : Supervisor LeanWorkerExit :=
  match answer with
  | .failed source => raise (.wait source)
  | .exited exitStatus stderr => pure (.fromStatus exitStatus stderr)
  | .never => Procedure.wait

/-- `LeanWorker::spawn`. The new worker is returned; nothing is assigned yet. -/
def spawn (config : LeanWorkerConfig) (answer : SpawnAnswer) : Supervisor LeanWorker := do
  emit .spawn
  match answer with
  | .failed source => raise (.spawn config.executable source)
  | .stdinUnavailable => raise (.setup "child stdin unavailable")
  | .stdoutUnavailable => raise (.setup "child stdout unavailable")
  | .handshakeFailed wait => do
    let exit ← waitWithStderr wait
    raise (.ofExit exit)
  | .startupTimeout wait => do
    let _ ← waitWithStderr wait
    raise (.timeout "startup" config.startupTimeout
      (emptyResourceFacts "worker_timeout" "startup" (some config.startupTimeout)))
  | .readerDisconnected => raise (.handshake "handshake reader exited without a result")
  | .configureFailed text => raise (.protocol (.configureFrameLimit text))
  | .ready pid stderr handshakeElapsed now =>
    pure (.fresh config pid stderr handshakeElapsed now)

def dropExpired (window : Duration) (now : Instant) (restarts : List Instant) : List Instant :=
  restarts.dropWhile fun instant => window ≤ now.saturatingDurationSince instant

def admitRestart (now : Instant) : Supervisor Unit := do
  let w ← worker
  let limit := w.config.restartPolicy.restartIntensity
  let kept := dropExpired limit.window now w.restartWindow
  if limit.maxRestarts ≤ kept.length then
    modify fun w => { w with restartWindow := kept, state := .restartExhausted w.generation }
    raise (.restartLimitExceeded kept.length limit.window)
  else
    modify fun w => { w with restartWindow := kept ++ [now] }

def stopIntent : LeanWorkerRestartReason → ShutdownIntent
  | .explicit | .maxRequests _ | .maxImports _ | .importResidue _ _ | .rssCeiling _ _ _
  | .idle _ _ => .graceful
  | .rssHardLimit _ _ _ _ | .cancelled _ | .requestTimeout _ _ | .childAbort _ _ _ => .killOnly

namespace LeanWorkerStats

def attempted (stats : LeanWorkerStats) : LeanWorkerStats :=
  { stats with replacementAttempts := saturatingAdd stats.replacementAttempts 1 }

def failedBecause (stats : LeanWorkerStats) (reason : String) : LeanWorkerStats :=
  { stats with
    replacementFailures := saturatingAdd stats.replacementFailures 1
    lastReplacementSkippedReason := some reason }

def budgetSkipped (stats : LeanWorkerStats) : LeanWorkerStats :=
  { stats with replacementBudgetSkipped := saturatingAdd stats.replacementBudgetSkipped 1 }

def budgetAdmitted (stats : LeanWorkerStats) : LeanWorkerStats :=
  { stats with replacementBudgetAdmitted := saturatingAdd stats.replacementBudgetAdmitted 1 }

def replaced (stats : LeanWorkerStats) (spawnHandshake total : Duration) : LeanWorkerStats :=
  { stats with
    replacementSuccesses := saturatingAdd stats.replacementSuccesses 1
    lastReplacementSkippedReason := none
    lastSpawnHandshakeElapsed := some spawnHandshake
    lastReplacementTiming := some
      { spawnHandshake := spawnHandshake
        capabilityLoad := stats.lastCapabilityLoadElapsed.getD 0
        sessionOpenImport := 0
        firstCommand := stats.lastFirstCommandElapsed
        warmCommand := stats.lastWarmCommandElapsed
        replacementTotal := total
        replacementReason :=
          (stats.lastRestartReason.map LeanWorkerRestartReason.stableCause).getD "unknown"
        replacementBudgetStatus := "synchronous-no-overlap" } }

end LeanWorkerStats

/-- `*self = next`: the whole record is the new one, but for what is copied across. -/
def LeanWorker.replacedBy (w next : LeanWorker) (total : Duration) (activity : Instant) :
    LeanWorker :=
  { next with
    stats := w.stats.replaced (next.stats.lastSpawnHandshakeElapsed.getD 0) total
    generation := saturatingAdd w.generation 1
    nextRequestId := w.nextRequestId
    state := .idle (saturatingAdd w.generation 1)
    restartWindow := w.restartWindow
    lastActivity := activity }

def spawnReplacement (config : LeanWorkerConfig) (reason : LeanWorkerRestartReason)
    (a : RestartAnswers) : Supervisor Unit := do
  count fun stats => stats.budgetAdmitted.recordRestart reason
  modify fun w => { w with budget := {} }
  match ← capture (spawn config a.spawn) with
  | .error err => do
    count fun stats => stats.failedBecause "spawn_failed"
    raise err
  | .ok next => modify fun w => w.replacedBy next a.total a.activity

/-- `restart_with_reason_before_spawn`. Its closure drops a channel and joins a reader thread,
and neither is part of the record. -/
def restartWithReason (reason : LeanWorkerRestartReason) (a : RestartAnswers) :
    Supervisor Unit := do
  let w ← worker
  emit (.replace reason)
  count fun stats => stats.attempted
  match ← capture (shutdownChild a.stop (stopIntent reason)) with
  | .error err => do
    count fun stats => stats.failedBecause "stop_failed"
    raise err
  | .ok _ =>
    match ← capture (admitRestart a.now) with
    | .error err => do
      count fun stats => stats.budgetSkipped.failedBecause "restart_limit_exceeded"
      raise err
    | .ok () => spawnReplacement w.config reason a

def LeanWorker.admitsRestart (w : LeanWorker) (now : Instant) : Bool :=
  (dropExpired w.config.restartPolicy.restartIntensity.window now w.restartWindow).length <
    w.config.restartPolicy.restartIntensity.maxRestarts

theorem admitRestart_apply (now : Instant) (s : World) :
    admitRestart now s =
      let limit := s.worker.config.restartPolicy.restartIntensity
      let kept := dropExpired limit.window now s.worker.restartWindow
      if s.worker.admitsRestart now then
        .returned () { s with worker := { s.worker with restartWindow := kept ++ [now] } }
      else
        .raised (.restartLimitExceeded kept.length limit.window)
          { s with worker := { s.worker with
            restartWindow := kept, state := .restartExhausted s.worker.generation } } := by
  unfold admitRestart LeanWorker.admitsRestart
  by_cases room : (dropExpired s.worker.config.restartPolicy.restartIntensity.window now
      s.worker.restartWindow).length < s.worker.config.restartPolicy.restartIntensity.maxRestarts
  · simp [room, Nat.not_le.mpr room]
  · simp [room, Nat.not_lt.mp room]

structure LeanWorker.Renewed (w w' : LeanWorker) : Prop extends LeanWorker.Owned w' where
  stdout : w'.stdout = true
  config : w'.config = w.config
  state : w'.state = .idle w'.generation
  generation : w'.generation = saturatingAdd w.generation 1
  nextRequestId : w'.nextRequestId = w.nextRequestId
  budget : w'.budget = {}
  openSessionKeys : w'.openSessionKeys = []
  reuseHintEnabled : w'.reuseHintEnabled = true
  reuseObserved : w'.reuseObserved = false
  pendingRestart : w'.pendingRestart = none
  restarts : w'.stats.restarts = saturatingAdd w.stats.restarts 1

def LeanWorker.memory (w : LeanWorker) : Ledger := { w.ledger with stats := {} }

inductive LeanWorker.NotRenewed (w : LeanWorker) (intent : ShutdownIntent) (a : RestartAnswers) :
    LeanWorkerError → LeanWorker → Prop where
  /-- The stop is left unfinished, or its first poll failed and nothing was done. -/
  | stopFailed (err : LeanWorkerError) (w' : LeanWorker) (memory : w'.memory = w.memory)
      (restarts : w'.stats.restarts = w.stats.restarts) (owned : w.Owned)
      (unreaped : a.stop.reaps intent w.stdout = false)
      (system : intent = .killOnly ∨ w.stdout = true → err.ofSystem)
      (left : w'.Stopping ∨ (w'.Owned ∧ w'.state = w.state ∧ w'.stdout = w.stdout ∧
        ∃ source, err = .wait source ∧ a.stop.status = .failed source)) :
      w.NotRenewed intent a err w'
  /-- The restart window refused. -/
  | refused (restarts : Nat) (window : Duration) (w' : LeanWorker) (gone : w'.Gone)
      (state : w'.state = .restartExhausted w.generation)
      (memory : { w'.memory with restartWindow := [] } = { w.memory with restartWindow := [] })
      (unchanged : w'.stats.restarts = w.stats.restarts)
      (full : w.admitsRestart a.now = false) :
      w.NotRenewed intent a (.restartLimitExceeded restarts window) w'
  /-- No new child could be started. -/
  | spawnFailed (err : LeanWorkerError) (w' : LeanWorker) (gone : w'.Gone)
      (memory : { w'.memory with restartWindow := [] } =
        { w.memory with restartWindow := [], budget := {} })
      (restarts : w'.stats.restarts = saturatingAdd w.stats.restarts 1)
      (running : err.saysNotRunning = false) : w.NotRenewed intent a err w'

theorem spawn_meets (config : LeanWorkerConfig) (answer : SpawnAnswer) (s : World) :
    (spawn config answer s).Meets
      (fun next t => t.worker = s.worker ∧ ∃ pid stderr elapsed now,
        next = .fresh config pid stderr elapsed now)
      (fun e t => t.worker = s.worker ∧ e.saysNotRunning = false) := by
  cases answer with
  | handshakeFailed wait => cases wait <;> simp [spawn, waitWithStderr]; rfl
  | startupTimeout wait => cases wait <;> simp [spawn, waitWithStderr] <;> rfl
  | ready pid stderr elapsed now => exact ⟨rfl, pid, stderr, elapsed, now, rfl⟩
  | _ => exact ⟨rfl, rfl⟩

/-- The ways that the start of a replacement can go. -/
inductive ReplacementWay (config : LeanWorkerConfig) (reason : LeanWorkerRestartReason)
    (a : RestartAnswers) (s : World) : Outcome World LeanWorkerError Unit → Prop where
  | waiting {t : World}
    (spawned : spawn config a.spawn ⟨{ s.worker.counted
      (fun stats => stats.budgetAdmitted.recordRestart reason) with budget := {} }, s.effects⟩ =
        .waiting t) :
    ReplacementWay config reason a s (.waiting t)
  | failed {err : LeanWorkerError} {t : World}
    (spawned : spawn config a.spawn ⟨{ s.worker.counted
      (fun stats => stats.budgetAdmitted.recordRestart reason) with budget := {} }, s.effects⟩ =
        .raised err t) :
    ReplacementWay config reason a s (.raised err
      ⟨t.worker.counted fun stats => stats.failedBecause "spawn_failed", t.effects⟩)
  | started {next : LeanWorker} {t : World}
    (spawned : spawn config a.spawn ⟨{ s.worker.counted
      (fun stats => stats.budgetAdmitted.recordRestart reason) with budget := {} }, s.effects⟩ =
        .returned next t) :
    ReplacementWay config reason a s
      (.returned () ⟨t.worker.replacedBy next a.total a.activity, t.effects⟩)

theorem spawnReplacement_way (config : LeanWorkerConfig) (reason : LeanWorkerRestartReason)
    (a : RestartAnswers) (s : World) :
    ReplacementWay config reason a s (spawnReplacement config reason a s) := by
  simp only [spawnReplacement, bind_apply, count_apply, modify_apply, capture_apply,
    Outcome.andThen_returned]
  cases spawned : spawn config a.spawn ⟨{ s.worker.counted
      (fun stats => stats.budgetAdmitted.recordRestart reason) with budget := {} }, s.effects⟩ with
  | waiting t => exact .waiting spawned
  | raised err t => exact .failed spawned
  | returned next t => exact .started spawned

theorem spawnReplacement_ends (reason : LeanWorkerRestartReason) (a : RestartAnswers)
    (w : LeanWorker) (s : World) (gone : s.worker.Gone)
    (memory : { s.worker.memory with restartWindow := [] } =
      { w.memory with restartWindow := [] })
    (restarts : s.worker.stats.restarts = w.stats.restarts) :
    (spawnReplacement w.config reason a s).Meets (fun _ t => w.Renewed t.worker)
      (fun e t => w.NotRenewed (stopIntent reason) a e t.worker) := by
  have counted : (s.worker.stats.budgetAdmitted.recordRestart reason).restarts =
      saturatingAdd w.stats.restarts 1 := by
    rw [LeanWorkerStats.recordRestart_restarts, ← restarts]
    rfl
  have started := spawn_meets w.config a.spawn ⟨{ s.worker.counted
    (fun stats => stats.budgetAdmitted.recordRestart reason) with budget := {} }, s.effects⟩
  have way := spawnReplacement_way w.config reason a s
  generalize spawnReplacement w.config reason a s = outcome at way ⊢
  cases way with
  | waiting spawned => trivial
  | @failed err t spawned =>
    rw [spawned] at started
    obtain ⟨worker, effects⟩ := t
    obtain ⟨same, running⟩ := started
    cases same
    refine .spawnFailed err _ ?_ ?_ counted running
    · exact ⟨gone.child, gone.lastExit, gone.stdin, gone.stdout, gone.notIdle, gone.notInFlight⟩
    · exact congrArg (fun ledger : Ledger => { ledger with budget := {} }) memory
  | @started next t spawned =>
    rw [spawned] at started
    obtain ⟨worker, effects⟩ := t
    obtain ⟨same, pid, stderr, elapsed, now, rfl⟩ := started
    cases same
    exact {
      child := rfl, lastExit := rfl, stdin := rfl, stdout := rfl, config := rfl, state := rfl
      generation := congrArg (fun ledger : Ledger => saturatingAdd ledger.generation 1) memory
      nextRequestId := congrArg Ledger.nextRequestId memory
      budget := rfl, openSessionKeys := rfl, reuseHintEnabled := rfl, reuseObserved := rfl
      pendingRestart := rfl
      restarts := counted }

theorem StopFrame.memory {s t : World} (frame : StopFrame s t) :
    t.worker.memory = s.worker.memory :=
  congrArg (fun ledger : Ledger => { ledger with stats := {} }) frame.ledger

theorem StopFrame.restarts {s t : World} (frame : StopFrame s t) :
    t.worker.stats.restarts = s.worker.stats.restarts :=
  congrArg (fun ledger : Ledger => ledger.stats.restarts) frame.ledger

theorem StopFrame.admitsRestart {s t : World} (frame : StopFrame s t) (now : Instant) :
    t.worker.admitsRestart now = s.worker.admitsRestart now :=
  congrArg (fun ledger : Ledger => decide ((dropExpired
    ledger.config.restartPolicy.restartIntensity.window now ledger.restartWindow).length <
      ledger.config.restartPolicy.restartIntensity.maxRestarts)) frame.ledger

/-- The ways that a restart can go, by what becomes of the old child and by what the window has room
for. -/
inductive RestartWay (reason : LeanWorkerRestartReason) (a : RestartAnswers) (s : World) :
    Outcome World LeanWorkerError Unit → Prop where
  | stopping {t : World}
    (stop : shutdownChild a.stop (stopIntent reason)
      ⟨s.worker.counted LeanWorkerStats.attempted, s.effects ++ [.replace reason]⟩ = .waiting t) :
    RestartWay reason a s (.waiting t)
  | unstopped {err : LeanWorkerError} {t : World}
    (stop : shutdownChild a.stop (stopIntent reason)
      ⟨s.worker.counted LeanWorkerStats.attempted, s.effects ++ [.replace reason]⟩ =
        .raised err t) :
    RestartWay reason a s (.raised err
      ⟨t.worker.counted fun stats => stats.failedBecause "stop_failed", t.effects⟩)
  | full {report : LeanWorkerShutdownReport} {t : World}
    (stop : shutdownChild a.stop (stopIntent reason)
      ⟨s.worker.counted LeanWorkerStats.attempted, s.effects ++ [.replace reason]⟩ =
        .returned report t)
    (room : t.worker.admitsRestart a.now = false) :
    RestartWay reason a s (.raised
      (.restartLimitExceeded (dropExpired t.worker.config.restartPolicy.restartIntensity.window
        a.now t.worker.restartWindow).length t.worker.config.restartPolicy.restartIntensity.window)
      ⟨({ t.worker with
        restartWindow := dropExpired t.worker.config.restartPolicy.restartIntensity.window a.now
          t.worker.restartWindow
        state := .restartExhausted t.worker.generation } : LeanWorker).counted fun stats =>
          stats.budgetSkipped.failedBecause "restart_limit_exceeded", t.effects⟩)
  | admitted {report : LeanWorkerShutdownReport} {t : World}
    (stop : shutdownChild a.stop (stopIntent reason)
      ⟨s.worker.counted LeanWorkerStats.attempted, s.effects ++ [.replace reason]⟩ =
        .returned report t)
    (room : t.worker.admitsRestart a.now = true) :
    RestartWay reason a s (spawnReplacement s.worker.config reason a
      ⟨{ t.worker with
        restartWindow := dropExpired t.worker.config.restartPolicy.restartIntensity.window a.now
          t.worker.restartWindow ++ [a.now] }, t.effects⟩)

theorem restartWithReason_way (reason : LeanWorkerRestartReason) (a : RestartAnswers) (s : World) :
    RestartWay reason a s (restartWithReason reason a s) := by
  simp only [restartWithReason, bind_apply, worker_apply, emit_apply, count_apply, capture_apply,
    Outcome.andThen_returned]
  cases stop : shutdownChild a.stop (stopIntent reason)
      ⟨s.worker.counted LeanWorkerStats.attempted, s.effects ++ [.replace reason]⟩ with
  | waiting t => exact .stopping stop
  | raised err t => exact .unstopped stop
  | returned report t =>
    simp only [Outcome.captured_returned, Outcome.andThen_returned, bind_apply, capture_apply,
      admitRestart_apply]
    cases room : t.worker.admitsRestart a.now with
    | false => exact .full stop room
    | true => exact .admitted stop room

theorem restartWithReason_ends (reason : LeanWorkerRestartReason) (a : RestartAnswers) (s : World)
    (formed : s.worker.WellFormed) :
    (restartWithReason reason a s).Meets (fun _ t => s.worker.Renewed t.worker)
      (fun e t => s.worker.NotRenewed (stopIntent reason) a e t.worker) := by
  have stopped := shutdownChild_stops a.stop (stopIntent reason)
    ⟨s.worker.counted LeanWorkerStats.attempted, s.effects ++ [.replace reason]⟩
    (formed.counted _)
  have fails := shutdownChild_fails a.stop (stopIntent reason)
    ⟨s.worker.counted LeanWorkerStats.attempted, s.effects ++ [.replace reason]⟩
    (formed.counted _)
  have frame := shutdownChild_frame a.stop (stopIntent reason)
    ⟨s.worker.counted LeanWorkerStats.attempted, s.effects ++ [.replace reason]⟩
  have way := restartWithReason_way reason a s
  generalize restartWithReason reason a s = outcome at way ⊢
  cases way with
  | stopping stop => trivial
  | @unstopped err t stop =>
    rw [stop] at stopped frame fails
    obtain ⟨owned, unreaped, system⟩ := fails
    refine .stopFailed err _ frame.memory frame.restarts
      ⟨owned.child, owned.lastExit, owned.stdin⟩ unreaped system ?_
    rcases stopped with stopping | ⟨same, owned, source, failed, rfl⟩
    · exact .inl (stopping.counted fun stats => stats.failedBecause "stop_failed")
    · rw [same]
      exact .inr ⟨⟨owned.child, owned.lastExit, owned.stdin⟩, rfl, rfl, source, rfl,
        failed⟩
  | full stop room =>
    rw [stop] at stopped frame
    have full : s.worker.admitsRestart a.now = false := (frame.admitsRestart a.now).symm.trans room
    refine .refused _ _ _ ?_ ?_ ?_ frame.restarts full
    · have gone := stopped.1
      exact ⟨gone.child, gone.lastExit, gone.stdin, gone.stdout, rfl, rfl⟩
    · exact congrArg (fun ledger : Ledger =>
        WorkerSupervisorState.restartExhausted ledger.generation) frame.memory
    · exact congrArg (fun ledger : Ledger => { ledger with restartWindow := [] }) frame.memory
  | admitted stop room =>
    rw [stop] at stopped frame
    refine spawnReplacement_ends reason a s.worker _ ?_ ?_ frame.restarts
    · have gone := stopped.1
      exact ⟨gone.child, gone.lastExit, gone.stdin, gone.stdout, gone.notIdle,
        gone.notInFlight⟩
    · exact congrArg (fun ledger : Ledger => { ledger with restartWindow := [] }) frame.memory

def World.Respawned (s : World) : Prop := ∃ before, s.effects = before ++ [.spawn]

theorem restartWithReason_respawns (reason : LeanWorkerRestartReason) (a : RestartAnswers) :
    Triple (fun _ => True) (restartWithReason reason a) (fun _ => World.Respawned)
      (fun _ _ => True) := by
  have spawned : ∀ config, Triple (fun _ => True) (spawn config a.spawn)
      (fun _ => World.Respawned) (fun _ _ => True) := by
    intro config s _
    unfold spawn
    cases a.spawn with
    | handshakeFailed wait => cases wait <;> trivial
    | startupTimeout wait => cases wait <;> trivial
    | ready pid stderr elapsed now => exact ⟨s.effects, rfl⟩
    | _ => trivial
  refine .after _ fun w => .after _ fun _ => .after _ fun _ => .after _ fun stopped => ?_
  cases stopped with
  | error err => exact .after _ fun _ => Triple.raise fun _ _ => trivial
  | ok report =>
    refine .after _ fun admitted => ?_
    cases admitted with
    | error err => exact .after _ fun _ => Triple.raise fun _ _ => trivial
    | ok _ =>
      refine .after _ fun _ => .after _ fun _ => Triple.bind (Triple.capture
        (Q := fun result t => ∀ next, result = .ok next → t.Respawned)
        ((spawned w.config).consequence (fun _ h => h) (fun _ _ h _ _ => h)
          fun _ _ _ _ failed => nomatch failed)) fun spawning => ?_
      cases spawning with
      | error err => exact .after _ fun _ => Triple.raise fun _ _ => trivial
      | ok next => exact Triple.update fun _ h => h next rfl

end LeanRs
