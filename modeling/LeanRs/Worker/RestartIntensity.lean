import LeanRs.General.SlidingWindow
import LeanRs.Worker.Replacement

/-! How often a worker is replaced: the restarts that are admitted in any window of time, over runs
of replacements. -/
namespace LeanRs

open Procedures Procedure Supervisor SlidingWindow

def LeanWorker.intensity (w : LeanWorker) : RestartIntensityLimit :=
  w.config.restartPolicy.restartIntensity

def LeanWorker.pace (w : LeanWorker) : RestartIntensityLimit × List Instant :=
  (w.intensity, w.restartWindow)

def wasRefused : Outcome World LeanWorkerError Unit → Bool
  | .raised e _ => e.isRefusal
  | _ => false

/-- What a restart at `now` has done: it has come back refused, or it has gone on to start a child.
Where the old child could not be stopped it has done neither. -/
def attempted (now : Instant) (outcome : Outcome World LeanWorkerError Unit) :
    List (Instant × Bool) :=
  if wasRefused outcome then [(now, false)]
  else if spawns outcome.state.effects = 0 then []
  else [(now, true)]

def admittedOf (attempts : List (Instant × Bool)) : List Instant :=
  (attempts.filter Prod.snd).map Prod.fst

def windowAfter (window : Duration) (queue : List Instant) :
    List (Instant × Bool) → List Instant
  | [] => queue
  | (now, true) :: _ => dropExpired window now queue ++ [now]
  | (now, false) :: _ => dropExpired window now queue

theorem spawnReplacement_pace (reason : LeanWorkerRestartReason) (a : RestartAnswers)
    (s : World) :
    (spawnReplacement s.worker.config reason a s).Meets
      (fun _ t => t.worker.pace = s.worker.pace) (fun _ t => t.worker.pace = s.worker.pace) := by
  have started := spawn_meets s.worker.config a.spawn ⟨{ s.worker.counted
    (fun stats => stats.budgetAdmitted.recordRestart reason) with budget := {} }, s.effects⟩
  have way := spawnReplacement_way s.worker.config reason a s
  generalize spawnReplacement s.worker.config reason a s = outcome at way ⊢
  cases way with
  | waiting spawned => trivial
  | @failed err t spawned =>
    rw [spawned] at started
    obtain ⟨worker, effects⟩ := t
    obtain ⟨same, -⟩ := started
    cases same
    rfl
  | @started next t spawned =>
    rw [spawned] at started
    obtain ⟨worker, effects⟩ := t
    obtain ⟨same, pid, stderr, elapsed, now, rfl⟩ := started
    cases same
    rfl

/-- What is on record of a restart is what the window allows, and is all that the restart does to
the window: the queue is carried across to the new worker. -/
structure RestartRecorded (w : LeanWorker) (now : Instant) (log : List (Instant × Bool))
    (w' : LeanWorker) : Prop where
  decided : log = [] ∨ log = [(now, w.admitsRestart now)]
  pace : w'.pace = (w.intensity, windowAfter w.intensity.window w.restartWindow log)

theorem spawnReplacement_recorded (reason : LeanWorkerRestartReason) (a : RestartAnswers)
    {w : LeanWorker} (admits : w.admitsRestart a.now = true) (s : World)
    (config : s.worker.config = w.config) (unspawned : spawns s.effects = 0)
    (pace : s.worker.pace =
      (w.intensity, windowAfter w.intensity.window w.restartWindow [(a.now, true)])) :
    (spawnReplacement w.config reason a s).Meets
      (fun _ t => RestartRecorded w a.now (attempted a.now (spawnReplacement w.config reason a s))
        t.worker)
      (fun _ t => RestartRecorded w a.now (attempted a.now (spawnReplacement w.config reason a s))
        t.worker) := by
  have tallies := spawnReplacement_tallies reason a s
  have after := spawnReplacement_pace reason a s
  rw [config] at tallies after
  rw [unspawned] at tallies
  rw [pace] at after
  generalize spawnReplacement w.config reason a s = outcome at tallies after ⊢
  cases outcome with
  | waiting t => trivial
  | raised err t =>
    obtain ⟨failed, -, -, spawned⟩ := tallies
    have log : attempted a.now (.raised err t) = [(a.now, true)] := by
      simp [attempted, wasRefused, SpawnAnswer.isRefusal_failure failed, spawned]
    rw [log]
    exact ⟨.inr (by rw [admits]), after⟩
  | returned value t =>
    obtain ⟨-, -, spawned⟩ := tallies
    have log : attempted a.now (.returned value t) = [(a.now, true)] := by
      simp [attempted, wasRefused, spawned]
    rw [log]
    exact ⟨.inr (by rw [admits]), after⟩

theorem StopFrame.pace {s t : World} (frame : StopFrame s t) : t.worker.pace = s.worker.pace :=
  congrArg (fun ledger : Ledger => (ledger.config.restartPolicy.restartIntensity,
    ledger.restartWindow)) frame.ledger

theorem restartWithReason_recorded (reason : LeanWorkerRestartReason) (a : RestartAnswers)
    (s : World) (unspawned : spawns s.effects = 0) :
    (restartWithReason reason a s).Meets
      (fun _ t => RestartRecorded s.worker a.now (attempted a.now (restartWithReason reason a s))
        t.worker)
      (fun _ t => RestartRecorded s.worker a.now (attempted a.now (restartWithReason reason a s))
        t.worker) := by
  have frame := shutdownChild_frame a.stop (stopIntent reason)
    ⟨s.worker.counted LeanWorkerStats.attempted, s.effects ++ [.replace reason]⟩
  have spares := shutdownChild_spares a.stop (stopIntent reason)
    ⟨s.worker.counted LeanWorkerStats.attempted, s.effects ++ [.replace reason]⟩ trivial
  have way := restartWithReason_way reason a s
  generalize restartWithReason reason a s = outcome at way ⊢
  cases way with
  | stopping stop => trivial
  | @unstopped err t stop =>
    rw [stop] at frame spares
    have spawned : spawns t.effects = 0 := frame.spawns.trans (by simpa using unspawned)
    have unrefused : err.isRefusal = false := spares
    have log : attempted a.now (.raised err
        ⟨t.worker.counted fun stats => stats.failedBecause "stop_failed", t.effects⟩) = [] := by
      simp [attempted, wasRefused, unrefused, spawned]
    rw [log]
    exact ⟨.inl rfl, frame.pace⟩
  | @full report t stop room =>
    rw [stop] at frame
    have same : t.worker.pace = s.worker.pace := frame.pace
    have decided : s.worker.admitsRestart a.now = false :=
      (frame.admitsRestart a.now).symm.trans room
    refine ⟨.inr (by rw [decided]; rfl), ?_⟩
    exact congrArg (fun pace => (pace.1, dropExpired pace.1.window a.now pace.2)) same
  | @admitted report t stop room =>
    rw [stop] at frame
    have same : t.worker.pace = s.worker.pace := frame.pace
    have spawned : spawns t.effects = 0 := frame.spawns.trans (by simpa using unspawned)
    have config : t.worker.config = s.worker.config := congrArg Ledger.config frame.ledger
    have admits : s.worker.admitsRestart a.now = true :=
      (frame.admitsRestart a.now).symm.trans room
    have pace : LeanWorker.pace { t.worker with
        restartWindow := dropExpired t.worker.config.restartPolicy.restartIntensity.window a.now
          t.worker.restartWindow ++ [a.now] } =
        (s.worker.intensity,
          windowAfter s.worker.intensity.window s.worker.restartWindow [(a.now, true)]) :=
      congrArg (fun pace => (pace.1, dropExpired pace.1.window a.now pace.2 ++ [a.now])) same
    exact spawnReplacement_recorded reason a admits ⟨{ t.worker with
      restartWindow := dropExpired t.worker.config.restartPolicy.restartIntensity.window a.now
        t.worker.restartWindow ++ [a.now] }, t.effects⟩ config spawned pace

/-- A worker, and the restarts it has attempted, the first one first. -/
structure Replacements where
  worker : LeanWorker
  attempts : List (Instant × Bool)

inductive ReplacementAction where
  | restart (reason : LeanWorkerRestartReason) (a : RestartAnswers)
  /-- Anything else that happens to the worker. -/
  | other (worker : LeanWorker)

namespace Replacements

def step (r : Replacements) : ReplacementAction → Option Replacements
  | .restart reason a =>
    let outcome := restartWithReason reason a ⟨r.worker, []⟩
    outcome.ended.map fun world => ⟨world.worker, r.attempts ++ attempted a.now outcome⟩
  | .other worker => if worker.pace = r.worker.pace then some { r with worker := worker } else none

def InOrder (attempts : List (Instant × Bool)) : Prop := (attempts.map Prod.fst).Pairwise (· ≤ ·)

instance (attempts : List (Instant × Bool)) : Decidable (InOrder attempts) :=
  inferInstanceAs (Decidable (List.Pairwise _ _))

def RefusedWhenFull (limit : RestartIntensityLimit) (attempts : List (Instant × Bool)) : Prop :=
  ∀ before now after, attempts = before ++ (now, false) :: after →
    count limit.window now (admittedOf before) = limit.maxRestarts

structure Kept (limit : RestartIntensityLimit) (r : Replacements) : Prop where
  configured : r.worker.intensity = limit
  tracks : ∃ latest, (latest = 0 ∨ latest ∈ r.attempts.map Prod.fst) ∧
    Tracks limit.window limit.maxRestarts latest r.worker.restartWindow (admittedOf r.attempts)
  refused : RefusedWhenFull limit r.attempts

variable {limit : RestartIntensityLimit} {r r' : Replacements}

theorem start_kept {w : LeanWorker} (fresh : w.restartWindow = []) : Kept w.intensity ⟨w, []⟩ where
  configured := rfl
  tracks := ⟨0, .inl rfl, fresh ▸ Tracks.start _ _⟩
  refused before now after split := by
    have length := congrArg List.length split
    simp at length

theorem Kept.congr {worker : LeanWorker} (kept : Kept limit r)
    (same : worker.pace = r.worker.pace) : Kept limit { r with worker := worker } where
  configured := (congrArg Prod.fst same).trans kept.configured
  tracks := by
    have window : worker.restartWindow = r.worker.restartWindow := congrArg Prod.snd same
    exact window.symm ▸ kept.tracks
  refused := kept.refused

theorem admittedOf_append (first second : List (Instant × Bool)) :
    admittedOf (first ++ second) = admittedOf first ++ admittedOf second := by
  unfold admittedOf
  rw [List.filter_append, List.map_append]

theorem refused_append {attempts : List (Instant × Bool)}
    {now : Instant} {admits : Bool} (refused : RefusedWhenFull limit attempts)
    (full : admits = false → count limit.window now (admittedOf attempts) = limit.maxRestarts) :
    RefusedWhenFull limit (attempts ++ [(now, admits)]) := by
  intro before time after split
  obtain rfl | ⟨after, last, rfl⟩ := List.eq_nil_or_concat after
  · obtain ⟨rfl, one⟩ := List.append_inj' split rfl
    cases one
    exact full rfl
  · rw [List.concat_eq_append, ← List.cons_append, ← List.append_assoc] at split
    obtain ⟨split, -⟩ := List.append_inj' split rfl
    exact refused before time after split

theorem kept_attempt {worker : LeanWorker} {now : Instant} {admits : Bool} (kept : Kept limit r)
    (later : ∀ x ∈ r.attempts.map Prod.fst, x ≤ now)
    (decided : r.worker.admitsRestart now = admits)
    (pace : worker.pace = (r.worker.intensity, windowAfter r.worker.intensity.window
      r.worker.restartWindow [(now, admits)])) :
    Kept limit ⟨worker, r.attempts ++ [(now, admits)]⟩ := by
  obtain ⟨configured, ⟨latest, reached, tracks⟩, refused⟩ := kept
  have before : latest ≤ now := by
    obtain rfl | member := reached
    · exact Nat.zero_le now
    · exact later latest member
  have configured' : worker.intensity = limit := (congrArg Prod.fst pace).trans configured
  have window' : worker.restartWindow = windowAfter r.worker.intensity.window
      r.worker.restartWindow [(now, admits)] := congrArg Prod.snd pace
  have last : now ∈ (r.attempts ++ [(now, admits)]).map Prod.fst := by simp
  obtain ⟨pruned, counted⟩ := tracks.expired before
  have room : r.worker.admitsRestart now = decide
      ((expire limit.window now r.worker.restartWindow).length < limit.maxRestarts) := by
    rw [← configured]
    rfl
  rw [room] at decided
  rw [configured] at window'
  refine ⟨configured', ⟨now, .inr last, ?_⟩, refused_append refused fun no => ?_⟩
  · rw [admittedOf_append, window']
    cases admits with
    | true => exact pruned.admitted_now counted (of_decide_eq_true decided)
    | false =>
      rw [show admittedOf [(now, false)] = [] from rfl, List.append_nil]
      exact pruned
  · have full := Nat.le_of_not_lt (of_decide_eq_false (decided.trans no))
    exact counted.trans (Nat.le_antisymm pruned.length full)

theorem step_kept (action : ReplacementAction) (kept : InOrder r.attempts → Kept limit r)
    (moved : r.step action = some r') (ordered : InOrder r'.attempts) : Kept limit r' := by
  cases action with
  | other worker =>
    simp only [step] at moved
    split at moved
    · rename_i same
      obtain rfl := Option.some.inj moved
      exact (kept ordered).congr same
    · cases moved
  | restart reason a =>
    obtain ⟨world, ended, rfl⟩ := Option.map_eq_some_iff.mp moved
    have recorded : RestartRecorded r.worker a.now
        (attempted a.now (restartWithReason reason a ⟨r.worker, []⟩)) world.worker :=
      Outcome.Meets.ended (I := fun t => RestartRecorded r.worker a.now _ t.worker)
        (restartWithReason_recorded reason a ⟨r.worker, []⟩ rfl) ended
    generalize attempted a.now (restartWithReason reason a ⟨r.worker, []⟩) = log at *
    obtain ⟨decided, pace⟩ := recorded
    unfold InOrder at ordered
    rw [List.map_append] at ordered
    obtain ⟨earlier, -, later⟩ := List.pairwise_append.mp ordered
    obtain rfl | rfl := decided
    · rw [List.append_nil]
      exact (kept earlier).congr pace
    · apply kept_attempt (kept earlier) _ rfl pace
      exact fun x member => later x member a.now List.mem_cons_self

theorem run_kept {actions : List ReplacementAction} (kept : InOrder r.attempts → Kept limit r)
    (reached : Runs.run step r actions = some r') (ordered : InOrder r'.attempts) :
    Kept limit r' :=
  Runs.invariant (I := fun r => InOrder r.attempts → Kept limit r)
    (fun _ action _ kept moved ordered => step_kept action kept moved ordered) kept reached ordered

end Replacements

/-- However often a worker is replaced, no window holds more admitted restarts than the limit, and
a restart is refused only when the window that ends with it is full. -/
theorem restarts_within_intensity {w : LeanWorker} (fresh : w.restartWindow = [])
    {actions : List ReplacementAction} {r : Replacements}
    (reached : Runs.run Replacements.step ⟨w, []⟩ actions = some r)
    (ordered : Replacements.InOrder r.attempts) :
    (∀ t, count w.intensity.window t (admittedOf r.attempts) ≤ w.intensity.maxRestarts) ∧
    r.worker.restartWindow.Pairwise (· ≤ ·) ∧
    r.worker.restartWindow.length ≤ w.intensity.maxRestarts ∧
    Replacements.RefusedWhenFull w.intensity r.attempts := by
  have kept := Replacements.run_kept (fun _ => Replacements.start_kept fresh) reached ordered
  obtain ⟨latest, -, tracks⟩ := kept.tracks
  exact ⟨tracks.rate, tracks.queue_sorted, tracks.length, kept.refused⟩

def cautiousWorker (requestTimeout : Duration) : LeanWorker :=
  .fresh { executable := ⟨[]⟩, requestTimeout, restartPolicy :=
    { restartIntensity := { maxRestarts := 1, window := Duration.fromSecs 1 } } } 1 false 0 0

def replacedThrice : List ReplacementAction :=
  .other (cautiousWorker 7) :: [0, 1, Duration.fromSecs 1].map fun now =>
    .restart .explicit { RestartAnswers.smooth with now := now }

theorem cautious_worker_within_intensity : ∃ r,
    Runs.run Replacements.step ⟨cautiousWorker 5, []⟩ replacedThrice = some r ∧
    r.attempts = [(0, true), (1, false), (Duration.fromSecs 1, true)] ∧
    (∀ t, count (Duration.fromSecs 1) t (admittedOf r.attempts) ≤ 1) ∧
    r.worker.restartWindow.Pairwise (· ≤ ·) := by
  have within : ∀ r, Runs.run Replacements.step ⟨cautiousWorker 5, []⟩ replacedThrice = some r →
      r.attempts = [(0, true), (1, false), (Duration.fromSecs 1, true)] →
      (∀ t, count (Duration.fromSecs 1) t (admittedOf r.attempts) ≤ 1) ∧
      r.worker.restartWindow.Pairwise (· ≤ ·) := by
    intro r reached attempts
    have ordered : Replacements.InOrder r.attempts := attempts ▸ (by decide)
    obtain ⟨rate, sorted, -⟩ := restarts_within_intensity rfl reached ordered
    exact ⟨rate, sorted⟩
  exact ⟨_, rfl, rfl, within _ rfl rfl⟩

end LeanRs
