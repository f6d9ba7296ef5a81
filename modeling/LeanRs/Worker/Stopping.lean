import LeanRs.Worker.Shutdown

/-! What a stop leaves behind: either the child is reaped and recorded, or the supervisor
still owns it and says so in its state. -/
namespace LeanRs

open Procedures Procedure Supervisor

/-- The child is there, its exit is not recorded and its input pipe is held. -/
structure LeanWorker.Owned (w : LeanWorker) : Prop where
  child : w.child.isSome
  lastExit : w.lastExit = none
  stdin : w.stdin = true

/-- The child is reaped, its exit recorded, its handles dropped. -/
structure LeanWorker.Gone (w : LeanWorker) : Prop where
  child : w.child = none
  lastExit : ∃ exit, w.lastExit = some exit ∧ exit.status ≠ .workerIsNotRunning
  stdin : w.stdin = false
  stdout : w.stdout = false
  notIdle : w.state.isIdle = false
  notInFlight : w.state.isInFlight = false

structure LeanWorker.Stopping (w : LeanWorker) : Prop extends LeanWorker.Owned w where
  rejects : w.state.rejectsNewRequests = true

def LeanWorker.WellFormed (w : LeanWorker) : Prop := w.Owned ∨ w.Gone

theorem LeanWorker.gone_reaped (w w' : LeanWorker) (exitStatus : ExitStatus) (stderr : String) :
    (w.reaped (w'.exitOf exitStatus stderr)).Gone :=
  ⟨rfl, ⟨_, rfl, by simp⟩, rfl, rfl, rfl, rfl⟩

theorem LeanWorker.owned_fresh (config : LeanWorkerConfig) (pid : Nat) (stderr : Bool)
    (elapsed : Duration) (now : Instant) : (fresh config pid stderr elapsed now).Owned :=
  ⟨rfl, rfl, rfl⟩

section Counted

variable {w : LeanWorker} (f : LeanWorkerStats → LeanWorkerStats)

theorem LeanWorker.Owned.counted (owned : w.Owned) : (w.counted f).Owned :=
  ⟨owned.child, owned.lastExit, owned.stdin⟩

theorem LeanWorker.Gone.counted (gone : w.Gone) : (w.counted f).Gone :=
  ⟨gone.child, gone.lastExit, gone.stdin, gone.stdout, gone.notIdle, gone.notInFlight⟩

theorem LeanWorker.Stopping.counted (stopping : w.Stopping) : (w.counted f).Stopping :=
  ⟨stopping.toOwned.counted f, stopping.rejects⟩

theorem LeanWorker.WellFormed.counted (formed : w.WellFormed) : (w.counted f).WellFormed :=
  formed.imp (fun owned => owned.counted f) (fun gone => gone.counted f)

end Counted

theorem LeanWorker.Owned.not_gone {w : LeanWorker} (owned : w.Owned) : ¬w.Gone := by
  intro gone
  have h := owned.child
  rw [gone.child] at h
  cases h

def StopReturned (report : LeanWorkerShutdownReport) (s : World) : Prop :=
  s.worker.Gone ∧ s.worker.lastExit = some report.exit

theorem status_owned (answer : TryWait) (s : World) (owned : s.worker.Owned) :
    status answer s =
      match answer with
      | .failed source =>
        .raised (.wait source) { s with effects := s.effects ++ [.tryWait answer] }
      | .exited exitStatus stderr =>
        .returned (.exited (s.worker.exitOf exitStatus stderr))
          ⟨s.worker.reaped (s.worker.exitOf exitStatus stderr), s.effects ++ [.tryWait answer]⟩
      | .running => .returned .running { s with effects := s.effects ++ [.tryWait answer] } := by
  obtain ⟨pid, present⟩ := Option.isSome_iff_exists.mp owned.child
  cases answer <;> simp [status, owned.lastExit, present]

theorem status_gone (answer : TryWait) (s : World) (gone : s.worker.Gone) :
    ∃ exit, s.worker.lastExit = some exit ∧ exit.status ≠ .workerIsNotRunning ∧
      status answer s = .returned (.exited exit)
        { s with worker := { s.worker with state := .exited s.worker.generation } } := by
  obtain ⟨exit, recorded, rendered⟩ := gone.lastExit
  exact ⟨exit, recorded, rendered, by simp [status, recorded]⟩

theorem LeanWorker.Gone.exited {w : LeanWorker} (gone : w.Gone) :
    ({ w with state := .exited w.generation } : LeanWorker).Gone :=
  ⟨gone.child, gone.lastExit, gone.stdin, gone.stdout, rfl, rfl⟩

theorem pollExit_owned (answer : TryWait) (s : World) (owned : s.worker.Owned) :
    pollExit answer s =
      match answer with
      | .failed source =>
        .raised (.wait source)
          ⟨{ s.worker with state := .reaping s.worker.generation },
            s.effects ++ [.tryWait answer]⟩
      | .exited exitStatus stderr =>
        .returned (some (s.worker.exitOf exitStatus stderr))
          ⟨s.worker.reaped (s.worker.exitOf exitStatus stderr), s.effects ++ [.tryWait answer]⟩
      | .running =>
        .returned none
          ⟨{ s.worker with state := .reaping s.worker.generation },
            s.effects ++ [.tryWait answer]⟩ := by
  obtain ⟨pid, present⟩ := Option.isSome_iff_exists.mp owned.child
  cases answer <;>
    simp [pollExit, finalizeChildExit, present, LeanWorker.reaped, LeanWorker.exitOf]

theorem LeanWorker.Owned.reaping {w : LeanWorker} (owned : w.Owned) :
    ({ w with state := .reaping w.generation } : LeanWorker).Stopping :=
  ⟨⟨owned.child, owned.lastExit, owned.stdin⟩, rfl⟩

theorem pollExit_stopping (answer : TryWait) :
    Triple (fun s => s.worker.Owned) (pollExit answer)
      (fun found s => match found with
        | some exit => s.worker.Gone ∧ s.worker.lastExit = some exit
        | none => s.worker.Stopping)
      (fun _ s => s.worker.Stopping) := by
  intro s owned
  rw [pollExit_owned answer s owned]
  cases answer with
  | failed source => exact owned.reaping
  | running => exact owned.reaping
  | exited exitStatus stderr => exact ⟨LeanWorker.gone_reaped _ _ _ _, rfl⟩

theorem waitForExitPolls_stopping (operation : String) (timeout : Duration) (last : TryWait)
    (elapsed : Duration) (early : List TryWait) :
    Triple (fun s => s.worker.Owned) (waitForExitPolls operation timeout last elapsed early)
      (fun found s => s.worker.Gone ∧ s.worker.lastExit = some found.1)
      (fun _ s => s.worker.Stopping) := by
  induction early with
  | nil =>
    refine Triple.bind (pollExit_stopping last) fun found => ?_
    cases found with
    | some exit => exact Triple.pure fun s gone => gone
    | none => exact Triple.raise fun s stopping => stopping
  | cons poll rest ih =>
    refine Triple.bind (pollExit_stopping poll) fun found => ?_
    cases found with
    | some exit => exact Triple.pure fun s gone => gone
    | none => exact ih.consequence (fun s h => h.toOwned) (fun _ _ h => h) (fun _ _ h => h)

theorem waitForExitBounded_stopping (operation : String) (timeout : Duration) (polls : ExitPolls) :
    Triple (fun s => s.worker.Owned) (waitForExitBounded operation timeout polls)
      (fun found s => s.worker.Gone ∧ s.worker.lastExit = some found.1)
      (fun _ s => s.worker.Stopping) :=
  waitForExitPolls_stopping operation timeout polls.last polls.elapsed polls.early

theorem killChild_stopping (answer : KillAnswer) :
    Triple (fun s => s.worker.Stopping) (killChild answer)
      (fun _ s => s.worker.Stopping) (fun _ s => s.worker.Stopping) := by
  intro s stopping
  cases answer <;> simp [killChild, stopping.child, stopping]

theorem killAndReport_stopping (a : ShutdownAnswers) (gracefulTimeout : Duration)
    (outcome : LeanWorkerShutdownOutcome) :
    Triple (fun s => s.worker.Owned) (killAndReport a gracefulTimeout outcome)
      StopReturned (fun _ s => s.worker.Stopping) := by
  refine Triple.bind (M := fun _ s => s.worker.Stopping) (Triple.update fun s owned => ?_)
    fun _ => Triple.bind (killChild_stopping a.kill) fun _ => ?_
  · exact ⟨⟨owned.child, owned.lastExit, owned.stdin⟩, rfl⟩
  · refine Triple.bind ((waitForExitBounded_stopping _ _ _).consequence
      (fun s h => h.toOwned) (fun _ _ h => h) (fun _ _ h => h)) fun found => ?_
    exact Triple.pure fun s gone => gone

theorem graceExpired_stopping (a : ShutdownAnswers) (gracefulTimeout : Duration) :
    Triple (fun s => s.worker.Stopping) (graceExpired a gracefulTimeout)
      StopReturned (fun _ s => s.worker.Stopping) := by
  refine Triple.bind (killChild_stopping a.kill) fun _ => ?_
  refine Triple.bind ((waitForExitBounded_stopping _ _ _).consequence
    (fun s h => h.toOwned) (fun _ _ h => h) (fun _ _ h => h)) fun found => ?_
  exact Triple.pure fun s gone => gone

theorem waitForTerminating_stopping (a : ShutdownAnswers) (gracefulTimeout : Duration) :
    Triple (fun s => s.worker.Stopping) (waitForTerminating a gracefulTimeout)
      StopReturned (fun _ s => s.worker.Stopping) := by
  refine Triple.bind (M := fun found s => match found with
      | .ok (exit, _) => s.worker.Gone ∧ s.worker.lastExit = some exit
      | .error _ => s.worker.Stopping)
    (Triple.capture ((waitForExitBounded_stopping _ _ _).consequence
      (fun s h => h.toOwned) (fun _ _ h => h) (fun _ _ h => h))) fun found => ?_
  cases found with
  | ok found => exact Triple.pure fun s gone => gone
  | error err =>
    cases err with
    | waitTimeout operation duration =>
      exact (killAndReport_stopping a gracefulTimeout _).consequence (fun s h => h.toOwned)
        (fun _ _ h => h) (fun _ _ h => h)
    | _ => exact Triple.raise fun s h => h

theorem gracePoll_stopping (answer : TryWait) :
    Triple (fun s => s.worker.Stopping) (gracePoll answer)
      (fun found s => match found with
        | some exit => s.worker.Gone ∧ s.worker.lastExit = some exit
        | none => s.worker.Stopping)
      (fun _ s => s.worker.Stopping) := by
  intro s stopping
  cases answer with
  | failed source => simpa [gracePoll, stopping.child] using stopping
  | running => simpa [gracePoll, stopping.child] using stopping
  | exited exitStatus stderr =>
    simpa [gracePoll, stopping.child, finalizeChildExit] using
      ⟨LeanWorker.gone_reaped _ _ _ _, rfl⟩

theorem LeanWorker.Stopping.withStdout {w : LeanWorker} (stopping : w.Stopping) (held : Bool) :
    ({ w with stdout := held } : LeanWorker).Stopping :=
  ⟨⟨stopping.child, stopping.lastExit, stopping.stdin⟩, stopping.rejects⟩

theorem graceLoop_stopping (a : ShutdownAnswers) (gracefulTimeout : Duration)
    (turns : List (TryWait × GraceEvent)) :
    Triple (fun s => s.worker.Stopping) (graceLoop a gracefulTimeout turns)
      StopReturned (fun _ s => s.worker.Stopping) := by
  have kill : Triple (fun s => s.worker.Stopping)
      (killAndReport a gracefulTimeout .gracefulProtocolFailedKilled) StopReturned
      (fun _ s => s.worker.Stopping) :=
    (killAndReport_stopping a gracefulTimeout _).consequence (fun s h => h.toOwned)
      (fun _ _ h => h) (fun _ _ h => h)
  have restored : ∀ m : Supervisor LeanWorkerShutdownReport,
      Triple (fun s => s.worker.Stopping) m StopReturned (fun _ s => s.worker.Stopping) →
      Triple (fun s => s.worker.Stopping)
        (modify (fun w => { w with stdout := true }) >>= fun _ => m)
        StopReturned (fun _ s => s.worker.Stopping) := fun m body =>
    Triple.bind (M := fun _ s => s.worker.Stopping)
      (Triple.update fun s stopping => stopping.withStdout true) fun _ => body
  induction turns with
  | nil =>
    refine Triple.bind (gracePoll_stopping a.graceLast) fun found => ?_
    cases found with
    | some exit => exact Triple.pure fun s gone => gone
    | none => exact graceExpired_stopping a gracefulTimeout
  | cons turn rest ih =>
    obtain ⟨poll, event⟩ := turn
    refine Triple.bind (gracePoll_stopping poll) fun found => ?_
    cases found with
    | some exit => exact Triple.pure fun s gone => gone
    | none =>
      cases event with
      | message => exact ih
      | timeout => exact ih
      | disconnected => exact kill
      | readError eof =>
        cases eof
        · exact kill
        · exact waitForTerminating_stopping a gracefulTimeout
      | terminal response =>
        cases response with
        | terminating => exact restored _ (waitForTerminating_stopping a gracefulTimeout)
        | _ => exact restored _ kill

theorem waitForGracefulShutdown_stopping (a : ShutdownAnswers) (gracefulTimeout : Duration) :
    Triple (fun s => s.worker.Stopping) (waitForGracefulShutdown a gracefulTimeout)
      StopReturned (fun _ s => s.worker.Stopping) := by
  intro s stopping
  by_cases held : s.worker.stdout
  · simpa [waitForGracefulShutdown, held] using
      graceLoop_stopping a gracefulTimeout a.grace _ (stopping.withStdout false)
  · simpa [waitForGracefulShutdown, held] using stopping

theorem writeRequest_stopping (request : Request) (answer : WriteAnswer) :
    Triple (fun s => s.worker.Stopping) (writeRequest request answer)
      (fun _ s => s.worker.Stopping) (fun _ s => s.worker.Stopping) := by
  intro s stopping
  cases answer <;> simp [writeRequest, stopping.stdin, stopping]

theorem stopRunning_stopping (a : ShutdownAnswers) (intent : ShutdownIntent)
    (gracefulTimeout : Duration) :
    Triple (fun s => s.worker.Owned) (stopRunning a intent gracefulTimeout)
      StopReturned (fun _ s => s.worker.Stopping) := by
  have kill : ∀ outcome, Triple (fun s => s.worker.Stopping)
      (killAndReport a gracefulTimeout outcome) StopReturned (fun _ s => s.worker.Stopping) :=
    fun outcome => (killAndReport_stopping a gracefulTimeout outcome).consequence
      (fun s h => h.toOwned) (fun _ _ h => h) (fun _ _ h => h)
  cases intent with
  | killOnly =>
    refine Triple.bind (M := fun _ s => s.worker.Stopping)
      (Triple.update fun s owned => ?_) fun _ => kill _
    exact ⟨⟨owned.child, owned.lastExit, owned.stdin⟩, rfl⟩
  | graceful =>
    refine Triple.bind (M := fun _ s => s.worker.Stopping)
      (Triple.update fun s owned => ?_) fun _ => ?_
    · exact ⟨⟨owned.child, owned.lastExit, owned.stdin⟩, rfl⟩
    · refine Triple.bind (M := fun _ s => s.worker.Stopping)
        (Triple.capture (writeRequest_stopping _ _)) fun written => ?_
      cases written with
      | ok _ => exact waitForGracefulShutdown_stopping a gracefulTimeout
      | error err =>
        cases err with
        | protocol text => exact kill _
        | worker code message => exact kill _
        | _ => exact Triple.raise fun s h => h

/-- A stop from a well-formed worker reaps the child, or fails at its first poll without
touching the worker, or leaves the worker in a state that accepts nothing. -/
theorem shutdownChild_stops (a : ShutdownAnswers) (intent : ShutdownIntent) (s : World)
    (formed : s.worker.WellFormed) :
    (shutdownChild a intent s).Meets StopReturned
      (fun e t => t.worker.Stopping ∨
        (t.worker = s.worker ∧ s.worker.Owned ∧ ∃ source, a.status = .failed source ∧
          e = .wait source)) := by
  rcases formed with owned | gone
  · simp only [shutdownChild, bind_apply, worker_apply, Outcome.andThen_returned,
      status_owned a.status s owned]
    cases polled : a.status with
    | failed source => exact .inr ⟨rfl, owned, source, rfl, rfl⟩
    | exited exitStatus stderr => exact ⟨LeanWorker.gone_reaped _ _ _ _, rfl⟩
    | running =>
      refine (stopRunning_stopping a intent _ _ ?_).weaken (fun _ _ h => h) (fun _ _ h => .inl h)
      exact owned
  · obtain ⟨exit, recorded, _, polled⟩ := status_gone a.status s gone
    simp only [shutdownChild, bind_apply, worker_apply, Outcome.andThen_returned, polled]
    exact ⟨gone.exited, recorded⟩

/-- Everything the supervisor remembers about its child that a stop has no business with. The
exit counter is the one statistic a stop moves. -/
structure Ledger where
  config : LeanWorkerConfig
  budget : GenerationBudget
  openSessionKeys : List LeanWorkerSessionConfig
  reuseHintEnabled : Bool
  reuseObserved : Bool
  pendingRestart : Option LeanWorkerRestartReason
  lastActivity : Instant
  generation : Nat
  nextRequestId : Nat
  restartWindow : List Instant
  stats : LeanWorkerStats

def LeanWorker.ledger (w : LeanWorker) : Ledger where
  config := w.config
  budget := w.budget
  openSessionKeys := w.openSessionKeys
  reuseHintEnabled := w.reuseHintEnabled
  reuseObserved := w.reuseObserved
  pendingRestart := w.pendingRestart
  lastActivity := w.lastActivity
  generation := w.generation
  nextRequestId := w.nextRequestId
  restartWindow := w.restartWindow
  stats := { w.stats with exits := 0 }

def Effect.ofStop : Effect → Bool
  | .tryWait _ | .wait | .kill _ => true
  | .write request _ => request == .terminate
  | _ => false

structure StopFrame (s t : World) : Prop where
  ledger : t.worker.ledger = s.worker.ledger
  effects : ∃ new, t.effects = s.effects ++ new ∧ ∀ e ∈ new, e.ofStop

instance : Std.Refl StopFrame where
  refl s := ⟨rfl, [], by simp⟩

instance : IsTrans World StopFrame where
  trans s t u first second := by
    obtain ⟨before, joined, stop⟩ := first.effects
    obtain ⟨after, joined', stop'⟩ := second.effects
    refine ⟨second.ledger.trans first.ledger, before ++ after, ?_, ?_⟩
    · rw [joined', joined, List.append_assoc]
    · intro e member
      rcases List.mem_append.mp member with h | h
      · exact stop e h
      · exact stop' e h

/-- A relation that every kind of step of a stop goes along. -/
class Stoppable (rel : World → World → Prop) : Prop
    extends Std.Refl rel, IsTrans World rel where
  settle : ∀ f : LeanWorker → LeanWorker,
    (∀ w, (f w).ledger = w.ledger ∧ (f w).stats = w.stats) → Moves rel (modify f)
  reap : ∀ exit, Moves rel (modify fun w => w.reaped exit)
  emit : ∀ e : Effect, e.ofStop → Moves rel (emit e)

instance : Stoppable StopFrame where
  settle _ same := fun s => ⟨(same s.worker).1, [], by simp⟩
  reap _ := fun _ => ⟨rfl, [], by simp⟩
  emit e stop := fun _ => ⟨rfl, [e], by simp [stop]⟩

section

variable {rel : World → World → Prop} [Stoppable rel]

theorem worker_along : Moves rel worker := fun s => Std.Refl.refl s

theorem finalizeChildExit_along (exitStatus : ExitStatus) (stderr : String) :
    Moves rel (finalizeChildExit exitStatus stderr) :=
  .bind worker_along fun _ => .bind (Stoppable.reap _) fun _ => .pure _

theorem status_along (answer : TryWait) : Moves rel (status answer) := by
  refine .bind worker_along fun w => ?_
  split
  · exact .bind (Stoppable.settle _ fun _ => ⟨rfl, rfl⟩) fun _ => .pure _
  · split
    · exact .bind (Stoppable.settle _ fun _ => ⟨rfl, rfl⟩) fun _ => .pure _
    · refine .bind (Stoppable.emit _ rfl) fun _ => ?_
      cases answer with
      | failed source => exact .raise _
      | running => exact .pure _
      | exited exitStatus stderr => exact .bind (Stoppable.reap _) fun _ => .pure _

theorem pollExit_along (answer : TryWait) : Moves rel (pollExit answer) := by
  refine .bind worker_along fun w => ?_
  split
  · exact .raise _
  · refine .bind (Stoppable.settle _ fun _ => ⟨rfl, rfl⟩) fun _ =>
      .bind (Stoppable.emit _ rfl) fun _ => ?_
    cases answer with
    | failed source => exact .raise _
    | running => exact .pure _
    | exited exitStatus stderr => exact .bind (finalizeChildExit_along _ _) fun _ => .pure _

theorem waitForExit_along (answer : WaitAnswer) : Moves rel (waitForExit answer) := by
  refine .bind worker_along fun w => ?_
  split
  · exact .raise _
  · refine .bind (Stoppable.settle _ fun _ => ⟨rfl, rfl⟩) fun _ =>
      .bind (Stoppable.emit _ rfl) fun _ => ?_
    cases answer with
    | failed source => exact .raise _
    | exited exitStatus stderr => exact finalizeChildExit_along _ _
    | never => exact .wait

theorem waitForExitPolls_along (operation : String) (timeout : Duration) (last : TryWait)
    (elapsed : Duration) (early : List TryWait) :
    Moves rel (waitForExitPolls operation timeout last elapsed early) := by
  induction early with
  | nil =>
    refine .bind (pollExit_along last) fun found => ?_
    cases found
    · exact .raise _
    · exact .pure _
  | cons poll rest ih =>
    refine .bind (pollExit_along poll) fun found => ?_
    cases found
    · exact ih
    · exact .pure _

theorem killChild_along (answer : KillAnswer) : Moves rel (killChild answer) := by
  refine .bind worker_along fun w => .choose (fun _ => ?_) fun _ => .pure _
  refine .bind (Stoppable.emit _ rfl) fun _ => ?_
  cases answer
  · exact .raise _
  · exact .pure _

theorem killAndReport_along (a : ShutdownAnswers) (gracefulTimeout : Duration)
    (outcome : LeanWorkerShutdownOutcome) :
    Moves rel (killAndReport a gracefulTimeout outcome) :=
  .bind (Stoppable.settle _ fun _ => ⟨rfl, rfl⟩) fun _ => .bind (killChild_along _) fun _ =>
    .bind (waitForExitPolls_along _ _ _ _ _) fun _ => .pure _

theorem waitForTerminating_along (a : ShutdownAnswers) (gracefulTimeout : Duration) :
    Moves rel (waitForTerminating a gracefulTimeout) := by
  refine .bind (.capture (waitForExitPolls_along _ _ _ _ _)) fun found => ?_
  cases found with
  | ok _ => exact .pure _
  | error err =>
    cases err with
    | waitTimeout operation duration => exact killAndReport_along a gracefulTimeout _
    | _ => exact .raise _

theorem gracePoll_along (answer : TryWait) : Moves rel (gracePoll answer) := by
  refine .bind worker_along fun w => .choose (fun _ => ?_) fun _ => .pure _
  refine .bind (Stoppable.emit _ rfl) fun _ => ?_
  cases answer with
  | failed source => exact .raise _
  | running => exact .pure _
  | exited exitStatus stderr => exact .bind (finalizeChildExit_along _ _) fun _ => .pure _

theorem graceLoop_along (a : ShutdownAnswers) (gracefulTimeout : Duration)
    (turns : List (TryWait × GraceEvent)) :
    Moves rel (graceLoop a gracefulTimeout turns) := by
  induction turns with
  | nil =>
    refine .bind (gracePoll_along _) fun found => ?_
    cases found
    · exact .bind (killChild_along _) fun _ => .bind (waitForExitPolls_along _ _ _ _ _) fun _ =>
        .pure _
    · exact .pure _
  | cons turn rest ih =>
    obtain ⟨poll, event⟩ := turn
    refine .bind (gracePoll_along _) fun found => ?_
    cases found with
    | some exit => exact .pure _
    | none =>
      cases event with
      | message => exact ih
      | timeout => exact ih
      | disconnected => exact killAndReport_along _ _ _
      | readError eof =>
        cases eof
        · exact killAndReport_along _ _ _
        · exact waitForTerminating_along _ _
      | terminal response =>
        cases response with
        | terminating =>
          exact .bind (Stoppable.settle _ fun _ => ⟨rfl, rfl⟩) fun _ =>
            waitForTerminating_along _ _
        | _ =>
          exact .bind (Stoppable.settle _ fun _ => ⟨rfl, rfl⟩) fun _ =>
            killAndReport_along _ _ _

theorem writeRequest_along (answer : WriteAnswer) :
    Moves rel (writeRequest .terminate answer) := by
  refine .bind worker_along fun w => .choose (fun _ => ?_) fun _ => .raise _
  refine .bind (Stoppable.emit _ (by simp [Effect.ofStop])) fun _ => ?_
  cases answer
  · exact .pure _
  · exact .raise _
  · exact .raise _

theorem shutdownChild_along (a : ShutdownAnswers) (intent : ShutdownIntent) :
    Moves rel (shutdownChild a intent) := by
  refine .bind worker_along fun w => .bind (status_along _) fun found => ?_
  cases found with
  | exited exit => exact .pure _
  | running =>
    cases intent with
    | killOnly =>
      exact .bind (Stoppable.settle _ fun _ => ⟨rfl, rfl⟩) fun _ => killAndReport_along _ _ _
    | graceful =>
      refine .bind (Stoppable.settle _ fun _ => ⟨rfl, rfl⟩) fun _ =>
        .bind (.capture (writeRequest_along _)) fun written => ?_
      cases written with
      | ok _ =>
        exact .bind worker_along fun _ => .choose
          (fun _ => .bind (Stoppable.settle _ fun _ => ⟨rfl, rfl⟩) fun _ =>
            graceLoop_along _ _ _)
          fun _ => .raise _
      | error err =>
        cases err with
        | protocol text => exact killAndReport_along _ _ _
        | worker code message => exact killAndReport_along _ _ _
        | _ => exact .raise _

end

theorem status_frame (answer : TryWait) : Moves StopFrame (status answer) := status_along answer

theorem waitForExit_frame (answer : WaitAnswer) : Moves StopFrame (waitForExit answer) :=
  waitForExit_along answer

theorem killChild_frame (answer : KillAnswer) : Moves StopFrame (killChild answer) :=
  killChild_along answer

theorem shutdownChild_frame (a : ShutdownAnswers) (intent : ShutdownIntent) :
    Moves StopFrame (shutdownChild a intent) := shutdownChild_along a intent

end LeanRs
