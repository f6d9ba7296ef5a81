import LeanRs.Worker.Operations

/-! Who holds the child's output pipe. A request hands it to a reader thread, and the ways out
of the read loop differ in whether it comes back. -/
namespace LeanRs

open Procedures Procedure Supervisor

/-- The child is there, both handles are held, and the worker accepts requests. -/
structure LeanWorker.Ready (w : LeanWorker) : Prop extends LeanWorker.Owned w where
  stdout : w.stdout = true
  idle : w.state.isIdle = true

theorem LeanWorker.Ready.not_stopping {w : LeanWorker} (ready : w.Ready) : ¬w.Stopping := by
  intro stopping
  have idle := ready.idle
  have rejects := stopping.rejects
  cases state : w.state with
  | idle generation => rw [state] at rejects; exact nomatch rejects
  | _ => rw [state] at idle; exact nomatch idle

/-- The child is there and the worker accepts requests, but nobody can read the answers. -/
structure LeanWorker.Lost (w : LeanWorker) : Prop extends LeanWorker.Owned w where
  stdout : w.stdout = false
  idle : w.state.isIdle = true

/-- How a worker can be between two operations; the last case only where losing the output pipe
is allowed for. -/
inductive LeanWorker.Settled (lossy : Prop) (w : LeanWorker) : Prop where
  | gone (gone : w.Gone)
  | stopping (stopping : w.Stopping)
  | ready (ready : w.Ready)
  | lost (allowed : lossy) (lost : w.Lost)

inductive LeanWorker.Accepting (lossy : Prop) (w : LeanWorker) : Prop where
  | ready (ready : w.Ready)
  | lost (allowed : lossy) (lost : w.Lost)

section

variable {lossy : Prop} {w w' : LeanWorker}

theorem LeanWorker.Accepting.owned (accepting : w.Accepting lossy) : w.Owned := by
  cases accepting with
  | ready ready => exact ready.toOwned
  | lost _ lost => exact lost.toOwned

theorem LeanWorker.Accepting.settled (accepting : w.Accepting lossy) : w.Settled lossy := by
  cases accepting with
  | ready ready => exact .ready ready
  | lost allowed lost => exact .lost allowed lost

theorem LeanWorker.Accepting.congr (accepting : w.Accepting lossy) (owned : w'.Owned)
    (stdout : w'.stdout = w.stdout) (state : w'.state = w.state) : w'.Accepting lossy := by
  cases accepting with
  | ready ready => exact .ready ⟨owned, stdout.trans ready.stdout, by rw [state, ready.idle]⟩
  | lost allowed lost =>
    exact .lost allowed ⟨owned, stdout.trans lost.stdout, by rw [state, lost.idle]⟩

theorem LeanWorker.Settled.formed (settled : w.Settled lossy) : w.WellFormed := by
  cases settled with
  | gone gone => exact .inr gone
  | stopping stopping => exact .inl stopping.toOwned
  | ready ready => exact .inl ready.toOwned
  | lost _ lost => exact .inl lost.toOwned

theorem LeanWorker.Settled.weaken {lossy' : Prop} (settled : w.Settled lossy)
    (wider : lossy → lossy') : w.Settled lossy' := by
  cases settled with
  | gone gone => exact .gone gone
  | stopping stopping => exact .stopping stopping
  | ready ready => exact .ready ready
  | lost allowed lost => exact .lost (wider allowed) lost

theorem LeanWorker.Settled.accepting (settled : w.Settled lossy) (owned : w.Owned)
    (accepts : w.state.rejectsNewRequests = false) : w.Accepting lossy := by
  cases settled with
  | gone gone => exact absurd gone owned.not_gone
  | stopping stopping => rw [stopping.rejects] at accepts; cases accepts
  | ready ready => exact .ready ready
  | lost allowed lost => exact .lost allowed lost

theorem LeanWorker.Renewed.ready (renewed : w.Renewed w') : w'.Ready :=
  ⟨renewed.toOwned, renewed.stdout, by rw [renewed.state]; rfl⟩

end

theorem ensureRunning_meets (answer : TryWait) (s : World) (formed : s.worker.WellFormed) :
    (ensureRunning answer s).Meets
      (fun _ t => t.worker = s.worker ∧ s.worker.Owned ∧
        s.worker.state.rejectsNewRequests = false)
      (fun e t => (t.worker = s.worker ∨ t.worker.Gone) ∧ e.saysNotRunning = false) := by
  simp only [ensureRunning, bind_apply, worker_apply, Outcome.andThen_returned]
  by_cases rejects : s.worker.state.rejectsNewRequests = true
  · simp [rejects, LeanWorkerError.saysNotRunning]
  · simp only [rejects, Bool.false_eq_true, if_false, bind_apply]
    rcases formed with owned | gone
    · rw [status_owned answer s owned]
      cases answer with
      | failed source => exact ⟨.inl rfl, rfl⟩
      | running => exact ⟨rfl, owned, by simp⟩
      | exited exitStatus stderr =>
        exact ⟨.inr (LeanWorker.gone_reaped _ _ _ _), by simp⟩
    · obtain ⟨exit, _, rendered, polled⟩ := status_gone answer s gone
      rw [polled]
      exact ⟨.inr gone.exited, by simpa using rendered⟩

variable {lossy : Prop}

/-- How a request is refused before it is read for: the worker is settled, and the error says
that the worker is not running only where the output pipe was missing to begin with. -/
structure Refused (lossy : Prop) (e : LeanWorkerError) (s : World) : Prop where
  settled : s.worker.Settled lossy
  running : lossy ∨ e.saysNotRunning = false

theorem restartWithReason_settled (reason : LeanWorkerRestartReason) (a : RestartAnswers) :
    Triple (fun s => s.worker.Accepting lossy) (restartWithReason reason a)
      (fun _ s => s.worker.Ready) (Refused lossy) := by
  intro s accepting
  refine (restartWithReason_ends reason a s (.inl accepting.owned)).weaken
    (fun _ t renewed => renewed.ready) fun e t failed => ?_
  cases failed with
  | stopFailed err w' memory restarts owned unreaped system left =>
    refine ⟨?_, ?_⟩
    · rcases left with stopping | ⟨owned, state, stdout, _⟩
      · exact .stopping stopping
      · exact (accepting.congr owned stdout state).settled
    · cases accepting with
      | ready ready =>
        exact .inr (LeanWorkerError.saysNotRunning_of_ofSystem (system (.inr ready.stdout)))
      | lost allowed lost => exact .inl allowed
  | refused restarts window w' gone state memory unchanged full => exact ⟨.gone gone, .inr rfl⟩
  | spawnFailed err w' gone memory restarts running => exact ⟨.gone gone, .inr running⟩

theorem worker_keeps {P : World → Prop} {R : LeanWorkerError → World → Prop} :
    Triple P worker (fun w s => s.worker = w ∧ P s) R := fun _ held => ⟨rfl, held⟩

theorem count_accepting (f : LeanWorkerStats → LeanWorkerStats)
    {R : LeanWorkerError → World → Prop} :
    Triple (fun s => s.worker.Accepting lossy) (count f) (fun _ s => s.worker.Accepting lossy) R :=
  Triple.update fun _ accepting => accepting.congr (accepting.owned.counted f) rfl rfl

theorem restartAdmitting_settled (importLike : Bool) (reason : LeanWorkerRestartReason)
    (a : RestartAnswers) :
    Triple (fun s => s.worker.Accepting lossy) (restartAdmitting importLike reason a)
      (fun _ s => s.worker.Accepting lossy) (Refused lossy) := by
  exact Triple.bind (restartWithReason_settled reason a) fun _ =>
    (count_accepting _).consequence (fun _ ready => .ready ready) (fun _ _ h => h) (fun _ _ h => h)

theorem countImportLikeAdmission_accepting (importLike : Bool) (sample : Option Nat) :
    Triple (fun s => s.worker.Accepting lossy) (countImportLikeAdmission importLike sample)
      (fun _ s => s.worker.Accepting lossy) (Refused lossy) := by
  refine Triple.bind worker_keeps fun w => .choose (fun _ => ?_) fun _ => ?_
  · exact (count_accepting _).consequence (fun _ h => h.2) (fun _ _ h => h) (fun _ _ h => h)
  · exact Triple.pure fun s held => held.2

theorem rssCeilingReached_accepting (sample : Option Nat) :
    Triple (fun s => s.worker.Accepting lossy) (rssCeilingReached sample)
      (fun _ s => s.worker.Accepting lossy) (Refused lossy) := by
  refine Triple.bind worker_keeps fun w => ?_
  split
  · exact Triple.pure fun s held => held.2
  · exact Triple.bind ((count_accepting _).consequence (fun _ h => h.2) (fun _ _ h => h)
      (fun _ _ h => h)) fun _ => Triple.pure fun s held => held

theorem ensureRunning_accepting (answer : TryWait) :
    Triple (fun s => s.worker.Settled lossy) (ensureRunning answer)
      (fun _ s => s.worker.Accepting lossy) (Refused lossy) := by
  intro s settled
  refine (ensureRunning_meets answer s settled.formed).weaken (fun _ t running => ?_)
    fun e t failed => ?_
  · obtain ⟨same, owned, accepts⟩ := running
    rw [same]
    exact settled.accepting owned accepts
  · obtain ⟨same | gone, running⟩ := failed
    · exact ⟨by rw [same]; exact settled, .inr running⟩
    · exact ⟨.gone gone, .inr running⟩

theorem prepareRequest_accepting (importLike : Bool) (a : PrepareAnswers) :
    Triple (fun s => s.worker.Settled lossy) (prepareRequest importLike a)
      (fun _ s => s.worker.Accepting lossy) (Refused lossy) := by
  refine Triple.bind (ensureRunning_accepting a.poll) fun _ =>
    Triple.bind (countImportLikeAdmission_accepting importLike _) fun _ =>
    Triple.bind (M := fun _ s => s.worker.Accepting lossy)
      (worker_keeps.consequence (fun _ h => h) (fun _ _ h => h.2) (fun _ _ h => h)) fun w => ?_
  split
  · exact restartAdmitting_settled importLike _ _
  · refine Triple.bind (rssCeilingReached_accepting a.rss) fun ceiling => ?_
    split
    · exact restartAdmitting_settled importLike _ _
    · split
      · exact restartAdmitting_settled importLike _ _
      · exact count_accepting _

theorem writeRequest_accepting (request : Request) (answer : WriteAnswer) :
    Triple (fun s => s.worker.Accepting lossy) (writeRequest request answer)
      (fun _ s => s.worker.Accepting lossy) (Refused lossy) := by
  intro s accepting
  cases answer with
  | written => simpa [writeRequest, accepting.owned.stdin] using accepting
  | tooLarge text => simpa [writeRequest, accepting.owned.stdin] using ⟨accepting.settled, .inr rfl⟩
  | broken text => simpa [writeRequest, accepting.owned.stdin] using ⟨accepting.settled, .inr rfl⟩

theorem sendRequest_accepting (poll : TryWait) (request : Request) (answer : WriteAnswer) :
    Triple (fun s => s.worker.Accepting lossy) (sendRequest poll request answer)
      (fun _ s => s.worker.Accepting lossy) (Refused lossy) :=
  Triple.bind ((ensureRunning_accepting poll).consequence (fun _ h => h.settled)
    (fun _ _ h => h) (fun _ _ h => h)) fun _ => writeRequest_accepting request answer

theorem issueRequest_accepting (request : Request) (importLike : Bool) (a : RequestAnswers) :
    Triple (fun s => s.worker.Settled lossy) (issueRequest request importLike a)
      (fun _ s => s.worker.Accepting lossy) (Refused lossy) :=
  Triple.bind (prepareRequest_accepting importLike a.prepare) fun _ =>
    Triple.bind (sendRequest_accepting a.poll request a.write) fun _ =>
    Triple.update fun _ accepting =>
      accepting.congr ⟨accepting.owned.child, accepting.owned.lastExit, accepting.owned.stdin⟩
        rfl rfl

end LeanRs
