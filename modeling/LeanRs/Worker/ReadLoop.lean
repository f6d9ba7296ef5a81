import LeanRs.Worker.Settled

/-! The ways out of the read loop, by what the turn meets. -/
namespace LeanRs

open Procedures Procedure Supervisor

inductive TurnFate where
  | again
  | ends
  | loses
  deriving DecidableEq

namespace TurnAnswers

/-- A replacement whose very first poll fails leaves the child as it was. -/
def replaceFate (a : TurnAnswers) : TurnFate :=
  match a.restart.stop.status with
  | .failed _ => .loses
  | _ => .ends

def cancelFate (a : TurnAnswers) : TurnFate := if a.cancelled then a.replaceFate else .again

end TurnAnswers

def SinkAnswer.panics : SinkAnswer → Bool
  | .panicked _ => true
  | _ => false

/-- A row is refused when nobody asked for rows, when it cannot be decoded and when the sink
panics. -/
def refusesRow : Option DataSinkTarget → SinkAnswer → Bool
  | none, _ => true
  | some .value, .undecodable _ => true
  | _, sink => sink.panics

namespace RequestContext

def messageFate (c : RequestContext) (a : TurnAnswers) : Message → TurnFate
  | .progressTick _ => if c.progress && a.sink.panics then .loses else a.cancelFate
  | .dataRow _ => if refusesRow c.data a.sink then .loses else a.cancelFate
  | .diagnostic _ => if c.diagnostics && a.sink.panics then .loses else .again
  | .response _ => .ends
  | _ => .loses

def frameFate (c : RequestContext) (a : TurnAnswers) : ReaderFrame → TurnFate
  | .frame message => c.messageFate a message
  | .failed _ eof => if eof then .ends else .loses

def receivedFate (c : RequestContext) (config : LeanWorkerConfig) (a : TurnAnswers) : TurnFate :=
  match a.received with
  | .event frame _ => c.frameFate a frame
  | .disconnected => .loses
  | .nothing =>
    match c.remaining a.now with
    | some remaining =>
      if config.rssHardLimitKib.isSome && decide (config.rssSampleInterval < remaining) then .again
      else a.replaceFate
    | none => .ends

def turnFate (c : RequestContext) (config : LeanWorkerConfig) (a : TurnAnswers) : TurnFate :=
  if hardLimitHit config a.rss then a.replaceFate
  else if c.remaining a.now = some 0 then a.replaceFate
  else c.receivedFate config a
where
  hardLimitHit (config : LeanWorkerConfig) (sample : Option Nat) : Bool :=
    match config.rssHardLimitKib, sample with
    | some limitKib, some currentKib => decide (limitKib ≤ currentKib)
    | _, _ => false

/-- The loop leaves the child running and its output pipe with the reader. -/
def loopLoses (c : RequestContext) (config : LeanWorkerConfig) : List TurnAnswers → Bool
  | [] => false
  | a :: rest =>
    match c.turnFate config a with
    | .again => loopLoses c config rest
    | .ends => false
    | .loses => true

end RequestContext

/-- The request is in flight and the reader has the output pipe. -/
structure LeanWorker.InLoop (c : RequestContext) (config : LeanWorkerConfig) (w : LeanWorker) :
    Prop extends LeanWorker.Owned w where
  stdout : w.stdout = false
  config : w.config = config
  generation : w.generation = c.generation
  request : ∃ r : InFlightRequest, r.id = c.requestId ∧ (w.state = .busy r ∨ w.state = .streaming r)

section

variable {c : RequestContext} {config : LeanWorkerConfig} {w : LeanWorker}

theorem LeanWorker.InLoop.counted (f : LeanWorkerStats → LeanWorkerStats)
    (inLoop : w.InLoop c config) : (w.counted f).InLoop c config :=
  ⟨inLoop.toOwned.counted f, inLoop.stdout, inLoop.config, inLoop.generation, inLoop.request⟩

theorem LeanWorker.InLoop.marked (inLoop : w.InLoop c config) :
    w.markCurrentRequestStreaming.InLoop c config := by
  obtain ⟨r, id, state | state⟩ := inLoop.request
  · simp only [LeanWorker.markCurrentRequestStreaming, state]
    exact ⟨⟨inLoop.child, inLoop.lastExit, inLoop.stdin⟩, inLoop.stdout, inLoop.config,
      inLoop.generation, r, id, .inr rfl⟩
  · simp only [LeanWorker.markCurrentRequestStreaming, state]
    exact ⟨⟨inLoop.child, inLoop.lastExit, inLoop.stdin⟩, inLoop.stdout, inLoop.config,
      inLoop.generation, r, id, .inr rfl⟩

theorem LeanWorker.finishInFlight_of_inFlight (w : LeanWorker) (r : InFlightRequest)
    (state : w.state = .busy r ∨ w.state = .streaming r) :
    w.finishInFlight = { w with state := .idle w.generation } := by
  unfold LeanWorker.finishInFlight
  rcases state with state | state <;> simp only [state]

theorem LeanWorker.finishInFlight_of_settled (w : LeanWorker)
    (settled : w.state.isInFlight = false) :
    w.finishInFlight = w := by
  unfold LeanWorker.finishInFlight
  split
  · rename_i state; rw [state] at settled; cases settled
  · rename_i state; rw [state] at settled; cases settled
  · rfl

theorem LeanWorker.Stopping.notInFlight (stopping : w.Stopping) : w.state.isInFlight = false := by
  have rejects := stopping.rejects
  cases h : w.state <;> rw [h] at rejects <;> first | rfl | cases rejects

theorem LeanWorker.InLoop.finished (inLoop : w.InLoop c config) : w.finishInFlight.Lost := by
  obtain ⟨r, id, state⟩ := inLoop.request
  rw [w.finishInFlight_of_inFlight r state]
  exact ⟨⟨inLoop.child, inLoop.lastExit, inLoop.stdin⟩, inLoop.stdout, rfl⟩

/-- The terminal event has handed the pipe back; the request is still in flight. -/
structure LeanWorker.HandedBack (w : LeanWorker) : Prop extends LeanWorker.Owned w where
  stdout : w.stdout = true
  request : ∃ r : InFlightRequest, w.state = .busy r ∨ w.state = .streaming r

theorem LeanWorker.InLoop.handedBack (inLoop : w.InLoop c config) :
    ({ w with stdout := true } : LeanWorker).HandedBack := by
  obtain ⟨r, _, state⟩ := inLoop.request
  exact ⟨⟨inLoop.child, inLoop.lastExit, inLoop.stdin⟩, rfl, r, state⟩

theorem LeanWorker.HandedBack.counted (f : LeanWorkerStats → LeanWorkerStats)
    (handed : w.HandedBack) : (w.counted f).HandedBack :=
  ⟨handed.toOwned.counted f, handed.stdout, handed.request⟩

theorem LeanWorker.HandedBack.finished (handed : w.HandedBack) : w.finishInFlight.Ready := by
  obtain ⟨r, state⟩ := handed.request
  rw [w.finishInFlight_of_inFlight r state]
  exact ⟨⟨handed.child, handed.lastExit, handed.stdin⟩, handed.stdout, rfl⟩

/-- Inside the loop the worker may be asked for nothing but to go on or to give up. -/
abbrev Looping (c : RequestContext) (config : LeanWorkerConfig) (s : World) : Prop :=
  s.worker.InLoop c config

end

variable {c : RequestContext} {config : LeanWorkerConfig}

theorem count_looping (f : LeanWorkerStats → LeanWorkerStats) {R : LeanWorkerError → World → Prop} :
    Triple (Looping c config) (count f) (fun _ => Looping c config) R :=
  Triple.update fun _ inLoop => inLoop.counted f

theorem recordStreamFailure_looping (elapsed : Duration) (waits : Nat)
    {R : LeanWorkerError → World → Prop} :
    Triple (Looping c config) (recordStreamFailure c elapsed waits)
      (fun _ => Looping c config) R :=
  .choose (fun _ => count_looping _) fun _ => Triple.pure fun _ inLoop => inLoop

theorem terminalizeRequestFailure_looping (elapsed : Duration) (waits : Nat)
    {R : LeanWorkerError → World → Prop} :
    Triple (Looping c config) (terminalizeRequestFailure c elapsed waits)
      (fun _ s => s.worker.Lost) R :=
  Triple.bind (recordStreamFailure_looping elapsed waits) fun _ =>
    Triple.update fun _ inLoop => inLoop.finished

/-- Where a turn leaves the worker when it raises. No error of the loop says that the worker is
not running, and both pipes are held only after a terminal response or with a new child. -/
structure GaveUp (lossy answered : Prop) (e : LeanWorkerError) (s : World) : Prop where
  settled : s.worker.Settled lossy
  running : e.saysNotRunning = false
  renewed : s.worker.Ready → answered ∨ s.Respawned

section

variable {lossy answered : Prop} {e : LeanWorkerError} {s : World}

theorem GaveUp.weaken {lossy' answered' : Prop} (gaveUp : GaveUp lossy answered e s)
    (wider : lossy → lossy') (also : answered → answered') : GaveUp lossy' answered' e s :=
  ⟨gaveUp.settled.weaken wider, gaveUp.running, fun ready => (gaveUp.renewed ready).imp_left also⟩

theorem GaveUp.ofLost (allowed : lossy) (lost : s.worker.Lost)
    (running : e.saysNotRunning = false) :
    GaveUp lossy answered e s :=
  ⟨.lost allowed lost, running, fun ready => nomatch ready.stdout.symm.trans lost.stdout⟩

theorem GaveUp.ofStopping (stopping : s.worker.Stopping) (running : e.saysNotRunning = false) :
    GaveUp lossy answered e s :=
  ⟨.stopping stopping, running, fun ready => absurd stopping ready.not_stopping⟩

theorem GaveUp.ofGone (gone : s.worker.Gone) (running : e.saysNotRunning = false) :
    GaveUp lossy answered e s :=
  ⟨.gone gone, running, fun ready => absurd gone ready.toOwned.not_gone⟩

end

variable {answered : Prop}

theorem replaceAndFail_looping (waits : Nat) (a : TurnAnswers) (reason : LeanWorkerRestartReason)
    (killOnly : stopIntent reason = .killOnly) (error : LeanWorkerStats → LeanWorkerError)
    (running : ∀ stats, (error stats).saysNotRunning = false) (Q : Turn → World → Prop) :
    Triple (Looping c config) (replaceAndFail c waits a reason error) Q
      (GaveUp (a.replaceFate = .loses) answered) := by
  refine Triple.bind (recordStreamFailure_looping a.streamElapsed waits) fun _ => ?_
  intro s inLoop
  simp only [bind_apply, capture_apply]
  have ends := restartWithReason_ends reason a.restart s (.inl inLoop.toOwned)
  have spawns := restartWithReason_respawns reason a.restart s trivial
  cases outcome : restartWithReason reason a.restart s with
  | waiting t => trivial
  | returned _ t =>
    rw [outcome] at ends spawns
    have ready := LeanWorker.Renewed.ready ends
    have settled : t.worker.state.isInFlight = false := by
      have state := LeanWorker.Renewed.state ends
      rw [state]; rfl
    simp only [Outcome.captured_returned, Outcome.andThen_returned, bind_apply, modify_apply,
      worker_apply, raise_apply, LeanWorker.finishInFlight_of_settled _ settled]
    exact ⟨.ready ready, running _, fun _ => .inr spawns⟩
  | raised err t =>
    rw [outcome] at ends
    simp only [Outcome.captured_raised, Outcome.andThen_returned, bind_apply, modify_apply,
      raise_apply]
    cases ends with
    | refused restarts window w' gone state memory unchanged full =>
      rw [LeanWorker.finishInFlight_of_settled _ gone.notInFlight]
      exact .ofGone gone rfl
    | spawnFailed err w' gone memory restarts running =>
      rw [LeanWorker.finishInFlight_of_settled _ gone.notInFlight]
      exact .ofGone gone running
    | stopFailed err w' memory restarts owned unreaped system left =>
      have running := LeanWorkerError.saysNotRunning_of_ofSystem (system (.inl killOnly))
      rcases left with stopping | ⟨owned, state, stdout, source, _, failed⟩
      · rw [LeanWorker.finishInFlight_of_settled _ stopping.notInFlight]
        exact .ofStopping stopping running
      · -- the reader has gone with the pipe, and the child is still there
        obtain ⟨r, _, inFlight⟩ := inLoop.request
        rw [LeanWorker.finishInFlight_of_inFlight _ r (by rw [state]; exact inFlight)]
        refine .ofLost (by simp [TurnAnswers.replaceFate, failed]) ⟨?_, ?_, rfl⟩ running
        · exact ⟨owned.child, owned.lastExit, owned.stdin⟩
        · exact stdout.trans inLoop.stdout

theorem hardLimitExit_looping (waits : Nat) (a : TurnAnswers) (currentKib limitKib : Nat)
    (Q : Turn → World → Prop) :
    Triple (Looping c config) (hardLimitExit c waits a currentKib limitKib) Q
      (GaveUp (a.replaceFate = .loses) answered) :=
  Triple.bind (M := fun _ => Looping c config) (fun _ inLoop => inLoop) fun _ =>
    replaceAndFail_looping waits a _ rfl _ (fun _ => rfl) Q

theorem orCancel_looping (waits : Nat) (a : TurnAnswers) :
    Triple (Looping c config) (orCancel c waits a)
      (fun turn s => turn = .again waits ∧ a.cancelFate = .again ∧ Looping c config s)
      (GaveUp (a.cancelFate = .loses) answered) := by
  refine .choose (fun cancelled => ?_) fun goesOn => ?_
  · have same : a.cancelFate = a.replaceFate := by simp [TurnAnswers.cancelFate, cancelled]
    rw [same]
    exact replaceAndFail_looping waits a _ rfl _ (fun _ => rfl) _
  · exact Triple.pure fun s inLoop => ⟨rfl, by simp [TurnAnswers.cancelFate, goesOn], inLoop⟩

theorem orTerminalize_looping (waits : Nat) (a : TurnAnswers) (report : Supervisor Unit)
    (refused : Prop) (reports : Triple (Looping c config) report
      (fun _ s => Looping c config s ∧ ¬refused)
      (fun e s => Looping c config s ∧ refused ∧ e.saysNotRunning = false)) :
    Triple (Looping c config) (orTerminalize c waits a report)
      (fun _ s => Looping c config s ∧ ¬refused) (GaveUp refused answered) := by
  apply Triple.captured reports
  · exact fun _ => Triple.pure fun _ held => held
  · intro err
    have gaveUp := (@terminalizeRequestFailure_looping c config a.streamElapsed waits
      (GaveUp refused answered)).also (refused ∧ err.saysNotRunning = false)
    exact Triple.bind (gaveUp.consequence (fun _ h => h) (fun _ _ h => h) (fun _ _ h => h.1))
      fun _ => Triple.raise fun _ held => .ofLost held.2.1 held.1 held.2.2

theorem emit_looping (e : Effect) {R : LeanWorkerError → World → Prop} :
    Triple (Looping c config) (emit e) (fun _ => Looping c config) R :=
  Triple.update fun _ inLoop => inLoop

theorem reportParentProgress_looping (present : Bool) (tick : ProgressTick) (elapsed : Duration)
    (sink : SinkAnswer) :
    Triple (Looping c config) (reportParentProgress present tick elapsed sink)
      (fun _ s => Looping c config s ∧ ¬(present && sink.panics) = true)
      (fun e s => Looping c config s ∧ (present && sink.panics) = true ∧
        e.saysNotRunning = false) := by
  cases present with
  | false => exact Triple.pure fun _ inLoop => ⟨inLoop, by simp⟩
  | true =>
    refine Triple.bind (emit_looping _) fun _ => ?_
    cases sink with
    | panicked message => exact Triple.raise fun _ inLoop => ⟨inLoop, rfl, rfl⟩
    | accepted => exact Triple.pure fun _ inLoop => ⟨inLoop, by simp [SinkAnswer.panics]⟩
    | undecodable text => exact Triple.pure fun _ inLoop => ⟨inLoop, by simp [SinkAnswer.panics]⟩

theorem reportParentDiagnostic_looping (present : Bool) (diagnostic : Diagnostic)
    (sink : SinkAnswer) :
    Triple (Looping c config) (reportParentDiagnostic present diagnostic sink)
      (fun _ s => Looping c config s ∧ ¬(present && sink.panics) = true)
      (fun e s => Looping c config s ∧ (present && sink.panics) = true ∧
        e.saysNotRunning = false) := by
  cases present with
  | false => exact Triple.pure fun _ inLoop => ⟨inLoop, by simp⟩
  | true =>
    refine Triple.bind (emit_looping _) fun _ => ?_
    cases sink with
    | panicked message => exact Triple.raise fun _ inLoop => ⟨inLoop, rfl, rfl⟩
    | accepted => exact Triple.pure fun _ inLoop => ⟨inLoop, by simp [SinkAnswer.panics]⟩
    | undecodable text => exact Triple.pure fun _ inLoop => ⟨inLoop, by simp [SinkAnswer.panics]⟩

theorem reportParentDataRow_looping (target : Option DataSinkTarget) (row : DataRow)
    (sink : SinkAnswer) :
    Triple (Looping c config) (reportParentDataRow target row sink)
      (fun _ s => Looping c config s ∧ ¬refusesRow target sink = true)
      (fun e s => Looping c config s ∧ refusesRow target sink = true ∧
        e.saysNotRunning = false) := by
  cases target with
  | none => exact Triple.raise fun _ inLoop => ⟨inLoop, rfl, rfl⟩
  | some target =>
    cases sink with
    | accepted =>
      cases target <;>
        exact (emit_looping _).consequence (fun _ h => h)
          (fun _ _ h => ⟨h, by simp [refusesRow, SinkAnswer.panics]⟩) (fun _ _ h => h)
    | panicked message =>
      cases target <;>
        exact Triple.bind (emit_looping _) fun _ => Triple.raise fun _ inLoop => ⟨inLoop, rfl, rfl⟩
    | undecodable text =>
      cases target with
      | value => exact Triple.raise fun _ inLoop => ⟨inLoop, rfl, rfl⟩
      | raw =>
        exact (emit_looping _).consequence (fun _ h => h)
          (fun _ _ h => ⟨h, by simp [refusesRow, SinkAnswer.panics]⟩) (fun _ _ h => h)

/-- What a turn promises: going on stays in the loop, and an answer, which is one that was
received, brings the pipe back. -/
abbrev TurnPost (c : RequestContext) (config : LeanWorkerConfig) (fate : TurnFate)
    (received : Response → Prop) (turn : Turn) (s : World) : Prop :=
  match turn with
  | .again _ => fate = .again ∧ Looping c config s
  | .complete response => received response ∧ s.worker.Ready

theorem handleMessage_looping (waits : Nat) (a : TurnAnswers) (message : Message)
    (event : message.isTerminal = false) :
    Triple (Looping c config) (handleMessage c waits a message)
      (TurnPost c config (c.messageFate a message) fun _ => False)
      (GaveUp (c.messageFate a message = .loses) answered) := by
  have mark : Triple (Looping c config) (modify LeanWorker.markCurrentRequestStreaming)
      (fun _ => Looping c config) (GaveUp (c.messageFate a message = .loses) answered) :=
    Triple.update fun _ inLoop => inLoop.marked
  have unexpected : ∀ text : ProtocolText, c.messageFate a message = .loses →
      Triple (Looping c config)
        (terminalizeRequestFailure c a.streamElapsed waits >>= fun _ => raise (.protocol text))
        (TurnPost c config (c.messageFate a message) fun _ => False)
        (GaveUp (c.messageFate a message = .loses) answered) := fun text loses =>
    Triple.bind (terminalizeRequestFailure_looping a.streamElapsed waits) fun _ =>
      Triple.raise fun _ lost => .ofLost loses lost rfl
  have cancel : ∀ refused : Prop, (¬refused → c.messageFate a message = a.cancelFate) →
      Triple (fun s => Looping c config s ∧ ¬refused) (orCancel c waits a)
        (TurnPost c config (c.messageFate a message) fun _ => False)
        (GaveUp (c.messageFate a message = .loses) answered) := by
    intro refused same s held
    rw [same held.2]
    refine (orCancel_looping waits a s held.1).weaken (fun turn t going => ?_) (fun _ _ h => h)
    obtain ⟨rfl, fate, inLoop⟩ := going
    exact ⟨fate, inLoop⟩
  cases message with
  | progressTick tick =>
    have reported := @orTerminalize_looping c config answered waits a _ _
      (@reportParentProgress_looping c config c.progress tick a.eventElapsed a.sink)
    refine Triple.bind mark fun _ => Triple.bind (reported.consequence (fun _ h => h)
      (fun _ _ h => h) (fun _ _ h => h.weaken (fun refused => ?_) id)) fun _ =>
      cancel _ fun accepted => ?_
    · simp [RequestContext.messageFate, refused]
    · simp [RequestContext.messageFate, accepted]
  | dataRow row =>
    have reported := @orTerminalize_looping c config answered waits a _ _
      (@reportParentDataRow_looping c config c.data row a.sink)
    refine Triple.bind mark fun _ => Triple.bind (reported.consequence (fun _ h => h)
      (fun _ _ h => h) (fun _ _ h => h.weaken (fun refused => ?_) id)) fun _ =>
      Triple.bind (((count_looping _ (R := GaveUp _ answered)).also _).consequence (fun _ h => h)
        (fun _ _ h => h) (fun _ _ h => h.1)) fun _ => cancel _ fun accepted => ?_
    · simp [RequestContext.messageFate, refused]
    · simp [RequestContext.messageFate, accepted]
  | diagnostic diagnostic =>
    have reported := @orTerminalize_looping c config answered waits a _ _
      (@reportParentDiagnostic_looping c config c.diagnostics diagnostic a.sink)
    refine Triple.bind mark fun _ => Triple.bind (reported.consequence (fun _ h => h)
      (fun _ _ h => h) (fun _ _ h => h.weaken (fun refused => ?_) id)) fun _ =>
      Triple.pure fun _ held => ⟨?_, held.1⟩
    · simp [RequestContext.messageFate, refused]
    · simp [RequestContext.messageFate, held.2]
  | response response => cases event
  | handshake version protocol => exact unexpected _ rfl
  | configureFrameLimit limit => exact unexpected _ rfl
  | request request => exact unexpected _ rfl
  | fatalExit body => exact unexpected _ rfl

theorem terminalize_handedBack (f : Supervisor Unit)
    (moves : Triple (fun s => s.worker.HandedBack) f (fun _ s => s.worker.HandedBack)
      (fun _ _ => False)) {R : LeanWorkerError → World → Prop} :
    Triple (fun s => s.worker.HandedBack) (f >>= fun _ => modify LeanWorker.finishInFlight)
      (fun _ s => s.worker.Ready) R :=
  Triple.bind (moves.consequence (fun _ h => h) (fun _ _ h => h) (fun _ _ h => h.elim)) fun _ =>
    Triple.update fun _ handed => handed.finished

theorem count_handedBack (f : LeanWorkerStats → LeanWorkerStats)
    {R : LeanWorkerError → World → Prop} :
    Triple (fun s => s.worker.HandedBack) (count f) (fun _ s => s.worker.HandedBack) R :=
  Triple.update fun _ handed => handed.counted f

theorem recordStreamFailure_handedBack (elapsed : Duration) (waits : Nat)
    {R : LeanWorkerError → World → Prop} :
    Triple (fun s => s.worker.HandedBack) (recordStreamFailure c elapsed waits)
      (fun _ s => s.worker.HandedBack) R :=
  .choose (fun _ => count_handedBack _) fun _ => Triple.pure fun _ handed => handed

theorem handleTerminal_looping (waits : Nat) (a : TurnAnswers) (message : Message) (lossy : Prop)
    (terminal : answered) :
    Triple (Looping c config) (handleTerminal c waits a message)
      (fun turn s => (∃ response, turn = .complete response ∧ message = .response response) ∧
        s.worker.Ready)
      (GaveUp lossy answered) := by
  have failed : ∀ error : LeanWorkerError, error.saysNotRunning = false →
      Triple (fun s => s.worker.HandedBack)
      (terminalizeRequestFailure c a.streamElapsed waits >>= fun _ => raise error)
      (fun turn s => (∃ response, turn = Turn.complete response ∧ message = .response response) ∧
        s.worker.Ready)
      (GaveUp lossy answered) := fun error running =>
    Triple.bind (terminalize_handedBack _ (recordStreamFailure_handedBack _ _)) fun _ =>
      Triple.raise fun _ ready => ⟨.ready ready, running, fun _ => .inl terminal⟩
  have completes : ∀ response : Response, message = .response response →
      Triple (fun s => s.worker.HandedBack)
      (terminalizeRequestResponse c response a.streamElapsed waits >>= fun _ =>
        pure (Turn.complete response))
      (fun turn s => (∃ response, turn = Turn.complete response ∧ message = .response response) ∧
        s.worker.Ready)
      (GaveUp lossy answered) := fun response same =>
    Triple.bind (terminalize_handedBack _
      (.choose (fun _ => count_handedBack _) fun _ => recordStreamFailure_handedBack _ _)) fun _ =>
      Triple.pure fun _ ready => ⟨⟨response, rfl, same⟩, ready⟩
  refine Triple.bind (M := fun _ s => s.worker.HandedBack)
    (Triple.update fun _ inLoop => inLoop.handedBack) fun _ => ?_
  cases message with
  | response response =>
    cases response with
    | error code text => exact failed _ rfl
    | _ => exact completes _ rfl
  | _ => exact failed _ rfl

theorem recordExitError_looping (answer : WaitAnswer) (lossy : Prop) (Q : Turn → World → Prop) :
    Triple (fun s => s.worker.Owned) (recordExitError answer) Q (GaveUp lossy answered) := by
  intro s owned
  obtain ⟨pid, present⟩ := Option.isSome_iff_exists.mp owned.child
  cases answer with
  | never => simp [recordExitError, waitForExit, present]
  | failed source =>
    simp only [recordExitError, waitForExit, present, bind_apply, modify_apply, worker_apply,
      emit_apply, raise_apply, Outcome.andThen_returned, Outcome.andThen_raised]
    exact .ofStopping ⟨⟨rfl, owned.lastExit, owned.stdin⟩, rfl⟩ rfl
  | exited exitStatus stderr =>
    simp only [recordExitError, waitForExit, finalizeChildExit, present, bind_apply, modify_apply,
      worker_apply, emit_apply, raise_apply, pure_apply, Outcome.andThen_returned]
    exact .ofGone (LeanWorker.gone_reaped _ _ _ _) (by simp)

def ReaderFrame.Answers (frame : ReaderFrame) (response : Response) : Prop :=
  frame = .frame (.response response)

/-- The reader stamps its events with the request that started it, so the two staleness checks
never find anything. -/
theorem handleEvent_fresh (waits : Nat) (a : TurnAnswers) (backpressureWaits : Nat)
    (frame : ReaderFrame) (s : World) (inLoop : s.worker.InLoop c config) :
    handleEvent c waits a (readerEvent c.generation (some c.requestId) backpressureWaits frame) s =
      (count (fun stats => stats.backpressured backpressureWaits) >>= fun _ =>
        match frame with
        | .frame message =>
          if message.isTerminal then
            handleTerminal c (saturatingAdd waits backpressureWaits) a message
          else handleMessage c (saturatingAdd waits backpressureWaits) a message
        | .failed text eof => do
          terminalizeRequestFailure c a.streamElapsed (saturatingAdd waits backpressureWaits)
          if eof then recordExitError a.wait else raise (.protocol (.frame text))) s := by
  have current : s.worker.state.currentRequestId = some c.requestId := by
    obtain ⟨r, id, state | state⟩ := inLoop.request <;>
      simp [state, WorkerSupervisorState.currentRequestId, id]
  cases frame with
  | failed text eof =>
    simp [handleEvent, readerEvent, RequestReaderEvent.generation, RequestReaderEvent.requestId,
      RequestReaderEvent.backpressureWaits, inLoop.generation, current]
  | frame message =>
    by_cases terminal : message.isTerminal
    · simp [handleEvent, readerEvent, terminal, RequestReaderEvent.generation,
        RequestReaderEvent.requestId, RequestReaderEvent.backpressureWaits, inLoop.generation,
        current]
    · simp [handleEvent, readerEvent, terminal, RequestReaderEvent.generation,
        RequestReaderEvent.requestId, RequestReaderEvent.backpressureWaits, inLoop.generation,
        current]

theorem handleEvent_looping (waits : Nat) (a : TurnAnswers) (backpressureWaits : Nat)
    (frame : ReaderFrame) :
    Triple (Looping c config)
      (handleEvent c waits a (readerEvent c.generation (some c.requestId) backpressureWaits frame))
      (TurnPost c config (c.frameFate a frame) frame.Answers)
      (GaveUp (c.frameFate a frame = .loses) (∃ response, frame.Answers response)) := by
  intro s inLoop
  rw [handleEvent_fresh waits a backpressureWaits frame s inLoop]
  revert s
  refine Triple.bind (count_looping _) fun _ => ?_
  cases frame with
  | failed text eof =>
    refine Triple.bind (terminalizeRequestFailure_looping _ _) fun _ => ?_
    cases eof with
    | true =>
      exact (recordExitError_looping a.wait _ _).consequence (fun _ lost => lost.toOwned)
        (fun _ _ h => h) (fun _ _ h => h)
    | false => exact Triple.raise fun _ lost => .ofLost rfl lost rfl
  | frame message =>
    by_cases terminal : message.isTerminal
    · have answers : ∃ response, (ReaderFrame.frame message).Answers response := by
        cases message with
        | response response => exact ⟨response, rfl⟩
        | _ => cases terminal
      simp only [terminal, if_true]
      refine (handleTerminal_looping _ a message _ answers).consequence (fun _ h => h)
        (fun turn s held => ?_) (fun _ _ h => h)
      obtain ⟨⟨response, rfl, rfl⟩, ready⟩ := held
      exact ⟨rfl, ready⟩
    · simp only [terminal, Bool.false_eq_true, if_false]
      refine (handleMessage_looping _ a message (by simpa using terminal)).consequence
        (fun _ h => h) (fun turn s held => ?_) (fun _ _ h => h)
      cases turn with
      | again waits => exact held
      | complete response => exact held.1.elim

theorem hardRssLimitExceeded_looping (sample : Option Nat) {R : LeanWorkerError → World → Prop} :
    Triple (Looping c config) (hardRssLimitExceeded sample)
      (fun exceeded s => Looping c config s ∧
        exceeded.isSome = RequestContext.turnFate.hardLimitHit config sample) R := by
  intro s inLoop
  simp only [hardRssLimitExceeded, bind_apply, worker_apply, Outcome.andThen_returned,
    inLoop.config]
  cases limit : config.rssHardLimitKib with
  | none => exact ⟨inLoop, by simp [RequestContext.turnFate.hardLimitHit, limit]⟩
  | some limitKib =>
    simp only [bind_apply, count_apply, Outcome.andThen_returned, pure_apply]
    refine ⟨inLoop.counted fun stats => stats.rssSampled _, ?_⟩
    simp only [LeanWorker.childRssKib, inLoop.child, if_true]
    cases sample with
    | none => simp [RequestContext.turnFate.hardLimitHit]
    | some currentKib =>
      by_cases exceeded : limitKib ≤ currentKib <;>
        simp [RequestContext.turnFate.hardLimitHit, limit, exceeded]

theorem receiveEvent_looping (a : TurnAnswers) {R : LeanWorkerError → World → Prop} :
    Triple (Looping c config) (receiveEvent c a)
      (fun reception s => Looping c config s ∧
        match reception with
        | .event event => ∃ frame waits, a.received = .event frame waits ∧
            c.remaining a.now ≠ some 0 ∧
            event = readerEvent c.generation (some c.requestId) waits frame
        | .sampleAgain => c.remaining a.now ≠ some 0 ∧ c.receivedFate config a = .again
        | .timedOut => c.remaining a.now = some 0 ∨
            (c.remaining a.now ≠ some 0 ∧ c.receivedFate config a = a.replaceFate)
        | .disconnected => c.remaining a.now ≠ some 0 ∧ c.receivedFate config a = .loses) R := by
  intro s inLoop
  simp only [receiveEvent, bind_apply, worker_apply, Outcome.andThen_returned, inLoop.config]
  cases left : c.remaining a.now with
  | none =>
    simp only [bind_apply, emit_apply, Outcome.andThen_returned]
    cases received : a.received with
    | event frame waits => exact ⟨inLoop, frame, waits, rfl, by simp, rfl⟩
    | nothing => trivial
    | disconnected => exact ⟨inLoop, by simp, by simp [RequestContext.receivedFate, received]⟩
  | some remaining =>
    cases remaining with
    | zero => exact ⟨inLoop, .inl rfl⟩
    | succ n =>
      simp only [bind_apply, emit_apply, Outcome.andThen_returned]
      cases received : a.received with
      | event frame waits => exact ⟨inLoop, frame, waits, rfl, by simp, rfl⟩
      | disconnected => exact ⟨inLoop, by simp, by simp [RequestContext.receivedFate, received]⟩
      | nothing =>
        cases watch : config.rssHardLimitKib with
        | none =>
          exact ⟨inLoop, .inr ⟨by simp,
            by simp [RequestContext.receivedFate, received, left, watch]⟩⟩
        | some limit =>
          by_cases sooner : config.rssSampleInterval < n + 1
          · have waits : min (n + 1) config.rssSampleInterval < n + 1 :=
              Nat.lt_of_le_of_lt (Nat.min_le_right _ _) sooner
            simp [watch, sooner, waits, RequestContext.receivedFate, received, left, inLoop]
          · have waits : ¬min (n + 1) config.rssSampleInterval < n + 1 :=
              Nat.not_lt.mpr (Nat.le_min.mpr ⟨Nat.le_refl _, Nat.not_lt.mp sooner⟩)
            simp [watch, sooner, waits, RequestContext.receivedFate, received, left, inLoop]

/-- The turn receives the terminal response of its request. -/
def TurnAnswers.Answers (a : TurnAnswers) (response : Response) : Prop :=
  ∃ waits, a.received = .event (.frame (.response response)) waits

theorem handleReception_looping (waits : Nat) (a : TurnAnswers) (reception : Reception)
    (fate : TurnFate)
    (agrees : match reception with
      | .event event => ∃ frame backpressure, fate = c.frameFate a frame ∧
          a.received = .event frame backpressure ∧
          event = readerEvent c.generation (some c.requestId) backpressure frame
      | .sampleAgain => fate = .again
      | .timedOut => fate = a.replaceFate
      | .disconnected => fate = .loses) :
    Triple (Looping c config) (handleReception c waits a reception)
      (TurnPost c config fate a.Answers)
      (GaveUp (fate = .loses) (∃ response, a.Answers response)) := by
  cases reception with
  | event event =>
    obtain ⟨frame, backpressure, rfl, received, rfl⟩ := agrees
    have answers : ∀ response, frame.Answers response → a.Answers response :=
      fun response same => ⟨backpressure, same ▸ received⟩
    refine (handleEvent_looping waits a backpressure frame).consequence (fun _ h => h)
      (fun turn s held => ?_) (fun _ _ h => h.weaken id fun ⟨response, same⟩ =>
        ⟨response, answers response same⟩)
    cases turn with
    | again waits => exact held
    | complete response => exact ⟨answers response held.1, held.2⟩
  | sampleAgain => exact Triple.pure fun _ inLoop => ⟨agrees, inLoop⟩
  | timedOut =>
    rw [agrees]
    exact replaceAndFail_looping waits a _ rfl _ (fun _ => rfl) _
  | disconnected =>
    exact Triple.bind (M := fun _ s => s.worker.Lost)
      (Triple.update fun _ inLoop => inLoop.finished) fun _ =>
      Triple.raise fun _ lost => .ofLost agrees lost rfl

theorem readTurn_looping (waits : Nat) (a : TurnAnswers) :
    Triple (Looping c config) (readTurn c waits a)
      (TurnPost c config (c.turnFate config a) a.Answers)
      (GaveUp (c.turnFate config a = .loses) (∃ response, a.Answers response)) := by
  refine Triple.bind (hardRssLimitExceeded_looping a.rss) fun exceeded => ?_
  cases exceeded with
  | some sample =>
    intro s held
    have fate : c.turnFate config a = a.replaceFate := by
      simp [RequestContext.turnFate, ← held.2]
    rw [fate]
    exact hardLimitExit_looping waits a _ _ _ s held.1
  | none =>
    refine Triple.bind (M := fun reception s => Looping c config s ∧
      match reception with
      | .event event => ∃ frame backpressure, c.turnFate config a = c.frameFate a frame ∧
          a.received = .event frame backpressure ∧
          event = readerEvent c.generation (some c.requestId) backpressure frame
      | .sampleAgain => c.turnFate config a = .again
      | .timedOut => c.turnFate config a = a.replaceFate
      | .disconnected => c.turnFate config a = .loses) ?_ fun reception s held =>
        handleReception_looping waits a reception _ held.2 s held.1
    intro s held
    have below : RequestContext.turnFate.hardLimitHit config a.rss = false := held.2.symm
    refine (receiveEvent_looping (R := GaveUp (c.turnFate config a = .loses) _) a s
      held.1).weaken (fun reception t got => ⟨got.1, ?_⟩) (fun _ _ h => h)
    have got := got.2
    cases reception with
    | event event =>
      obtain ⟨frame, backpressure, received, left, same⟩ := got
      exact ⟨frame, backpressure,
        by simp [RequestContext.turnFate, below, left, RequestContext.receivedFate, received],
        received, same⟩
    | sampleAgain => simp [RequestContext.turnFate, below, got.1, got.2]
    | disconnected => simp [RequestContext.turnFate, below, got.1, got.2]
    | timedOut =>
      rcases got with reached | ⟨left, fate⟩
      · simp [RequestContext.turnFate, below, reached]
      · simp [RequestContext.turnFate, below, left, fate]

theorem readLoop_looping (waits : Nat) (turns : List TurnAnswers) :
    Triple (Looping c config) (readLoop c waits turns) (fun _ s => s.worker.Ready)
      (GaveUp (c.loopLoses config turns = true) (∃ a ∈ turns, ∃ response, a.Answers response)) := by
  induction turns generalizing waits with
  | nil => exact Triple.wait
  | cons a rest ih =>
    intro s inLoop
    have turn := @readTurn_looping c config waits a s inLoop
    simp only [readLoop, bind_apply]
    cases outcome : readTurn c waits a s with
    | waiting t => trivial
    | raised err t =>
      rw [outcome] at turn
      exact GaveUp.weaken turn (fun loses => by simp [RequestContext.loopLoses, loses])
        fun answers => ⟨a, List.mem_cons_self, answers⟩
    | returned result t =>
      rw [outcome] at turn
      cases result with
      | complete response => exact turn.2
      | again waits' =>
        obtain ⟨fate, inLoop'⟩ := turn
        refine (ih waits' t inLoop').weaken (fun _ _ h => h) (fun _ _ h => h.weaken
          (fun loses => ?_) fun ⟨later, member, answers⟩ => ⟨later, .tail _ member, answers⟩)
        simp [RequestContext.loopLoses, fate, loses]

end LeanRs
