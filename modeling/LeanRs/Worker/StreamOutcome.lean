import LeanRs.Worker.StreamCounts

/-! What the read of an answer records about the stream it belongs to: one end, unless the
reader thread is found gone. -/
namespace LeanRs

open Procedures Procedure Supervisor

def StreamCounts.Records (k : StreamCounts) (streaming : Bool) (k' : StreamCounts) : Prop :=
  if streaming then k.Settles k' else k' = k

namespace RequestContext

/-- The turn finds the channel of its reader disconnected, before anything else ends it. -/
def turnDisconnects (c : RequestContext) (config : LeanWorkerConfig) (a : TurnAnswers) : Bool :=
  !turnFate.hardLimitHit config a.rss && decide (c.remaining a.now ≠ some 0) &&
    decide (a.received = .disconnected)

def loopDisconnects (c : RequestContext) (config : LeanWorkerConfig) : List TurnAnswers → Bool
  | [] => false
  | a :: rest =>
    match c.turnFate config a with
    | .again => loopDisconnects c config rest
    | _ => c.turnDisconnects config a

def Counted (c : RequestContext) (k : StreamCounts) (disconnected : Bool) (s : World) : Prop :=
  if disconnected then s.streams = k else k.Records c.streaming s.streams

end RequestContext

variable {c : RequestContext} {config : LeanWorkerConfig} {k : StreamCounts}

theorem RequestContext.counted_of_records {disconnected : Bool} {s : World}
    (connected : disconnected = false) (records : k.Records c.streaming s.streams) :
    c.Counted k disconnected s := by
  unfold Counted
  simpa [connected] using records

theorem recordStreamFailure_records (elapsed : Duration) (waits : Nat)
    {R : LeanWorkerError → World → Prop} :
    Triple (fun s => s.streams = k) (recordStreamFailure c elapsed waits)
      (fun _ s => k.Records c.streaming s.streams) R := by
  refine .choose (fun streaming => Triple.update fun s same => ?_) fun quiet =>
    Triple.pure fun s same => ?_
  · rw [StreamCounts.Records, if_pos streaming, ← same]
    exact .failed
  · rwa [StreamCounts.Records, if_neg quiet]

theorem terminalizeRequestFailure_records (elapsed : Duration) (waits : Nat) :
    Triple (fun s => s.streams = k) (terminalizeRequestFailure c elapsed waits)
      (fun _ s => k.Records c.streaming s.streams)
      (fun _ s => k.Records c.streaming s.streams) :=
  Triple.bind (recordStreamFailure_records elapsed waits) fun _ =>
    finish_streams.keeps (k.Records c.streaming)

theorem terminalizeRequestResponse_records (response : Response) (elapsed : Duration)
    (waits : Nat) :
    Triple (fun s => s.streams = k) (terminalizeRequestResponse c response elapsed waits)
      (fun _ s => k.Records c.streaming s.streams)
      (fun _ s => k.Records c.streaming s.streams) := by
  refine Triple.bind (.choose (fun ended => Triple.update fun s same => ?_) fun _ =>
    recordStreamFailure_records elapsed waits) fun _ => finish_streams.keeps (k.Records c.streaming)
  have streaming : c.streaming = true := by
    simp only [Bool.and_eq_true] at ended
    exact ended.1
  rw [StreamCounts.Records, if_pos streaming, ← same]
  exact .succeeded

theorem replaceAndFail_records (waits : Nat) (a : TurnAnswers) (reason : LeanWorkerRestartReason)
    (error : LeanWorkerStats → LeanWorkerError) (Q : Turn → World → Prop) :
    Triple (fun s => s.streams = k) (replaceAndFail c waits a reason error) Q
      (fun _ s => k.Records c.streaming s.streams) := by
  refine Triple.bind (recordStreamFailure_records a.streamElapsed waits) fun _ =>
    Triple.bind ((restartWithReason_streams reason a.restart).capture.keeps
      (k.Records c.streaming)) fun replaced => ?_
  cases replaced with
  | error err =>
    exact Triple.bind (finish_streams.keeps (k.Records c.streaming)) fun _ =>
      Triple.raise fun _ records => records
  | ok _ =>
    exact Triple.bind (finish_streams.keeps (k.Records c.streaming)) fun _ =>
      Triple.bind (worker_streams.keeps (k.Records c.streaming)) fun _ =>
      Triple.raise fun _ records => records

theorem hardLimitExit_records (waits : Nat) (a : TurnAnswers) (currentKib limitKib : Nat)
    (Q : Turn → World → Prop) :
    Triple (fun s => s.streams = k) (hardLimitExit c waits a currentKib limitKib) Q
      (fun _ s => k.Records c.streaming s.streams) :=
  Triple.bind worker_keeps fun _ => (replaceAndFail_records waits a _ _ Q).consequence
    (fun _ held => held.2) (fun _ _ h => h) (fun _ _ h => h)

abbrev TurnCounts (c : RequestContext) (k : StreamCounts) (turn : Turn) (s : World) : Prop :=
  match turn with
  | .again _ => s.streams = k
  | .complete _ => k.Records c.streaming s.streams

theorem orTerminalize_records (waits : Nat) (a : TurnAnswers) {report : Supervisor Unit}
    (reports : Fixes World.streams report) :
    Triple (fun s => s.streams = k) (orTerminalize c waits a report) (fun _ s => s.streams = k)
      (fun _ s => k.Records c.streaming s.streams) := by
  refine Triple.bind (M := fun _ s => s.streams = k) (Triple.capture (reports k))
    fun reported => ?_
  cases reported with
  | ok _ => exact Triple.pure fun _ same => same
  | error err =>
    exact Triple.bind (terminalizeRequestFailure_records a.streamElapsed waits) fun _ =>
      Triple.raise fun _ records => records

theorem orCancel_records (waits : Nat) (a : TurnAnswers) :
    Triple (fun s => s.streams = k) (orCancel c waits a) (TurnCounts c k)
      (fun _ s => k.Records c.streaming s.streams) :=
  .choose (fun _ => replaceAndFail_records waits a _ _ _) fun _ => Triple.pure fun _ same => same

theorem handleMessage_records (waits : Nat) (a : TurnAnswers) (message : Message) :
    Triple (fun s => s.streams = k) (handleMessage c waits a message) (TurnCounts c k)
      (fun _ s => k.Records c.streaming s.streams) := by
  have marked : Triple (fun s => s.streams = k) (modify LeanWorker.markCurrentRequestStreaming)
      (fun _ s => s.streams = k) (fun _ s => k.Records c.streaming s.streams) :=
    Triple.update fun s same => ((mark_streams s.streams s rfl).trans same)
  have unexpected : ∀ e : LeanWorkerError, Triple (fun s => s.streams = k)
      (terminalizeRequestFailure c a.streamElapsed waits >>= fun _ => raise e) (TurnCounts c k)
      (fun _ s => k.Records c.streaming s.streams) := fun e =>
    Triple.bind (terminalizeRequestFailure_records _ _) fun _ =>
      Triple.raise fun _ records => records
  cases message with
  | progressTick tick =>
    exact Triple.bind marked fun _ =>
      Triple.bind (orTerminalize_records waits a (reportParentProgress_streams _ tick _ a.sink))
      fun _ => orCancel_records waits a
  | dataRow row =>
    refine Triple.bind marked fun _ =>
      Triple.bind (orTerminalize_records waits a (reportParentDataRow_streams _ row a.sink))
      fun _ => Triple.bind (M := fun _ s => s.streams = k) (Triple.update fun _ same => same)
      fun _ => orCancel_records waits a
  | diagnostic diagnostic =>
    exact Triple.bind marked fun _ =>
      Triple.bind (orTerminalize_records waits a
        (reportParentDiagnostic_streams _ diagnostic a.sink)) fun _ =>
      Triple.pure fun _ same => same
  | response response => exact unexpected _
  | handshake version protocol => exact unexpected _
  | configureFrameLimit limit => exact unexpected _
  | request request => exact unexpected _
  | fatalExit body => exact unexpected _

theorem handleTerminal_records (waits : Nat) (a : TurnAnswers) (message : Message) :
    Triple (fun s => s.streams = k) (handleTerminal c waits a message) (TurnCounts c k)
      (fun _ s => k.Records c.streaming s.streams) := by
  have failed : ∀ e : LeanWorkerError, Triple (fun s => s.streams = k)
      (terminalizeRequestFailure c a.streamElapsed waits >>= fun _ => raise e) (TurnCounts c k)
      (fun _ s => k.Records c.streaming s.streams) := fun e =>
    Triple.bind (terminalizeRequestFailure_records _ _) fun _ =>
      Triple.raise fun _ records => records
  have completes : ∀ response : Response, Triple (fun s => s.streams = k)
      (terminalizeRequestResponse c response a.streamElapsed waits >>= fun _ =>
        pure (Turn.complete response)) (TurnCounts c k)
      (fun _ s => k.Records c.streaming s.streams) := fun response =>
    Triple.bind (terminalizeRequestResponse_records response _ _) fun _ =>
      Triple.pure fun _ records => records
  refine Triple.bind (M := fun _ s => s.streams = k) (Triple.update fun _ same => same) fun _ => ?_
  cases message with
  | response response =>
    cases response with
    | error code text => exact failed _
    | _ => exact completes _
  | _ => exact failed _

theorem handleFrame_records (waits : Nat) (a : TurnAnswers) (frame : ReaderFrame) :
    Triple (fun s => s.streams = k)
      (match frame with
        | .frame message =>
          if message.isTerminal then handleTerminal c waits a message
          else handleMessage c waits a message
        | .failed text eof => do
          terminalizeRequestFailure c a.streamElapsed waits
          if eof then recordExitError a.wait else raise (.protocol (.frame text)))
      (TurnCounts c k) (fun _ s => k.Records c.streaming s.streams) := by
  cases frame with
  | frame message =>
    exact .choose (fun _ => handleTerminal_records waits a message) fun _ =>
      handleMessage_records waits a message
  | failed text eof =>
    refine Triple.bind (terminalizeRequestFailure_records _ _) fun _ => .choose (fun _ => ?_)
      fun _ => Triple.raise fun _ records => records
    exact Triple.bind (M := fun _ s => k.Records c.streaming s.streams)
      (Triple.update fun _ same => same) fun _ => Triple.bind
      ((stop_streams (waitForExit_frame a.wait)).keeps (k.Records c.streaming)) fun _ =>
      Triple.raise fun _ records => records

theorem handleEvent_records (waits : Nat) (a : TurnAnswers) (backpressureWaits : Nat)
    (frame : ReaderFrame) :
    Triple (fun s => Looping c config s ∧ s.streams = k)
      (handleEvent c waits a (readerEvent c.generation (some c.requestId) backpressureWaits frame))
      (TurnCounts c k) (fun _ s => k.Records c.streaming s.streams) := by
  intro s held
  rw [handleEvent_fresh waits a backpressureWaits frame s held.1]
  exact Triple.bind (P := fun s => s.streams = k) (M := fun _ s => s.streams = k)
    (Triple.update fun _ same => same) (fun _ => handleFrame_records _ a frame) s held.2

theorem receiveEvent_records (a : TurnAnswers) {R : LeanWorkerError → World → Prop} :
    Triple (fun s => Looping c config s ∧ s.streams = k) (receiveEvent c a)
      (fun reception s => (Looping c config s ∧ s.streams = k) ∧
        (∀ event, reception = .event event → ∃ frame waits,
          event = readerEvent c.generation (some c.requestId) waits frame) ∧
        (reception = .disconnected ↔
          c.remaining a.now ≠ some 0 ∧ a.received = .disconnected)) R := by
  rintro s ⟨inLoop, same⟩
  simp only [receiveEvent, bind_apply, worker_apply, Outcome.andThen_returned]
  cases left : c.remaining a.now with
  | none =>
    simp only [bind_apply, emit_apply, Outcome.andThen_returned]
    cases received : a.received with
    | event frame waits =>
      exact ⟨⟨inLoop, same⟩,
        fun event own => ⟨frame, waits, (Reception.event.inj own).symm⟩, by simp⟩
    | nothing => trivial
    | disconnected => exact ⟨⟨inLoop, same⟩, by simp, by simp⟩
  | some remaining =>
    cases remaining with
    | zero => exact ⟨⟨inLoop, same⟩, by simp, by simp⟩
    | succ n =>
      simp only [bind_apply, emit_apply, Outcome.andThen_returned]
      cases received : a.received with
      | event frame waits =>
        exact ⟨⟨inLoop, same⟩, fun event own => ⟨frame, waits, (Reception.event.inj own).symm⟩,
          by simp⟩
      | disconnected => exact ⟨⟨inLoop, same⟩, by simp, by simp⟩
      | nothing =>
        -- a receive that runs out of time either samples again or times out
        refine ⟨⟨inLoop, same⟩, ?_, ?_⟩
        · split <;> split <;> simp
        · split <;> split <;> simp

abbrev TurnEnds (c : RequestContext) (k : StreamCounts) (disconnected : Bool) (turn : Turn)
    (s : World) : Prop :=
  match turn with
  | .again _ => s.streams = k
  | .complete _ => c.Counted k disconnected s

theorem handleReception_records (waits : Nat) (a : TurnAnswers) (reception : Reception)
    (own : ∀ event, reception = .event event → ∃ frame waits,
      event = readerEvent c.generation (some c.requestId) waits frame) :
    Triple (fun s => Looping c config s ∧ s.streams = k) (handleReception c waits a reception)
      (TurnEnds c k (decide (reception = .disconnected)))
      (fun _ s => c.Counted k (decide (reception = .disconnected)) s) := by
  cases reception with
  | event event =>
    obtain ⟨frame, backpressure, rfl⟩ := own event rfl
    refine (handleEvent_records waits a backpressure frame).consequence (fun _ h => h)
      (fun turn s counts => ?_) fun _ _ records => RequestContext.counted_of_records rfl records
    cases turn with
    | again waits => exact counts
    | complete response => exact RequestContext.counted_of_records rfl counts
  | sampleAgain => exact Triple.pure fun _ held => held.2
  | timedOut =>
    exact (replaceAndFail_records waits a _ _ _).consequence (fun _ held => held.2)
      (fun _ _ h => h) fun _ _ records => RequestContext.counted_of_records rfl records
  | disconnected =>
    exact Triple.bind (M := fun _ s => s.streams = k)
      (Triple.update fun s held => (finish_streams s.streams s rfl).trans held.2) fun _ =>
      Triple.raise fun _ same => by simpa [RequestContext.Counted] using same

theorem readTurn_records (waits : Nat) (a : TurnAnswers) :
    Triple (fun s => Looping c config s ∧ s.streams = k) (readTurn c waits a)
      (TurnEnds c k (c.turnDisconnects config a))
      (fun _ s => c.Counted k (c.turnDisconnects config a) s) := by
  have sampled : Triple (fun s => Looping c config s ∧ s.streams = k)
      (hardRssLimitExceeded a.rss) (fun exceeded s => (Looping c config s ∧ exceeded.isSome =
        RequestContext.turnFate.hardLimitHit config a.rss) ∧ s.streams = k)
      (fun _ s => c.Counted k (c.turnDisconnects config a) s) :=
    ((((hardRssLimitExceeded_looping a.rss (R := fun _ _ => False))).consequence
      (fun _ held => held.1) (fun _ _ h => h) (fun _ _ h => h)).both
      ((hardRssLimitExceeded_streams a.rss k).consequence (fun _ held => held.2) (fun _ _ h => h)
        (fun _ _ h => h))).consequence (fun _ h => h) (fun _ _ h => h) (fun _ _ h => h.1.elim)
  refine Triple.bind sampled fun exceeded => ?_
  cases exceeded with
  | some pair =>
    intro s held
    have connected : c.turnDisconnects config a = false := by
      simp [RequestContext.turnDisconnects, ← held.1.2]
    exact (hardLimitExit_records waits a pair.1 pair.2 (fun _ _ => False) s held.2).weaken
      (fun _ _ h => h.elim) fun _ _ records => RequestContext.counted_of_records connected records
  | none =>
    refine Triple.bind (P := fun s => (Looping c config s ∧ _) ∧ s.streams = k)
      (M := fun reception s => (Looping c config s ∧ s.streams = k) ∧
        (∀ event, reception = .event event → ∃ frame waits,
          event = readerEvent c.generation (some c.requestId) waits frame) ∧
        decide (reception = .disconnected) = c.turnDisconnects config a) ?_
      fun reception s held => ?_
    · intro s held
      have below : RequestContext.turnFate.hardLimitHit config a.rss = false := held.1.2.symm
      refine (receiveEvent_records (R := fun _ s => c.Counted k _ s) a s
        ⟨held.1.1, held.2⟩).weaken (fun reception t got => ⟨got.1, got.2.1, ?_⟩) fun _ _ h => h
      simp [RequestContext.turnDisconnects, below, got.2.2]
    · rw [← held.2.2]
      exact handleReception_records waits a reception held.2.1 s held.1

theorem readLoop_records (waits : Nat) (turns : List TurnAnswers) :
    Triple (fun s => Looping c config s ∧ s.streams = k) (readLoop c waits turns)
      (fun _ s => c.Counted k (c.loopDisconnects config turns) s)
      (fun _ s => c.Counted k (c.loopDisconnects config turns) s) := by
  induction turns generalizing waits with
  | nil => exact Triple.wait
  | cons a rest ih =>
    intro s held
    have turn := @readTurn_looping c config waits a s held.1
    have counts := readTurn_records waits a s held
    -- a turn that is not gone on with is one whose fate is not to go on
    have final : (∀ waits' t, readTurn c waits a s ≠ .returned (.again waits') t) →
        c.loopDisconnects config (a :: rest) = c.turnDisconnects config a := by
      intro ended
      cases fate : c.turnFate config a with
      | again =>
        obtain ⟨waits', t, goesOn, _⟩ := @readTurn_again c config waits a fate s held.1
        exact absurd goesOn (ended waits' t)
      | _ => simp [RequestContext.loopDisconnects, fate]
    simp only [readLoop, bind_apply]
    cases outcome : readTurn c waits a s with
    | waiting t => trivial
    | raised err t =>
      rw [outcome] at counts
      rw [final (fun _ _ same => by rw [outcome] at same; cases same)]
      exact counts
    | returned result t =>
      rw [outcome] at turn counts
      cases result with
      | complete response =>
        rw [final (fun _ _ same => by rw [outcome] at same; cases same)]
        exact counts
      | again waits' =>
        obtain ⟨fate, inLoop⟩ := turn
        have goesOn : c.loopDisconnects config (a :: rest) = c.loopDisconnects config rest := by
          simp [RequestContext.loopDisconnects, fate]
        rw [goesOn]
        exact ih waits' t ⟨inLoop, counts⟩

end LeanRs
