import LeanRs.Worker.Operations

/-! What the whole path of a request does to a relation between worlds, once it is known what
its few kinds of step do to it. -/
namespace LeanRs

open Procedures Procedure Supervisor

/-- The worker without what a request keeps of itself: its phase, its number and who holds the
output pipe. -/
def LeanWorker.standing (w : LeanWorker) : LeanWorker :=
  { w with state := .idle 0, stdout := false, nextRequestId := 0 }

theorem LeanWorker.finishInFlight_standing (w : LeanWorker) :
    w.finishInFlight.standing = w.standing := by
  unfold finishInFlight
  split <;> rfl

theorem LeanWorker.mark_standing (w : LeanWorker) :
    w.markCurrentRequestStreaming.standing = w.standing := by
  unfold markCurrentRequestStreaming
  split <;> rfl

theorem LeanWorkerStats.admitted_restarts (importLike : Bool) (stats : LeanWorkerStats) :
    (stats.admitted importLike).restarts = stats.restarts := by
  cases importLike <;> rfl

theorem LeanWorkerStats.rssSampled_restarts (sample : Option Nat) (stats : LeanWorkerStats) :
    (stats.rssSampled sample).restarts = stats.restarts := by
  cases sample <;> rfl

/-- The effects of a request that neither reach a sink nor write to the child. -/
def Effect.silent : Effect → Bool
  | .receive _ | .wait => true
  | _ => false

class Tracked (rel : World → World → Prop) : Prop extends Std.Refl rel, IsTrans World rel where
  /-- Nothing but a restart counts a restart. -/
  count : ∀ f : LeanWorkerStats → LeanWorkerStats, (∀ stats, (f stats).restarts = stats.restarts) →
    Moves rel (count f)
  emit : ∀ e : Effect, e.silent = true → Moves rel (emit e)
  track : ∀ f : LeanWorker → LeanWorker, (∀ w, (f w).standing = w.standing) →
    Moves rel (modify f)

/-- A relation that the steps of a request go along, but for its writes and its deliveries. -/
class FramedSilently (rel : World → World → Prop) : Prop extends Tracked rel where
  stop : ∀ {A : Type} {m : Supervisor A}, Moves StopFrame m → Moves rel m
  restart : ∀ reason a, Moves rel (restartWithReason reason a)

/-- A relation that every kind of step of a request goes along. -/
class Framed (rel : World → World → Prop) : Prop extends FramedSilently rel where
  send : ∀ request answer, Moves rel (Supervisor.emit (.write request answer))
  deliver : ∀ event, Moves rel (Supervisor.emit (.deliver event))

variable {rel : World → World → Prop}

section

variable [Tracked rel]

theorem worker_moves : Moves rel worker := fun s => Std.Refl.refl s

theorem rssCeilingReached_moves (sample : Option Nat) :
    Moves rel (rssCeilingReached sample) := by
  refine .bind worker_moves fun w => ?_
  split
  · exact .pure _
  · exact .bind (Tracked.count _ (LeanWorkerStats.rssSampled_restarts _)) fun _ => .pure _

theorem hardRssLimitExceeded_moves (sample : Option Nat) :
    Moves rel (hardRssLimitExceeded sample) := by
  refine .bind worker_moves fun w => ?_
  split
  · exact .pure _
  · exact .bind (Tracked.count _ (LeanWorkerStats.rssSampled_restarts _)) fun _ => .pure _

theorem finish_moves : Moves rel (modify LeanWorker.finishInFlight) :=
  Tracked.track _ LeanWorker.finishInFlight_standing

variable (c : RequestContext) (waits : Nat) (a : TurnAnswers)

theorem recordStreamFailure_moves (elapsed : Duration) :
    Moves rel (recordStreamFailure c elapsed waits) :=
  .choose (fun _ => Tracked.count _ fun _ => rfl) fun _ => .pure _

theorem terminalizeRequestFailure_moves (elapsed : Duration) :
    Moves rel (terminalizeRequestFailure c elapsed waits) :=
  .bind (recordStreamFailure_moves c waits elapsed) fun _ => finish_moves

theorem handleTerminal_moves (message : Message) :
    Moves rel (handleTerminal c waits a message) := by
  have failed : ∀ error : LeanWorkerError, Moves rel
      (terminalizeRequestFailure c a.streamElapsed waits >>= fun _ => raise (A := Turn) error) :=
    fun error => .bind (terminalizeRequestFailure_moves c waits _) fun _ => .raise _
  have answered : ∀ response : Response, Moves rel
      (terminalizeRequestResponse c response a.streamElapsed waits >>= fun _ =>
        pure (Turn.complete response)) := fun response =>
    .bind (.bind (.choose (fun _ => Tracked.count _ fun _ => rfl) fun _ =>
        recordStreamFailure_moves c waits _)
      fun _ => finish_moves) fun _ => .pure _
  refine .bind (Tracked.track _ fun _ => rfl) fun _ => ?_
  cases message with
  | response response =>
    cases response with
    | error code text => exact failed _
    | _ => exact answered _
  | _ => exact failed _

theorem receiveEvent_moves : Moves rel (receiveEvent c a) := by
  refine .bind worker_moves fun w => ?_
  split
  · exact .pure _
  · refine .bind (Tracked.emit _ rfl) fun _ => ?_
    split <;> exact .pure _
  · refine .bind (Tracked.emit _ rfl) fun _ => ?_
    split
    · exact .pure _
    · exact .wait
    · exact .pure _

end

section

variable [FramedSilently rel]

theorem ensureRunning_moves (answer : TryWait) : Moves rel (ensureRunning answer) := by
  refine .bind worker_moves fun w => .choose (fun _ => .raise _) fun _ =>
    .bind (FramedSilently.stop (status_frame answer)) fun found => ?_
  cases found
  · exact .pure _
  · exact .raise _

theorem restartAdmitting_moves (importLike : Bool) (reason : LeanWorkerRestartReason)
    (a : RestartAnswers) : Moves rel (restartAdmitting importLike reason a) :=
  .bind (FramedSilently.restart reason a) fun _ =>
    Tracked.count _ (LeanWorkerStats.admitted_restarts _)

theorem prepareRequest_moves (importLike : Bool) (a : PrepareAnswers) :
    Moves rel (prepareRequest importLike a) := by
  refine .bind (ensureRunning_moves _) fun _ => .bind (.bind worker_moves fun _ =>
    .choose (fun _ => Tracked.count _ fun _ => rfl) fun _ => .pure _) fun _ =>
    .bind worker_moves fun w => ?_
  split
  · exact restartAdmitting_moves _ _ _
  · refine .bind (rssCeilingReached_moves _) fun ceiling => ?_
    split
    · exact restartAdmitting_moves _ _ _
    · split
      · exact restartAdmitting_moves _ _ _
      · exact Tracked.count _ (LeanWorkerStats.admitted_restarts _)

variable (c : RequestContext) (waits : Nat) (a : TurnAnswers)

theorem replaceAndFail_moves (reason : LeanWorkerRestartReason)
    (error : LeanWorkerStats → LeanWorkerError) :
    Moves rel (replaceAndFail c waits a reason error) := by
  refine .bind (recordStreamFailure_moves c waits _) fun _ =>
    .bind (.capture (FramedSilently.restart reason a.restart)) fun result => ?_
  cases result with
  | error err => exact .bind finish_moves fun _ => .raise _
  | ok _ => exact .bind finish_moves fun _ => .bind worker_moves fun _ => .raise _

theorem orTerminalize_moves (report : Supervisor Unit) (reports : Moves rel report) :
    Moves rel (orTerminalize c waits a report) := by
  refine .bind (.capture reports) fun result => ?_
  cases result with
  | ok _ => exact .pure _
  | error err => exact .bind (terminalizeRequestFailure_moves c waits _) fun _ => .raise _

theorem orCancel_moves : Moves rel (orCancel c waits a) :=
  .choose (fun _ => replaceAndFail_moves c waits a _ _) fun _ => .pure _

theorem recordExitError_moves (answer : WaitAnswer) :
    Moves rel (recordExitError answer) :=
  .bind (Tracked.track _ fun _ => rfl) fun _ =>
    .bind (FramedSilently.stop (waitForExit_frame answer)) fun _ => .raise _

end

section

variable [Framed rel]

theorem writeRequest_moves (request : Request) (answer : WriteAnswer) :
    Moves rel (writeRequest request answer) := by
  refine .bind worker_moves fun w => .choose (fun _ => .bind (Framed.send _ _) fun _ => ?_)
    fun _ => .raise _
  cases answer
  · exact .pure _
  · exact .raise _
  · exact .raise _

theorem sendRequest_moves (poll : TryWait) (request : Request) (answer : WriteAnswer) :
    Moves rel (sendRequest poll request answer) :=
  .bind (ensureRunning_moves poll) fun _ => writeRequest_moves request answer

variable (c : RequestContext) (waits : Nat) (a : TurnAnswers)

theorem reportParentProgress_moves (present : Bool) (tick : ProgressTick) (elapsed : Duration)
    (sink : SinkAnswer) : Moves rel (reportParentProgress present tick elapsed sink) := by
  refine .choose (fun _ => .bind (Framed.deliver _) fun _ => ?_) fun _ => .pure _
  cases sink
  · exact .pure _
  · exact .pure _
  · exact .raise _

theorem reportParentDiagnostic_moves (present : Bool) (diagnostic : Diagnostic)
    (sink : SinkAnswer) :
    Moves rel (reportParentDiagnostic present diagnostic sink) := by
  refine .choose (fun _ => .bind (Framed.deliver _) fun _ => ?_) fun _ => .pure _
  cases sink
  · exact .pure _
  · exact .pure _
  · exact .raise _

theorem reportParentDataRow_moves (target : Option DataSinkTarget) (row : DataRow)
    (sink : SinkAnswer) : Moves rel (reportParentDataRow target row sink) := by
  unfold reportParentDataRow
  split
  · exact .raise _
  · exact .raise _
  · exact .bind (Framed.deliver _) fun _ => .raise _
  · exact Framed.deliver _

theorem handleMessage_moves (message : Message) :
    Moves rel (handleMessage c waits a message) := by
  have mark : Moves rel (modify LeanWorker.markCurrentRequestStreaming) :=
    Tracked.track _ LeanWorker.mark_standing
  have failed : ∀ error : LeanWorkerError, Moves rel
      (terminalizeRequestFailure c a.streamElapsed waits >>= fun _ => raise (A := Turn) error) :=
    fun error => .bind (terminalizeRequestFailure_moves c waits _) fun _ => .raise _
  cases message with
  | progressTick tick =>
    exact .bind mark fun _ => .bind (orTerminalize_moves c waits a _
      (reportParentProgress_moves _ _ _ _)) fun _ => orCancel_moves c waits a
  | dataRow row =>
    exact .bind mark fun _ => .bind (orTerminalize_moves c waits a _
      (reportParentDataRow_moves _ _ _)) fun _ => .bind (Tracked.count _ fun _ => rfl) fun _ =>
        orCancel_moves c waits a
  | diagnostic diagnostic =>
    exact .bind mark fun _ => .bind (orTerminalize_moves c waits a _
      (reportParentDiagnostic_moves _ _ _)) fun _ => .pure _
  | _ => exact failed _

theorem handleEvent_moves (event : RequestReaderEvent) :
    Moves rel (handleEvent c waits a event) := by
  refine .bind worker_moves fun w =>
    .choose (fun _ => .bind finish_moves fun _ => .raise _) fun _ =>
    .choose (fun _ => .bind finish_moves fun _ => .bind worker_moves fun _ => .raise _) fun _ =>
    .bind (Tracked.count _ fun _ => rfl) fun _ => ?_
  cases event with
  | message generation requestId message backpressure => exact handleMessage_moves c _ a message
  | terminal generation requestId message backpressure => exact handleTerminal_moves c _ a message
  | readError generation requestId text eof backpressure =>
    exact .bind (terminalizeRequestFailure_moves c _ _) fun _ =>
      .choose (fun _ => recordExitError_moves _) fun _ => .raise _

theorem readTurn_moves : Moves rel (readTurn c waits a) := by
  refine .bind (hardRssLimitExceeded_moves _) fun exceeded => ?_
  cases exceeded with
  | some sample =>
    exact .bind worker_moves fun _ => replaceAndFail_moves c waits a _ _
  | none =>
    refine .bind (receiveEvent_moves c a) fun reception => ?_
    cases reception with
    | event event => exact handleEvent_moves c waits a event
    | sampleAgain => exact .pure _
    | timedOut => exact replaceAndFail_moves c waits a _ _
    | disconnected => exact .bind finish_moves fun _ => .raise _

theorem readLoop_moves (turns : List TurnAnswers) : Moves rel (readLoop c waits turns) := by
  induction turns generalizing waits with
  | nil => exact .wait
  | cons a rest ih =>
    refine .bind (readTurn_moves c waits a) fun turn => ?_
    cases turn with
    | again waits => exact ih waits
    | complete response => exact .pure _

theorem readResponseWithEvents_moves (operation : String) (sinks : Sinks) (started : Instant)
    (turns : List TurnAnswers) :
    Moves rel (readResponseWithEvents operation sinks started turns) :=
  .bind worker_moves fun _ => .choose
    (fun _ => .bind (Tracked.track _ fun _ => rfl) fun _ => readLoop_moves _ 0 turns)
    fun _ => .raise _

end

/-- The history has grown, by effects that are all `p`. -/
def Appends (p : Effect → Prop) (s t : World) : Prop :=
  ∃ new, t.effects = s.effects ++ new ∧ ∀ e ∈ new, p e

section Appends

variable {p : Effect → Prop}

instance : Std.Refl (Appends p) where
  refl _ := ⟨[], by simp⟩

instance : IsTrans World (Appends p) where
  trans s t u first second := by
    obtain ⟨before, joined, held⟩ := first
    obtain ⟨after, joined', held'⟩ := second
    refine ⟨before ++ after, by rw [joined', joined, List.append_assoc], fun e member => ?_⟩
    rcases List.mem_append.mp member with h | h
    · exact held e h
    · exact held' e h

theorem appends_of_stop (stops : ∀ e : Effect, e.ofStop → p e) {A : Type} {m : Supervisor A}
    (frame : Moves StopFrame m) : Moves (Appends p) m := by
  intro s
  obtain ⟨new, joined, stop⟩ := (frame s).effects
  exact ⟨new, joined, fun e member => stops e (stop e member)⟩

theorem modify_appends (f : LeanWorker → LeanWorker) : Moves (Appends p) (modify f) :=
  fun s => ⟨[], by simp⟩

theorem worker_appends : Moves (Appends p) worker := fun _ => Std.Refl.refl _

theorem emit_appends (e : Effect) (held : p e) : Moves (Appends p) (emit e) :=
  fun _ => ⟨[e], rfl, by simpa using held⟩

theorem spawn_appends (spawns : p .spawn) (config : LeanWorkerConfig) (answer : SpawnAnswer) :
    Moves (Appends p) (spawn config answer) := by
  have waited : ∀ answer, Moves (Appends p) (waitWithStderr answer) := by
    intro answer
    cases answer
    · exact .raise _
    · exact .pure _
    · exact .wait
  refine .bind (emit_appends _ spawns) fun _ => ?_
  cases answer with
  | handshakeFailed wait => exact .bind (waited wait) fun _ => .raise _
  | startupTimeout wait => exact .bind (waited wait) fun _ => .raise _
  | ready pid stderr elapsed now => exact .pure _
  | _ => exact .raise _

theorem restartWithReason_appends (stops : ∀ e : Effect, e.ofStop → p e) (spawns : p .spawn)
    (reason : LeanWorkerRestartReason) (replaces : p (.replace reason)) (a : RestartAnswers) :
    Moves (Appends p) (restartWithReason reason a) := by
  refine .bind worker_appends fun w => .bind (emit_appends _ replaces) fun _ =>
    .bind (modify_appends _) fun _ =>
    .bind (.capture (appends_of_stop stops (shutdownChild_frame _ _))) fun stopped => ?_
  cases stopped with
  | error err => exact .bind (modify_appends _) fun _ => .raise _
  | ok report =>
    refine .bind (.capture (.bind worker_appends fun w => .choose
      (fun _ => .bind (modify_appends _) fun _ => .raise _) fun _ => modify_appends _))
      fun admitted => ?_
    cases admitted with
    | error err => exact .bind (modify_appends _) fun _ => .raise _
    | ok _ =>
      refine .bind (modify_appends _) fun _ => .bind (modify_appends _) fun _ =>
        .bind (.capture (spawn_appends spawns _ _)) fun spawned => ?_
      cases spawned with
      | error err => exact .bind (modify_appends _) fun _ => .raise _
      | ok next => exact modify_appends _

end Appends

instance : Framed (Appends fun _ => True) where
  count _ _ := modify_appends _
  emit _ _ := emit_appends _ trivial
  track _ _ := modify_appends _
  stop frame := appends_of_stop (fun _ _ => trivial) frame
  restart _ _ := restartWithReason_appends (fun _ _ => trivial) trivial _ trivial _
  send _ _ := emit_appends _ trivial
  deliver _ := emit_appends _ trivial

theorem requestWorkerSession_appends (config : LeanWorkerSessionConfig) (progress : Bool)
    (beforeRestarts : Nat) (a : OpenAnswers) :
    Moves (Appends fun _ => True) (requestWorkerSession config progress beforeRestarts a) := by
  have forget : ∀ e : LeanWorkerError, Moves (Appends fun _ => True)
      (forgetSessionKeys >>= fun _ => (raise e : Supervisor Unit)) := fun e =>
    .bind (modify_appends _) fun _ => .raise _
  refine .bind worker_moves fun w => .bind (prepareRequest_moves _ _) fun _ =>
    .bind worker_moves fun w' => .bind (sendRequest_moves _ _ _) fun _ =>
    .bind (modify_appends _) fun _ => .bind (.capture (readResponseWithEvents_moves _ _ _ _))
    fun result => ?_
  cases result with
  | error e => exact forget e
  | ok response =>
    cases response with
    | hostSessionOpened importStats =>
      exact .bind (modify_appends _) fun _ => .bind (modify_appends _) fun _ =>
        .bind (modify_appends _) fun _ => .bind (modify_appends _) fun _ => modify_appends _
    | hostSessionReused importStats =>
      exact .bind (modify_appends _) fun _ => modify_appends _
    | _ => exact forget _

end LeanRs
