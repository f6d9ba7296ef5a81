import LeanRs.Worker.Turns

/-! Which errors put the blame on what the child has written. -/
namespace LeanRs

open Procedures Procedure Supervisor

/-- The error says that a child broke the protocol: a frame of the wrong kind, a response to
another request, or output that is out of date. -/
def LeanWorkerError.blamesChild : LeanWorkerError → Bool
  | .protocol (.unexpectedMessage _ _) | .protocol (.unexpectedResponse _ _)
  | .protocol (.staleOutput _ _ _) | .protocol (.staleRequestOutput _ _ _)
  | .protocol .rowWithoutSink => true
  | _ => false

@[simp] theorem LeanWorkerError.blamesChild_ofExit (exit : LeanWorkerExit) :
    (LeanWorkerError.ofExit exit).blamesChild = false := by
  unfold ofExit
  split <;> rfl

abbrev Blameless {A : Type} (m : Supervisor A) : Prop :=
  Raises (fun e : LeanWorkerError => e.blamesChild = false) m

theorem dead_blameless {A : Type} (w : LeanWorker) :
    Blameless (raise w.deadError : Supervisor A) :=
  .raise (LeanWorkerError.blamesChild_ofExit _)

theorem worker_raises {R : LeanWorkerError → Prop} : Raises R worker := fun _ _ => trivial

theorem modify_raises {R : LeanWorkerError → Prop} (f : LeanWorker → LeanWorker) :
    Raises R (modify f) := .update _

theorem emit_raises {R : LeanWorkerError → Prop} (e : Effect) : Raises R (emit e) := .update _

theorem status_blameless (answer : TryWait) : Blameless (status answer) := by
  refine .bind worker_raises fun w => ?_
  split
  · exact .bind (modify_raises _) fun _ => .pure _
  · split
    · exact .bind (modify_raises _) fun _ => .pure _
    · refine .bind (emit_raises _) fun _ => ?_
      cases answer
      · exact .raise rfl
      · exact .pure _
      · exact .bind (modify_raises _) fun _ => .pure _

theorem ensureRunning_blameless (answer : TryWait) : Blameless (ensureRunning answer) := by
  refine .bind worker_raises fun w => .choose (fun _ => .raise rfl) fun _ =>
    .bind (status_blameless answer) fun found => ?_
  cases found
  · exact .pure _
  · exact .raise (by simp)

theorem finalizeChildExit_blameless (exitStatus : ExitStatus) (stderr : String) :
    Blameless (finalizeChildExit exitStatus stderr) :=
  .bind worker_raises fun _ => .bind (modify_raises _) fun _ => .pure _

theorem waitForExit_blameless (answer : WaitAnswer) : Blameless (waitForExit answer) := by
  refine .bind worker_raises fun w => ?_
  split
  · exact dead_blameless w
  · refine .bind (modify_raises _) fun _ => .bind (emit_raises _) fun _ => ?_
    cases answer
    · exact .raise rfl
    · exact finalizeChildExit_blameless _ _
    · exact .wait

theorem pollExit_blameless (answer : TryWait) : Blameless (pollExit answer) := by
  refine .bind worker_raises fun w => ?_
  split
  · exact dead_blameless w
  · refine .bind (modify_raises _) fun _ => .bind (emit_raises _) fun _ => ?_
    cases answer
    · exact .raise rfl
    · exact .pure _
    · exact .bind (finalizeChildExit_blameless _ _) fun _ => .pure _

theorem waitForExitPolls_blameless (operation : String) (timeout : Duration) (last : TryWait)
    (elapsed : Duration) (polls : List TryWait) :
    Blameless (waitForExitPolls operation timeout last elapsed polls) := by
  induction polls with
  | nil =>
    refine .bind (pollExit_blameless _) fun found => ?_
    cases found
    · exact .raise rfl
    · exact .pure _
  | cons poll rest ih =>
    refine .bind (pollExit_blameless _) fun found => ?_
    cases found
    · exact ih
    · exact .pure _

theorem writeRequest_blameless (request : Request) (answer : WriteAnswer) :
    Blameless (writeRequest request answer) := by
  refine .bind worker_raises fun w => .choose (fun _ => .bind (emit_raises _) fun _ => ?_)
    fun _ => dead_blameless w
  cases answer
  · exact .pure _
  · exact .raise rfl
  · exact .raise rfl

theorem killChild_blameless (answer : KillAnswer) : Blameless (killChild answer) := by
  refine .bind worker_raises fun w => .choose (fun _ => .bind (emit_raises _) fun _ => ?_)
    fun _ => .pure _
  cases answer
  · exact .raise rfl
  · exact .pure _

theorem killAndReport_blameless (a : ShutdownAnswers) (gracefulTimeout : Duration)
    (outcome : LeanWorkerShutdownOutcome) :
    Blameless (killAndReport a gracefulTimeout outcome) :=
  .bind (modify_raises _) fun _ => .bind (killChild_blameless _) fun _ =>
    .bind (waitForExitPolls_blameless _ _ _ _ _) fun _ => .pure _

theorem waitForTerminating_blameless (a : ShutdownAnswers) (gracefulTimeout : Duration) :
    Blameless (waitForTerminating a gracefulTimeout) := by
  refine .captured (waitForExitPolls_blameless _ _ _ _ _) (fun _ => .pure _) fun e innocent => ?_
  cases e with
  | waitTimeout operation duration => exact killAndReport_blameless _ _ _
  | _ => exact .raise innocent

theorem gracePoll_blameless (answer : TryWait) : Blameless (gracePoll answer) := by
  refine .bind worker_raises fun w => .choose (fun _ => .bind (emit_raises _) fun _ => ?_)
    fun _ => .pure _
  cases answer
  · exact .raise rfl
  · exact .pure _
  · exact .bind (finalizeChildExit_blameless _ _) fun _ => .pure _

theorem graceLoop_blameless (a : ShutdownAnswers) (gracefulTimeout : Duration)
    (turns : List (TryWait × GraceEvent)) : Blameless (graceLoop a gracefulTimeout turns) := by
  induction turns with
  | nil =>
    refine .bind (gracePoll_blameless _) fun found => ?_
    cases found
    · exact .bind (killChild_blameless _) fun _ =>
        .bind (waitForExitPolls_blameless _ _ _ _ _) fun _ => .pure _
    · exact .pure _
  | cons turn rest ih =>
    obtain ⟨poll, event⟩ := turn
    refine .bind (gracePoll_blameless _) fun found => ?_
    cases found with
    | some exit => exact .pure _
    | none =>
      cases event with
      | message => exact ih
      | timeout => exact ih
      | terminal response =>
        cases response with
        | terminating =>
          exact .bind (modify_raises _) fun _ => waitForTerminating_blameless _ _
        | _ => exact .bind (modify_raises _) fun _ => killAndReport_blameless _ _ _
      | readError eof =>
        cases eof
        · exact killAndReport_blameless _ _ _
        · exact waitForTerminating_blameless _ _
      | disconnected => exact killAndReport_blameless _ _ _

theorem shutdownChild_blameless (a : ShutdownAnswers) (intent : ShutdownIntent) :
    Blameless (shutdownChild a intent) := by
  refine .bind worker_raises fun w => .bind (status_blameless _) fun found => ?_
  cases found with
  | exited exit => exact .pure _
  | running =>
    cases intent with
    | killOnly => exact .bind (modify_raises _) fun _ => killAndReport_blameless _ _ _
    | graceful =>
      refine .bind (modify_raises _) fun _ => .captured (writeRequest_blameless _ _) (fun _ => ?_)
        fun e innocent => ?_
      · exact .bind worker_raises fun w => .choose
          (fun _ => .bind (modify_raises _) fun _ => graceLoop_blameless _ _ _)
          fun _ => dead_blameless w
      · cases e with
        | protocol text => exact killAndReport_blameless _ _ _
        | worker code message => exact killAndReport_blameless _ _ _
        | _ => exact .raise innocent

theorem spawn_blameless (config : LeanWorkerConfig) (answer : SpawnAnswer) :
    Blameless (spawn config answer) := by
  have waited : ∀ answer, Blameless (waitWithStderr answer) := by
    intro answer
    cases answer
    · exact .raise rfl
    · exact .pure _
    · exact .wait
  refine .bind (emit_raises _) fun _ => ?_
  cases answer with
  | handshakeFailed wait => exact .bind (waited wait) fun _ => .raise (by simp)
  | startupTimeout wait => exact .bind (waited wait) fun _ => .raise rfl
  | ready pid stderr elapsed now => exact .pure _
  | _ => exact .raise rfl

theorem restartWithReason_blameless (reason : LeanWorkerRestartReason) (a : RestartAnswers) :
    Blameless (restartWithReason reason a) := by
  refine .bind worker_raises fun w => .bind (emit_raises _) fun _ => .bind (modify_raises _)
    fun _ => .captured (shutdownChild_blameless _ _) (fun _ => ?_)
    fun e innocent => .bind (modify_raises _) fun _ => .raise innocent
  have admits : Blameless (admitRestart a.now) := .bind worker_raises fun w => .choose
    (fun _ => .bind (modify_raises _) fun _ => .raise rfl) fun _ => modify_raises _
  refine .captured admits (fun _ => ?_)
    fun e innocent => .bind (modify_raises _) fun _ => .raise innocent
  exact .bind (modify_raises _) fun _ => .bind (modify_raises _) fun _ =>
    .captured (spawn_blameless _ _) (fun _ => modify_raises _)
      fun e innocent => .bind (modify_raises _) fun _ => .raise innocent

theorem restartAdmitting_blameless (importLike : Bool) (reason : LeanWorkerRestartReason)
    (a : RestartAnswers) : Blameless (restartAdmitting importLike reason a) :=
  .bind (restartWithReason_blameless reason a) fun _ => modify_raises _

theorem prepareRequest_blameless (importLike : Bool) (a : PrepareAnswers) :
    Blameless (prepareRequest importLike a) := by
  have ceiling : Blameless (rssCeilingReached a.rss) := by
    refine .bind worker_raises fun w => ?_
    split
    · exact .pure _
    · exact .bind (modify_raises _) fun _ => .pure _
  refine .bind (ensureRunning_blameless _) fun _ => .bind (.bind worker_raises fun _ =>
    .choose (fun _ => modify_raises _) fun _ => .pure _) fun _ => .bind worker_raises fun w => ?_
  split
  · exact restartAdmitting_blameless _ _ _
  · refine .bind ceiling fun reached => ?_
    split
    · exact restartAdmitting_blameless _ _ _
    · split
      · exact restartAdmitting_blameless _ _ _
      · exact modify_raises _

theorem sendRequest_blameless (poll : TryWait) (request : Request) (answer : WriteAnswer) :
    Blameless (sendRequest poll request answer) :=
  .bind (ensureRunning_blameless poll) fun _ => writeRequest_blameless request answer

theorem issueRequest_blameless (request : Request) (importLike : Bool) (a : RequestAnswers) :
    Blameless (issueRequest request importLike a) :=
  .bind (prepareRequest_blameless _ _) fun _ => .bind (sendRequest_blameless _ _ _) fun _ =>
    modify_raises _

def TurnAnswers.message? (a : TurnAnswers) : Option Message :=
  match a.received with
  | .event (.frame message) _ => some message
  | _ => none

/-- The request can do something with the message. A tick or a diagnostic without a sink is
dropped; a row without one is not. -/
def RequestContext.admits (c : RequestContext) : Message → Bool
  | .response _ | .progressTick _ | .diagnostic _ => true
  | .dataRow _ => c.data.isSome
  | _ => false

/-- An error of a turn blames the child only for a message that the request has no use for. -/
abbrev Blaming (c : RequestContext) (message : Message) (e : LeanWorkerError) : Prop :=
  e.blamesChild = true → c.admits message = false

section

variable (c : RequestContext) (waits : Nat) (a : TurnAnswers)

theorem recordStreamFailure_raises {R : LeanWorkerError → Prop} (elapsed : Duration) :
    Raises R (recordStreamFailure c elapsed waits) :=
  .choose (fun _ => modify_raises _) fun _ => .pure _

theorem terminalizeRequestFailure_raises {R : LeanWorkerError → Prop} (elapsed : Duration) :
    Raises R (terminalizeRequestFailure c elapsed waits) :=
  .bind (recordStreamFailure_raises c waits elapsed) fun _ => modify_raises _

theorem replaceAndFail_blameless (reason : LeanWorkerRestartReason)
    (error : LeanWorkerStats → LeanWorkerError)
    (innocent : ∀ stats, (error stats).blamesChild = false) :
    Blameless (replaceAndFail c waits a reason error) := by
  refine .bind (recordStreamFailure_raises c waits _) fun _ =>
    .captured (restartWithReason_blameless reason a.restart) (fun _ => ?_)
      fun e innocent => .bind (modify_raises _) fun _ => .raise innocent
  exact .bind (modify_raises _) fun _ => .bind worker_raises fun w => .raise (innocent w.stats)

theorem orTerminalize_raises {R : LeanWorkerError → Prop} {report : Supervisor Unit}
    (reports : Raises R report) : Raises R (orTerminalize c waits a report) :=
  .captured reports (fun _ => .pure _) fun _ allowed =>
    .bind (terminalizeRequestFailure_raises c waits _) fun _ => .raise allowed

theorem orCancel_blameless : Blameless (orCancel c waits a) :=
  .choose (fun _ => replaceAndFail_blameless c waits a _ _ fun _ => rfl) fun _ => .pure _

theorem reportParentProgress_blameless (present : Bool) (tick : ProgressTick) (elapsed : Duration)
    (sink : SinkAnswer) : Blameless (reportParentProgress present tick elapsed sink) := by
  refine .choose (fun _ => .bind (emit_raises _) fun _ => ?_) fun _ => .pure _
  cases sink
  · exact .pure _
  · exact .pure _
  · exact .raise rfl

theorem reportParentDiagnostic_blameless (present : Bool) (diagnostic : Diagnostic)
    (sink : SinkAnswer) : Blameless (reportParentDiagnostic present diagnostic sink) := by
  refine .choose (fun _ => .bind (emit_raises _) fun _ => ?_) fun _ => .pure _
  cases sink
  · exact .pure _
  · exact .pure _
  · exact .raise rfl

theorem reportParentDataRow_raises (row : DataRow) (sink : SinkAnswer) :
    Raises (Blaming c (.dataRow row)) (reportParentDataRow c.data row sink) := by
  cases present : c.data with
  | none => exact .raise fun _ => by rw [RequestContext.admits, present]; rfl
  | some target =>
    unfold reportParentDataRow
    split
    · rename_i absent
      cases absent
    · exact .raise nofun
    · exact .bind (emit_raises _) fun _ => .raise nofun
    · exact emit_raises _

theorem handleMessage_raises {message : Message} (event : message.isTerminal = false) :
    Raises (Blaming c message) (handleMessage c waits a message) := by
  have innocent {A : Type} {m : Supervisor A} (blameless : Blameless m) :
      Raises (Blaming c message) m :=
    blameless.weaken fun e innocent blames => absurd blames (by simp [innocent])
  cases message with
  | progressTick tick =>
    exact .bind (modify_raises _) fun _ => .bind (innocent (orTerminalize_raises c waits a
      (reportParentProgress_blameless _ _ _ _))) fun _ => innocent (orCancel_blameless c waits a)
  | dataRow row =>
    exact .bind (modify_raises _) fun _ => .bind (orTerminalize_raises c waits a
      (reportParentDataRow_raises c row _)) fun _ => .bind (modify_raises _) fun _ =>
        innocent (orCancel_blameless c waits a)
  | diagnostic diagnostic =>
    exact .bind (modify_raises _) fun _ => .bind (innocent (orTerminalize_raises c waits a
      (reportParentDiagnostic_blameless _ _ _))) fun _ => .pure _
  | response response => cases event
  | _ => exact .bind (terminalizeRequestFailure_raises c waits _) fun _ => .raise fun _ => rfl

theorem handleTerminal_blameless {message : Message} (terminal : message.isTerminal = true) :
    Blameless (handleTerminal c waits a message) := by
  refine .bind (modify_raises _) fun _ => ?_
  cases message with
  | response response =>
    have answered : ∀ response : Response, Blameless
        (terminalizeRequestResponse c response a.streamElapsed waits >>= fun _ =>
          pure (Turn.complete response)) := fun response =>
      .bind (.bind (.choose (fun _ => modify_raises _)
        fun _ => recordStreamFailure_raises c waits _) fun _ => modify_raises _) fun _ => .pure _
    cases response with
    | error code text =>
      exact .bind (terminalizeRequestFailure_raises c waits _) fun _ => .raise rfl
    | _ => exact answered _
  | _ => cases terminal

end

end LeanRs
