import LeanRs.Worker.Handles
import LeanRs.Worker.Session

/-! The configuration of a worker is the one that it was started with, but for the timeout of its
requests. -/
namespace LeanRs

open Procedures Procedure Supervisor

def LeanWorkerConfig.limits (config : LeanWorkerConfig) : LeanWorkerConfig :=
  { config with requestTimeout := 0 }

def LeanWorker.limits (w : LeanWorker) : LeanWorkerConfig := w.config.limits

def World.limits (s : World) : LeanWorkerConfig := s.worker.limits

theorem limits_of_config {s t : World} (same : SameConfig s t) : t.limits = s.limits :=
  congrArg LeanWorkerConfig.limits same

theorem fixes_of_config {A : Type} {m : Supervisor A} (moves : Moves SameConfig m) :
    Fixes World.limits m := moves.fixes fun _ _ same => limits_of_config same

theorem restartWithReason_config (reason : LeanWorkerRestartReason) (a : RestartAnswers) :
    Moves SameConfig (restartWithReason reason a) :=
  fun s => CoreFrame.config (restartWithReason_core reason a s)

theorem readResponseWithEvents_config (operation : String) (sinks : Sinks) (started : Instant)
    (turns : List TurnAnswers) :
    Moves SameConfig (readResponseWithEvents operation sinks started turns) :=
  readResponseWithEvents_moves operation sinks started turns

theorem setRequestTimeout_limits (timeout : Duration) :
    Fixes World.limits (setRequestTimeout timeout) := .update fun _ => rfl

theorem partsKeep_limits (limits : LeanWorkerConfig) :
    PartsKeep fun s => s.limits = limits where
  issue request importLike a := fixes_of_config (issueRequest_config request importLike a) limits
  respond operation sinks started turns :=
    fixes_of_config (readResponseWithEvents_config operation sinks started turns) limits
  restart reason a := fixes_of_config (restartWithReason_config reason a) limits
  stop frame := fixes_of_config (fun s => congrArg Ledger.config (frame s).ledger) limits
  count _ _ := Triple.update fun _ held => held
  timeout timeout := setRequestTimeout_limits timeout limits

theorem modify_config (f : LeanWorker → LeanWorker) (same : ∀ w, (f w).config = w.config) :
    Moves SameConfig (modify f) := fun s => same s.worker

theorem takePendingRestart_config (a : RestartAnswers) :
    Moves SameConfig (takePendingRestart a) := by
  refine .bind worker_moves fun w => ?_
  split
  · exact .bind (modify_config _ fun _ => rfl) fun _ => restartWithReason_config _ a
  · exact .pure _

theorem hostSessionOpened_config (config : LeanWorkerSessionConfig) (expectReuse : Bool)
    (beforeRestarts : Nat) (importStats : LeanWorkerImportStats) (elapsed : Duration) :
    Moves SameConfig
      (hostSessionOpened config expectReuse beforeRestarts importStats elapsed) :=
  .bind (modify_config _ fun _ => rfl) fun _ => .bind (fun _ => rfl) fun _ =>
    .bind (modify_config _ fun _ => rfl) fun _ => .bind (modify_config _ fun _ => rfl) fun _ =>
    modify_config _ fun _ => rfl

theorem hostSessionReused_config (config : LeanWorkerSessionConfig)
    (importStats : LeanWorkerImportStats) :
    Moves SameConfig (hostSessionReused config importStats) :=
  .bind (modify_config _ fun _ => rfl) fun _ => modify_config _ fun _ => rfl

theorem readWorkerSession_config (config : LeanWorkerSessionConfig) (progress expectReuse : Bool)
    (beforeRestarts : Nat) (a : OpenAnswers) :
    Moves SameConfig (readWorkerSession config progress expectReuse beforeRestarts a) := by
  refine .bind (.capture (readResponseWithEvents_config _ _ _ _)) fun result => ?_
  split
  · exact .bind (modify_config _ fun _ => rfl) fun _ => .raise _
  · exact hostSessionOpened_config _ _ _ _ _
  · exact hostSessionReused_config _ _
  · exact .bind (modify_config _ fun _ => rfl) fun _ => .raise _

theorem openWorkerSession_config (config : LeanWorkerSessionConfig) (progress : Bool)
    (a : OpenAnswers) : Moves SameConfig (openWorkerSession config progress a) := by
  refine .bind (.choose (fun _ => .raise _) fun _ => .pure _) fun _ => .bind worker_moves fun _ =>
    .bind (takePendingRestart_config a.deferred) fun _ => .bind worker_moves fun _ =>
    .bind (prepareRequest_config _ _) fun _ => .bind worker_moves fun _ =>
    .bind (sendRequest_config _ _ _) fun _ => .bind (fun _ => rfl) fun _ => ?_
  exact readWorkerSession_config _ _ _ _ _

def World.config (s : World) : LeanWorkerConfig := s.worker.config

theorem fixes_config {A : Type} {m : Supervisor A}
    (moves : Moves SameConfig m) : Fixes World.config m := moves.fixes fun _ _ same => same

theorem checkCancelled_config (operation : String) (cancelled : Bool) :
    Moves SameConfig (checkCancelled operation cancelled) :=
  .choose (fun _ => .raise _) fun _ => .pure _

theorem encoded_config (requestJson : Except String JsonText) (failure : String → ProtocolText) :
    Moves SameConfig (encoded requestJson failure) := by
  cases requestJson with
  | ok text => exact .pure _
  | error text => exact .raise _

theorem exchange_config (operation : String) (request : Request) (importLike : Bool)
    (sinks : Sinks) (a : RequestAnswers) :
    Moves SameConfig (exchange operation request importLike sinks a) :=
  .bind (issueRequest_config request importLike a) fun _ => readResponseWithEvents_config _ _ _ _

theorem roundTrip_config {A : Type} (operation : String) (request : Request)
    (importLike progress : Bool) (extract : Response → Except LeanWorkerError A)
    (a : RequestAnswers) :
    Moves SameConfig (roundTrip operation request importLike progress extract a) := by
  apply Moves.bind (checkCancelled_config _ _)
  intro _
  apply Moves.bind (exchange_config _ _ _ _ _)
  intro response
  cases extract response with
  | ok value => exact .pure _
  | error e => exact .raise _

theorem health_config (a : RequestAnswers) : Moves SameConfig (health a) := by
  apply Moves.bind (exchange_config _ _ _ _ _)
  intro response
  split
  · exact .pure _
  · exact .raise _

theorem workerCapabilityMetadata_config (progress : Bool) (exportName : String)
    (requestJson : Except String JsonText) (a : RequestAnswers) :
    Moves SameConfig (workerCapabilityMetadata progress exportName requestJson a) :=
  .bind (encoded_config _ _) fun _ => roundTrip_config _ _ _ _ _ _

theorem workerRunDataStream_config (progress : Bool) (exportName : String)
    (requestJson : Except String JsonText) (rows : DataSinkTarget) (diagnostics : Bool)
    (a : RequestAnswers) :
    Moves SameConfig (workerRunDataStream progress exportName requestJson rows diagnostics a) := by
  apply Moves.bind (checkCancelled_config _ _)
  intro _
  apply Moves.bind (encoded_config _ _)
  intro text
  have counts : Moves SameConfig (count fun stats => stats.streamRequested) := fun _ => rfl
  apply Moves.bind (issueRequest_config _ _ _)
  intro _
  apply Moves.bind counts
  intro _
  apply Moves.bind (readResponseWithEvents_config _ _ _ _)
  intro response
  split
  · exact .pure _
  all_goals exact .raise _

theorem degradable_config {A D : Type} (truncate : String → String) (operation : String)
    {trip : Supervisor A} (verdict : LeanWorkerError → LeanWorker → D) (a : RestartAnswers)
    (body : Moves SameConfig trip) :
    Moves SameConfig (degradable truncate operation trip verdict a) := by
  apply Moves.bind (.capture body)
  intro result
  cases result with
  | ok value => exact .pure _
  | error err =>
    refine Moves.bind worker_moves fun w => .bind ?_ fun _ => .pure _
    cases err with
    | childPanicOrAbort exit => exact restartWithReason_config _ a
    | _ => exact .raise _

theorem perform_limits (op : Op) : Fixes World.limits op.perform := by
  intro limits
  cases opens : op.opensSession with
  | false => exact (partsKeep_limits limits).perform op opens
  | true =>
    cases op with
    | openWorkerSession config progress a =>
      exact fixes_of_config (openWorkerSession_config config progress a) limits
    | _ => cases opens

section

variable {A V : Type} {view : World → V}

theorem onWorker_fixes {f : Supervisor A} (body : Fixes view f) :
    Fixes (fun s : LeanWorkerSession => view s.world) (onWorker f) := by
  intro v s held
  have kept := body v s.world held
  rw [onWorker]
  cases outcome : f s.world with
  | returned a t => rw [outcome] at kept; exact kept
  | raised e t => rw [outcome] at kept; exact kept
  | waiting t => trivial

theorem withSession_fixes {f : Supervisor A} (body : Fixes view f) :
    Fixes (fun s : LeanWorkerSession => view s.world) (withSession f) := by
  have opened : Fixes (fun s : LeanWorkerSession => view s.world) ensureOpen :=
    Fixes.bind Fixes.read fun _ => Fixes.choose (fun _ => Fixes.pure _) fun _ => Fixes.raise _
  exact Fixes.bind opened fun _ => onWorker_fixes body

theorem orRaise_fixes (failure : String → LeanWorkerSessionError) (result : Except String A) :
    Fixes (fun s : LeanWorkerSession => view s.world) (orRaise failure result) := by
  cases result with
  | ok a => exact Fixes.pure a
  | error text => exact Fixes.raise _

theorem runJsonCommand_fixes (exportName : String) (requestJson : Except String JsonText)
    (decode : JsonText → Except String A) (progress : Bool) (a : RequestAnswers)
    (body : ∀ text, Fixes view (workerJsonCommand progress exportName text a)) :
    Fixes (fun s : LeanWorkerSession => view s.world)
      (runJsonCommand exportName requestJson decode progress a) := by
  apply Fixes.bind (orRaise_fixes _ _)
  intro text
  apply Fixes.bind (withSession_fixes (body text))
  exact fun _ => orRaise_fixes _ _

theorem runStreamingCommand_fixes {B : Type} (exportName : String)
    (requestValue : Except String Unit) (requestJson : Except String JsonText)
    (decodeRow : JsonText → Except String A) (decodeSummary : JsonText → Except String B)
    (diagnostics progress : Bool) (a : RequestAnswers)
    (body : ∀ turns, Fixes view (workerRunDataStream progress exportName requestJson .raw
      diagnostics { a with turns := turns })) :
    Fixes (fun s : LeanWorkerSession => view s.world) (runStreamingCommand exportName
      requestValue requestJson decodeRow decodeSummary diagnostics progress a) := by
  apply Fixes.bind (orRaise_fixes _ _)
  intro _
  apply Fixes.bind Fixes.read
  intro before
  apply Fixes.bind (Fixes.capture (withSession_fixes (body _)))
  intro result
  apply Fixes.bind Fixes.read
  intro after
  dsimp only
  split
  · exact Fixes.raise _
  · split
    · exact Fixes.pure _
    · exact Fixes.bind (orRaise_fixes _ _) fun _ => Fixes.pure _
  all_goals exact Fixes.raise _

end

def LeanWorkerSession.limits (s : LeanWorkerSession) : LeanWorkerConfig := s.world.limits

theorem sessionCall_limits (call : SessionCall) : Fixes LeanWorkerSession.limits call.perform := by
  cases call with
  | setRequestTimeout timeout => exact onWorker_fixes (setRequestTimeout_limits timeout)
  | request op through => exact withSession_fixes (perform_limits op)
  | runJsonCommand exportName requestJson decode progress a =>
    apply runJsonCommand_fixes
    exact fun _ => fixes_of_config (roundTrip_config _ _ _ _ _ _)
  | runStreamingCommand exportName requestValue requestJson decodeRow decodeSummary diagnostics
      progress a =>
    refine Fixes.bind ?_ fun _ => Fixes.pure _
    apply runStreamingCommand_fixes
    exact fun _ => fixes_of_config (workerRunDataStream_config _ _ _ _ _ _)

end LeanRs
