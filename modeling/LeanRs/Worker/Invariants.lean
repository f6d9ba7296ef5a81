import LeanRs.Worker.Frame

/-! From the parts of an operation to the operation: what the few parts keep, every public
operation keeps. -/
namespace LeanRs

open Procedures Procedure Supervisor

def Preserves {A : Type} (I : World → Prop) (m : Supervisor A) : Prop :=
  Triple I m (fun _ => I) (fun _ => I)

section

variable {I : World → Prop} {A B : Type}

theorem Preserves.pure (a : A) : Preserves I (pure a : Supervisor A) := Triple.pure fun _ h => h

theorem Preserves.raise (e : LeanWorkerError) : Preserves I (raise e : Supervisor A) :=
  Triple.raise fun _ h => h

theorem Preserves.worker : Preserves I worker := fun _ h => h

theorem Preserves.bind {m : Supervisor A} {f : A → Supervisor B} (first : Preserves I m)
    (next : ∀ a, Preserves I (f a)) : Preserves I (m >>= f) := Triple.bind first next

theorem Preserves.capture {m : Supervisor A} (body : Preserves I m) : Preserves I (capture m) :=
  Triple.capture body

theorem Preserves.choose {c : Prop} [Decidable c] {m n : Supervisor A} (yes : c → Preserves I m)
    (no : ¬c → Preserves I n) : Preserves I (if c then m else n) := Triple.choose yes no

theorem Preserves.discard {m : Supervisor A} (body : Preserves I m) : Preserves I (discard m) :=
  body.bind fun _ => .pure _

theorem Preserves.ofMoves {rel : World → World → Prop} {m : Supervisor A} (moves : Moves rel m)
    (along : ∀ s t, rel s t → I s → I t) : Preserves I m := by
  intro s held
  have moved := moves s
  cases outcome : m s with
  | returned a t => rw [outcome] at moved; exact along s t moved held
  | raised e t => rw [outcome] at moved; exact along s t moved held
  | waiting t => trivial

end

def Op.opensSession : Op → Bool
  | .openWorkerSession _ _ _ => true
  | _ => false

/-- An invariant of the parts that operations are made of. The opening of a session is not among
them. -/
structure PartsKeep (I : World → Prop) : Prop where
  issue : ∀ request importLike a, Preserves I (issueRequest request importLike a)
  respond : ∀ operation sinks started turns,
    Preserves I (readResponseWithEvents operation sinks started turns)
  restart : ∀ reason a, Preserves I (restartWithReason reason a)
  stop : ∀ {A : Type} {m : Supervisor A}, Moves StopFrame m → Preserves I m
  count : ∀ f : LeanWorkerStats → LeanWorkerStats, (∀ stats, (f stats).restarts = stats.restarts) →
    Preserves I (count f)
  timeout : ∀ timeout, Preserves I (setRequestTimeout timeout)

namespace PartsKeep

variable {I : World → Prop} {A : Type} (keeps : PartsKeep I)

include keeps

theorem exchange (operation : String) (request : Request) (importLike : Bool) (sinks : Sinks)
    (a : RequestAnswers) : Preserves I (exchange operation request importLike sinks a) :=
  (keeps.issue request importLike a).bind fun _ => keeps.respond _ _ _ _

omit keeps in
theorem checkCancelled (operation : String) (cancelled : Bool) :
    Preserves I (checkCancelled operation cancelled) := .choose (fun _ => .raise _) fun _ => .pure _

omit keeps in
theorem liftResult (result : Except LeanWorkerError A) : Preserves I (liftResult result) := by
  cases result
  · exact .raise _
  · exact .pure _

omit keeps in
theorem manifest (built : Except String PathBuf) :
    Preserves I (fixtureCapabilityManifest built) := by
  cases built
  · exact .raise _
  · exact .pure _

omit keeps in
theorem encoded (requestJson : Except String JsonText) (failure : String → ProtocolText) :
    Preserves I (encoded requestJson failure) := by
  cases requestJson
  · exact .raise _
  · exact .pure _

theorem roundTrip (operation : String) (request : Request) (importLike progress : Bool)
    (extract : Response → Except LeanWorkerError A) (a : RequestAnswers) :
    Preserves I (roundTrip operation request importLike progress extract a) :=
  (checkCancelled _ _).bind fun _ => (keeps.exchange _ _ _ _ _).bind fun _ => liftResult _

theorem emitTestRowsThen (operation : String) (request : Request) (data : Bool)
    (a : RequestAnswers) : Preserves I (emitTestRowsThen operation request data a) :=
  (checkCancelled _ _).bind fun _ => (keeps.exchange _ _ _ _ _).bind fun _ => .raise _

theorem triggerLeanPanicFixture (built : Except String PathBuf) (a : RequestAnswers) :
    Preserves I (triggerLeanPanicFixture built a) := by
  refine (manifest built).bind fun _ => (keeps.issue _ _ _).bind fun _ =>
    (keeps.respond _ _ _ _).capture.bind fun result => ?_
  cases result with
  | ok response => exact .raise _
  | error err =>
    cases err with
    | childPanicOrAbort exit => exact .pure _
    | _ => exact .raise _

theorem degradable {D : Type} (truncate : String → String) (operation : String)
    (trip : Supervisor A) (verdict : LeanWorkerError → LeanWorker → D) (a : RestartAnswers)
    (body : Preserves I trip) : Preserves I (degradable truncate operation trip verdict a) := by
  refine body.capture.bind fun result => ?_
  cases result with
  | ok value => exact .pure _
  | error err =>
    refine Preserves.worker.bind fun w => Preserves.bind ?_ fun _ => .pure _
    cases err with
    | childPanicOrAbort exit => exact keeps.restart _ a
    | _ => exact .raise _

theorem workerRunDataStream (progress : Bool) (exportName : String)
    (requestJson : Except String JsonText) (rows : DataSinkTarget) (diagnostics : Bool)
    (a : RequestAnswers) :
    Preserves I (workerRunDataStream progress exportName requestJson rows diagnostics a) := by
  refine (checkCancelled _ _).bind fun _ => (encoded _ _).bind fun text =>
    (keeps.issue _ _ _).bind fun _ =>
    (keeps.count (fun stats => stats.streamRequested) fun _ => rfl).bind fun _ =>
    (keeps.respond _ _ _ _).bind fun response => ?_
  split
  · exact .pure _
  all_goals exact .raise _

theorem workerListDeclarationsStrings (progress : Bool)
    (decode : JsonText → Except String String) (filter : JsonText) (a : RequestAnswers) :
    Preserves I (workerListDeclarationsStrings progress decode filter a) := by
  have reads : Preserves I (read : Supervisor World) := fun _ held => held
  refine (checkCancelled _ _).bind fun _ => (keeps.issue _ _ _).bind fun _ =>
    reads.bind fun before => (keeps.respond _ _ _ _).bind fun response => reads.bind fun after => ?_
  split
  split
  · exact .raise _
  · split
    · split
      · exact .pure _
      · exact .raise _
    · exact .raise _

theorem perform (op : Op) (other : op.opensSession = false) : Preserves I op.perform := by
  have trip {A : Type} (operation : String) (request : Request) (progress : Bool)
      (extract : Response → Except LeanWorkerError A) (a : RequestAnswers) :
      Preserves I (LeanRs.discard (LeanRs.roundTrip operation request false progress extract a)) :=
    (keeps.roundTrip operation request false progress extract a).discard
  cases op with
  | openWorkerSession config progress a => cases other
  | status answer => exact (keeps.stop (status_frame answer)).discard
  | rssKib sample =>
    exact (Preserves.worker.bind fun w => (keeps.count _
      (LeanWorkerStats.rssSampled_restarts _)).bind fun _ => .pure _).discard
  | setRequestTimeout timeout => exact keeps.timeout timeout
  | recordCapabilityOpenTiming load opened =>
    exact keeps.count (fun stats => stats.capabilityOpenTimed load opened) fun _ => rfl
  | recordCommandTiming first elapsed =>
    refine keeps.count _ fun stats => ?_
    cases first <;> rfl
  | cycle a => exact keeps.restart _ a
  | cycleWithRestartReason reason a => exact keeps.restart reason a
  | killForTest answer =>
    exact Preserves.worker.bind fun w => .choose (fun _ => keeps.stop (killChild_frame answer))
      fun _ => .raise _
  | shutdown a => exact (keeps.stop (shutdownChild_frame a .graceful)).discard
  | health a =>
    refine (keeps.exchange _ _ _ _ _).bind fun response => ?_
    split
    · exact .pure _
    · exact .raise _
  | loadFixtureCapability built a =>
    refine (manifest built).bind fun _ => (keeps.exchange _ _ _ _ _).bind fun response => ?_
    split
    · exact .pure _
    · exact .raise _
  | callFixtureMul built lhs rhs a =>
    refine Preserves.discard ((manifest built).bind fun _ =>
      (keeps.exchange _ _ _ _ _).bind fun response => ?_)
    split
    · exact .pure _
    · exact .raise _
  | triggerLeanPanicFixture built a => exact (keeps.triggerLeanPanicFixture built a).discard
  | emitTestRows streams data a =>
    refine Preserves.discard ((checkCancelled _ _).bind fun _ =>
      (keeps.exchange _ _ _ _ _).bind fun response => ?_)
    split
    · exact .pure _
    · exact .raise _
  | emitTestRowsThenExit data a => exact keeps.emitTestRowsThen _ _ data a
  | emitTestRowsThenPanic data a => exact keeps.emitTestRowsThen _ _ data a
  | capabilityMetadata progress exportName requestJson a =>
    exact ((encoded _ _).bind fun _ => keeps.roundTrip _ _ _ _ _ a).discard
  | capabilityDoctor progress exportName requestJson a =>
    exact ((encoded _ _).bind fun _ => keeps.roundTrip _ _ _ _ _ a).discard
  | verifyDeclaration progress truncate request options a recover =>
    exact (keeps.degradable truncate _ _ _ recover (keeps.roundTrip _ _ _ _ _ a)).discard
  | verifyDeclarationBatch progress truncate targets request options a recover =>
    exact (keeps.degradable truncate _ _ _ recover (keeps.roundTrip _ _ _ _ _ a)).discard
  | processModuleQueryBatch progress truncate source selectors budgets options a recover =>
    exact (keeps.degradable truncate _ _ _ recover (keeps.roundTrip _ _ _ _ _ a)).discard
  | runDataStream progress exportName requestJson rows diagnostics a =>
    exact (keeps.workerRunDataStream progress exportName requestJson rows diagnostics a).discard
  | listDeclarationsStrings progress decode filter a =>
    exact (keeps.workerListDeclarationsStrings progress decode filter a).discard
  | _ => exact trip _ _ _ _ _

end PartsKeep

end LeanRs
