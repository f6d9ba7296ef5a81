import LeanRs.Worker.Steps

/-! A contract over the steps of the supervisor, carried from the steps to every public operation:
an invariant, and what a restart that the window refuses leaves behind. -/
namespace LeanRs

open Procedures Procedure Supervisor

section

variable {A B : Type}

theorem status_spares (answer : TryWait) : Spares (status answer) := by
  refine .bind .worker fun w => ?_
  split
  · exact .bind (.modify _) fun _ => .pure _
  · split
    · exact .bind (.modify _) fun _ => .pure _
    · refine .bind (.emit _) fun _ => ?_
      cases answer with
      | failed source => exact .raise rfl
      | running => exact .pure _
      | exited exitStatus stderr => exact .bind (.modify _) fun _ => .pure _

theorem finalizeChildExit_spares (exitStatus : ExitStatus) (stderr : String) :
    Spares (finalizeChildExit exitStatus stderr) :=
  .bind .worker fun _ => .bind (.modify _) fun _ => .pure _

theorem waitForExit_spares (answer : WaitAnswer) : Spares (waitForExit answer) := by
  refine .bind .worker fun w => ?_
  split
  · exact .raise (LeanWorkerError.isRefusal_ofExit _)
  · refine .bind (.modify _) fun _ => .bind (.emit _) fun _ => ?_
    cases answer with
    | failed source => exact .raise rfl
    | exited exitStatus stderr => exact finalizeChildExit_spares _ _
    | never => exact .wait

theorem pollExit_spares (answer : TryWait) : Spares (pollExit answer) := by
  refine .bind .worker fun w => ?_
  split
  · exact .raise (LeanWorkerError.isRefusal_ofExit _)
  · refine .bind (.modify _) fun _ => .bind (.emit _) fun _ => ?_
    cases answer with
    | failed source => exact .raise rfl
    | running => exact .pure _
    | exited exitStatus stderr => exact .bind (finalizeChildExit_spares _ _) fun _ => .pure _

theorem waitForExitPolls_spares (operation : String) (timeout : Duration) (last : TryWait)
    (elapsed : Duration) (early : List TryWait) :
    Spares (waitForExitPolls operation timeout last elapsed early) := by
  induction early with
  | nil =>
    refine .bind (pollExit_spares last) fun found => ?_
    cases found
    · exact .raise rfl
    · exact .pure _
  | cons poll rest ih =>
    refine .bind (pollExit_spares poll) fun found => ?_
    cases found
    · exact ih
    · exact .pure _

theorem killChild_spares (answer : KillAnswer) : Spares (killChild answer) := by
  refine .bind .worker fun w => .choose (fun _ => .bind (.emit _) fun _ => ?_) fun _ => .pure _
  cases answer
  · exact .raise rfl
  · exact .pure _

theorem killAndReport_spares (a : ShutdownAnswers) (gracefulTimeout : Duration)
    (outcome : LeanWorkerShutdownOutcome) : Spares (killAndReport a gracefulTimeout outcome) :=
  .bind (.modify _) fun _ => .bind (killChild_spares _) fun _ =>
    .bind (waitForExitPolls_spares _ _ _ _ _) fun _ => .pure _

theorem waitForTerminating_spares (a : ShutdownAnswers) (gracefulTimeout : Duration) :
    Spares (waitForTerminating a gracefulTimeout) := by
  refine .captured (waitForExitPolls_spares _ _ _ _ _) (fun _ => .pure _) fun err other => ?_
  cases err with
  | waitTimeout operation duration => exact killAndReport_spares _ _ _
  | _ => exact .raise other

theorem gracePoll_spares (answer : TryWait) : Spares (gracePoll answer) := by
  refine .bind .worker fun w => .choose (fun _ => .bind (.emit _) fun _ => ?_) fun _ => .pure _
  cases answer with
  | failed source => exact .raise rfl
  | running => exact .pure _
  | exited exitStatus stderr => exact .bind (finalizeChildExit_spares _ _) fun _ => .pure _

theorem graceLoop_spares (a : ShutdownAnswers) (gracefulTimeout : Duration)
    (turns : List (TryWait × GraceEvent)) : Spares (graceLoop a gracefulTimeout turns) := by
  induction turns with
  | nil =>
    refine .bind (gracePoll_spares _) fun found => ?_
    cases found
    · exact .bind (killChild_spares _) fun _ => .bind (waitForExitPolls_spares _ _ _ _ _) fun _ =>
        .pure _
    · exact .pure _
  | cons turn rest ih =>
    obtain ⟨poll, event⟩ := turn
    refine .bind (gracePoll_spares _) fun found => ?_
    cases found with
    | some exit => exact .pure _
    | none =>
      cases event with
      | message => exact ih
      | timeout => exact ih
      | disconnected => exact killAndReport_spares _ _ _
      | readError eof =>
        cases eof
        · exact killAndReport_spares _ _ _
        · exact waitForTerminating_spares _ _
      | terminal response =>
        cases response with
        | terminating => exact .bind (.modify _) fun _ => waitForTerminating_spares _ _
        | _ => exact .bind (.modify _) fun _ => killAndReport_spares _ _ _

theorem writeRequest_spares (request : Request) (answer : WriteAnswer) :
    Spares (writeRequest request answer) := by
  refine .bind .worker fun w => .choose (fun _ => .bind (.emit _) fun _ => ?_) fun _ =>
    .raise (LeanWorkerError.isRefusal_ofExit _)
  cases answer
  · exact .pure _
  · exact .raise rfl
  · exact .raise rfl

theorem shutdownChild_spares (a : ShutdownAnswers) (intent : ShutdownIntent) :
    Spares (shutdownChild a intent) := by
  refine .bind .worker fun w => .bind (status_spares _) fun found => ?_
  cases found with
  | exited exit => exact .pure _
  | running =>
    cases intent with
    | killOnly => exact .bind (.modify _) fun _ => killAndReport_spares _ _ _
    | graceful =>
      refine .bind (.modify _) fun _ => .captured (writeRequest_spares _ _) (fun _ => ?_)
        fun err other => ?_
      · exact .bind .worker fun _ => .choose
          (fun _ => .bind (.modify _) fun _ => graceLoop_spares _ _ _)
          fun _ => .raise (LeanWorkerError.isRefusal_ofExit _)
      · cases err with
        | protocol text => exact killAndReport_spares _ _ _
        | worker code message => exact killAndReport_spares _ _ _
        | _ => exact .raise other

end

/-- The invariant holds where a call raises, and after a refusal `X` does as well. -/
def Refusing (I X : World → Prop) (e : LeanWorkerError) (s : World) : Prop :=
  I s ∧ (e.isRefusal = true → X s)

/-- What the steps keep, given `P` of the answers that their restarts meet. -/
structure Contract (P : RestartAnswers → Prop) (I X : World → Prop) : Prop where
  book : ∀ f, Bookkeeping f → Preserves I (modify f)
  emit : ∀ e, e.ofRequest = true → Preserves I (Supervisor.emit e)
  status : ∀ answer, Preserves I (status answer)
  waitForExit : ∀ answer, Preserves I (waitForExit answer)
  killChild : ∀ answer, Preserves I (killChild answer)
  shutdown : ∀ a, Preserves I (shutdownChild a .graceful)
  restart : ∀ reason a, P a → Triple I (restartWithReason reason a) (fun _ => I) (Refusing I X)
  finish : ∀ s, X s → X { s with worker := s.worker.finishInFlight }
  forget : ∀ s, X s → X { s with worker := { s.worker with openSessionKeys := [] } }

theorem Keeping.refusing {A : Type} {I X : World → Prop} {m : Supervisor A}
    (preserves : Preserves I m) (spares : Spares m) : Keeping I (Refusing I X) m := by
  have spared : Triple I m (fun _ _ => True) (fun e _ => e.isRefusal = false) :=
    fun s _ => spares s trivial
  intro s start
  exact (Triple.both preserves spared s start).weaken (fun _ _ held => held.1)
    fun _ _ held => ⟨held.1, fun refused => nomatch held.2.symm.trans refused⟩

namespace Contract

variable {P : RestartAnswers → Prop} {I X : World → Prop} {A : Type} (contract : Contract P I X)

include contract

theorem ensureRunning (answer : TryWait) : Keeping I (Refusing I X) (ensureRunning answer) := by
  have turned {e : LeanWorkerError} (other : e.isRefusal = false) :
      Keeping I (Refusing I X) (Procedure.raise e : Supervisor Unit) :=
    .refusing (.raise e) (.raise other)
  refine .bind .worker fun w => .choose (fun _ => turned rfl) fun _ =>
    .bind (.refusing (contract.status answer) (status_spares answer)) fun found => ?_
  cases found
  · exact .pure _
  · exact turned (LeanWorkerError.isRefusal_ofExit _)

theorem recordExitError (answer : WaitAnswer) :
    Keeping I (Refusing I X) (recordExitError answer) :=
  .bind (.refusing (contract.book _ ⟨fun _ => rfl, fun _ => nofun⟩) (.modify _)) fun _ =>
    .bind (.refusing (contract.waitForExit answer) (waitForExit_spares answer)) fun _ =>
      .refusing (.raise _) (.raise (LeanWorkerError.isRefusal_ofExit _))

theorem steps : Steps I (Refusing I X) where
  raises _ _ other held := ⟨held, fun refused => nomatch other.symm.trans refused⟩
  book f books _ := contract.book f books
  emit := contract.emit
  running := contract.ensureRunning
  exited := contract.recordExitError

theorem replace (reason : LeanWorkerRestartReason) (a : RestartAnswers) (holds : P a) :
    Keeping I (Refusing I X) (restartWithReason reason a) := contract.restart reason a holds

theorem replaceAndFail (c : RequestContext) (waits : Nat) (a : TurnAnswers)
    (reason : LeanWorkerRestartReason) (error : LeanWorkerStats → LeanWorkerError)
    (other : ∀ stats, (error stats).isRefusal = false) (holds : P a.restart) :
    Keeping I (Refusing I X) (replaceAndFail c waits a reason error) := by
  refine .bind (contract.steps.recordStreamFailure c waits _) fun _ =>
    .captured (contract.replace reason a.restart holds) (fun _ => ?_) fun err => ?_
  · exact .bind contract.steps.finishInFlight fun _ =>
      .bind .worker fun w => contract.steps.raise (other w.stats)
  · exact Triple.bind (M := fun _ => Refusing I X err)
      (Triple.update fun s held => ⟨contract.book _ .finishInFlight s held.1,
        fun refused => contract.finish s (held.2 refused)⟩) fun _ => Triple.raise fun _ held => held

theorem replaces (c : RequestContext) (a : TurnAnswers) (holds : P a.restart) :
    Replaces I (Refusing I X) c a where
  overLimit waits _ _ s held :=
    Keeping.bind .worker (fun _ => contract.replaceAndFail c waits a _ _ (fun _ => rfl) holds) s
      held.1
  late waits := contract.replaceAndFail c waits a _ _ (fun _ => rfl) holds
  cancelled waits := contract.replaceAndFail c waits a _ _ (fun _ => rfl) holds

end Contract

def RequestAnswers.restarts (a : RequestAnswers) : List RestartAnswers :=
  a.prepare.restart :: a.turns.map TurnAnswers.restart

/-- What the restarts that an operation may come to are answered with. -/
def Op.restarts : Op → List RestartAnswers
  | .status _ | .rssKib _ | .setRequestTimeout _ | .recordCapabilityOpenTiming _ _
  | .recordCommandTiming _ _ | .killForTest _ | .shutdown _ => []
  | .cycle a | .cycleWithRestartReason _ a => [a]
  | .health a | .loadFixtureCapability _ a | .callFixtureMul _ _ _ a
  | .triggerLeanPanicFixture _ a | .emitTestRows _ _ a | .emitTestRowsThenExit _ a
  | .emitTestRowsThenPanic _ a => a.restarts
  | .openWorkerSession _ _ a => a.deferred :: a.request.restarts
  | .elaborate _ _ _ a | .kernelCheck _ _ _ a | .declarationKinds _ _ a
  | .declarationNames _ _ a | .inferType _ _ _ a | .whnf _ _ _ a | .isDefEq _ _ _ _ _ a
  | .describe _ _ a | .searchDeclarations _ _ a | .declarationType _ _ _ a
  | .inspectDeclaration _ _ a | .attemptProof _ _ _ a | .describeBulk _ _ a
  | .processModuleQuery _ _ _ _ a | .clearModuleSnapshotCache _ a | .jsonCommand _ _ _ a
  | .capabilityMetadata _ _ _ a | .capabilityDoctor _ _ _ a | .runDataStream _ _ _ _ _ a
  | .listDeclarationsStrings _ _ _ a => a.restarts
  | .verifyDeclaration _ _ _ _ a recover | .verifyDeclarationBatch _ _ _ _ _ a recover
  | .processModuleQueryBatch _ _ _ _ _ _ a recover => recover :: a.restarts

structure RequestAnswers.All (P : RestartAnswers → Prop) (a : RequestAnswers) : Prop where
  prepare : P a.prepare.restart
  turns : ∀ turn ∈ a.turns, P turn.restart

theorem RequestAnswers.all_of_restarts {P : RestartAnswers → Prop} {a : RequestAnswers}
    (holds : ∀ restart ∈ a.restarts, P restart) : a.All P where
  prepare := holds _ List.mem_cons_self
  turns _ member := holds _ (.tail _ (List.mem_map_of_mem member))

theorem RequestAnswers.all_of_more {P : RestartAnswers → Prop} {a : RequestAnswers}
    {first : RestartAnswers} (holds : ∀ restart ∈ first :: a.restarts, P restart) :
    P first ∧ a.All P :=
  ⟨holds _ List.mem_cons_self, all_of_restarts fun _ member => holds _ (.tail _ member)⟩

namespace Contract

variable {P : RestartAnswers → Prop} {I X : World → Prop} {A : Type} (contract : Contract P I X)

include contract

theorem admits (importLike : Bool) (a : RequestAnswers) (holds : a.All P) :
    Admits I I (Refusing I X) importLike a where
  start _ held := held
  prepare := contract.steps.prepareRequest importLike a.prepare fun _ reason _ =>
    contract.replace reason a.prepare.restart holds.prepare
  replaces c turn member := contract.replaces c turn (holds.turns turn member)

theorem exchange (operation : String) (request : Request) (importLike : Bool) (sinks : Sinks)
    (a : RequestAnswers) (holds : a.All P) :
    Keeping I (Refusing I X) (exchange operation request importLike sinks a) :=
  contract.steps.exchange (contract.admits importLike a holds) operation request sinks

theorem roundTrip (operation : String) (request : Request) (importLike progress : Bool)
    (extract : Response → Except LeanWorkerError A)
    (other : ∀ response e, extract response = .error e → e.isRefusal = false)
    (a : RequestAnswers) (holds : a.All P) :
    Keeping I (Refusing I X) (roundTrip operation request importLike progress extract a) :=
  contract.steps.roundTrip (contract.admits importLike a holds) operation request progress extract
    other

theorem emitTestRowsThen (operation : String) (request : Request) (data : Bool)
    (a : RequestAnswers) (holds : a.All P) :
    Keeping I (Refusing I X) (emitTestRowsThen operation request data a) :=
  .bind (contract.steps.idle (.checkCancelled _ _)) fun _ =>
    .bind (contract.exchange _ _ _ _ _ holds) fun _ => contract.steps.raise rfl

theorem triggerLeanPanicFixture (built : Except String PathBuf) (a : RequestAnswers)
    (holds : a.All P) : Keeping I (Refusing I X) (triggerLeanPanicFixture built a) := by
  refine .bind (contract.steps.idle (.manifest built)) fun _ =>
    .bind (contract.steps.issueRequest (contract.admits _ a holds) _) fun _ =>
    .captured (contract.steps.readResponseWithEvents _ _ _ _
      (contract.admits false _ holds).replaces) (fun _ => contract.steps.raise rfl)
      fun err => ?_
  cases err with
  | childPanicOrAbort exit => exact Triple.pure (E := LeanWorkerError) fun _ held => held.1
  | _ => exact Triple.raise fun _ held => held

theorem degradable {D : Type} (truncate : String → String) (operation : String)
    (trip : Supervisor A) (verdict : LeanWorkerError → LeanWorker → D) (recover : RestartAnswers)
    (holds : P recover) (body : Keeping I (Refusing I X) trip) :
    Keeping I (Refusing I X) (degradable truncate operation trip verdict recover) := by
  refine .captured body (fun _ => .pure _) fun err => ?_
  refine Triple.bind (M := fun _ => Refusing I X err) (fun _ held => held) fun w =>
    Triple.bind (M := fun _ => I) ?_ fun _ => Triple.pure fun _ held => held
  cases err with
  | childPanicOrAbort exit =>
    exact fun s held => contract.replace _ recover holds s held.1
  | _ => exact Triple.raise fun _ held => held

theorem takePendingRestart (a : RestartAnswers) (holds : P a) :
    Keeping I (Refusing I X) (takePendingRestart a) := by
  refine .bind .worker fun w => ?_
  split
  · exact .bind (contract.steps.modify (fun w => { w with pendingRestart := none })
      ⟨fun _ => rfl, fun _ exhausted => exhausted⟩ fun _ => rfl) fun _ => contract.replace _ a holds
  · exact .pure _

theorem openWorkerSession (config : LeanWorkerSessionConfig) (progress : Bool) (a : OpenAnswers)
    (deferred : P a.deferred) (holds : a.request.All P) :
    Keeping I (Refusing I X) (openWorkerSession config progress a) :=
  .bind (contract.steps.idle (.checkCancelled _ _)) fun _ => .bind .worker fun _ =>
    .bind (contract.takePendingRestart _ deferred) fun _ =>
    contract.steps.requestWorkerSession (fun _ s held => ⟨contract.book
      (fun worker => { worker with openSessionKeys := [] })
      ⟨fun _ => rfl, fun _ exhausted => exhausted⟩ s held.1, fun refused =>
        contract.forget s (held.2 refused)⟩) _ _ _ _ fun _ _ => contract.admits _ _ holds

theorem perform (op : Op) (holds : ∀ a ∈ op.restarts, P a) :
    Keeping I (Refusing I X) op.perform := by
  have trip {A : Type} (operation : String) (request : Request) (progress : Bool)
      (select : Response → Option A) (a : RequestAnswers) (holds : ∀ r ∈ a.restarts, P r) :
      Keeping I (Refusing I X) (LeanRs.discard (LeanRs.roundTrip operation request false progress
        (expecting operation select) a)) :=
    (contract.roundTrip operation request false progress _ (expecting_other _ _) a
      (RequestAnswers.all_of_restarts holds)).discard
  cases op with
  | status answer =>
    exact Keeping.discard (contract.steps.ofPreserves (contract.status answer) (status_spares _))
  | rssKib sample =>
    exact Keeping.discard (.bind .worker fun w => .bind
      (contract.steps.count _ (tally_rssSampled _)) fun _ => .pure _)
  | setRequestTimeout timeout =>
    have books : Bookkeeping fun w =>
        { w with config := { w.config with requestTimeout := timeout } } :=
      ⟨fun _ => rfl, fun _ exhausted => exhausted⟩
    exact contract.steps.ofPreserves (contract.book _ books) fun _ _ => trivial
  | recordCapabilityOpenTiming load opened =>
    exact contract.steps.count (fun stats => stats.capabilityOpenTimed load opened) fun _ => rfl
  | recordCommandTiming first elapsed =>
    refine contract.steps.count _ fun stats => ?_
    cases first <;> rfl
  | cycle a => exact contract.replace _ a (holds a List.mem_cons_self)
  | cycleWithRestartReason reason a => exact contract.replace reason a (holds a List.mem_cons_self)
  | killForTest answer =>
    exact .bind .worker fun w => .choose
      (fun _ => contract.steps.ofPreserves (contract.killChild answer) (killChild_spares answer))
      fun _ => contract.steps.raise (LeanWorkerError.isRefusal_ofExit _)
  | shutdown a =>
    exact Keeping.discard
      (contract.steps.ofPreserves (contract.shutdown a) (shutdownChild_spares a .graceful))
  | health a =>
    refine .bind (contract.exchange _ _ _ _ _ (RequestAnswers.all_of_restarts holds))
      fun response => ?_
    split
    · exact .pure _
    · exact contract.steps.raise rfl
  | loadFixtureCapability built a =>
    refine .bind (contract.steps.idle (.manifest built)) fun _ =>
      .bind (contract.exchange _ _ _ _ _ (RequestAnswers.all_of_restarts holds)) fun response => ?_
    split
    · exact .pure _
    · exact contract.steps.raise rfl
  | callFixtureMul built lhs rhs a =>
    refine Keeping.discard (.bind (contract.steps.idle (.manifest built)) fun _ =>
      .bind (contract.exchange _ _ _ _ _ (RequestAnswers.all_of_restarts holds))
        fun response => ?_)
    split
    · exact .pure _
    · exact contract.steps.raise rfl
  | triggerLeanPanicFixture built a =>
    exact (contract.triggerLeanPanicFixture built a (RequestAnswers.all_of_restarts holds)).discard
  | emitTestRows streams data a =>
    refine Keeping.discard (.bind (contract.steps.idle (.checkCancelled _ _)) fun _ =>
      .bind (contract.exchange _ _ _ _ _ (RequestAnswers.all_of_restarts holds))
        fun response => ?_)
    split
    · exact .pure _
    · exact contract.steps.raise rfl
  | emitTestRowsThenExit data a =>
    exact contract.emitTestRowsThen _ _ data a (RequestAnswers.all_of_restarts holds)
  | emitTestRowsThenPanic data a =>
    exact contract.emitTestRowsThen _ _ data a (RequestAnswers.all_of_restarts holds)
  | openWorkerSession config progress a =>
    have all := RequestAnswers.all_of_more holds
    exact contract.openWorkerSession config progress a all.1 all.2
  | capabilityMetadata progress exportName requestJson a =>
    exact Keeping.discard (contract.steps.workerCapabilityMetadata
      (contract.admits false a (RequestAnswers.all_of_restarts holds)) progress exportName
      requestJson)
  | capabilityDoctor progress exportName requestJson a =>
    exact Keeping.discard (contract.steps.workerCapabilityDoctor
      (contract.admits false a (RequestAnswers.all_of_restarts holds)) progress exportName
      requestJson)
  | verifyDeclaration progress truncate request options a recover =>
    have all := RequestAnswers.all_of_more holds
    exact (contract.degradable truncate _ _ _ recover all.1
      (contract.roundTrip _ _ _ _ _ (expecting_other _ _) a all.2)).discard
  | verifyDeclarationBatch progress truncate targets request options a recover =>
    have all := RequestAnswers.all_of_more holds
    exact (contract.degradable truncate _ _ _ recover all.1
      (contract.roundTrip _ _ _ _ _ (expecting_other _ _) a all.2)).discard
  | processModuleQueryBatch progress truncate source selectors budgets options a recover =>
    have all := RequestAnswers.all_of_more holds
    exact (contract.degradable truncate _ _ _ recover all.1
      (contract.roundTrip _ _ _ _ _ (expecting_other _ _) a all.2)).discard
  | runDataStream progress exportName requestJson rows diagnostics a =>
    exact Keeping.discard (contract.steps.workerRunDataStream
      (contract.admits false a (RequestAnswers.all_of_restarts holds)) progress exportName
      requestJson rows diagnostics)
  | listDeclarationsStrings progress decode filter a =>
    exact Keeping.discard (contract.steps.workerListDeclarationsStrings
      (contract.admits false a (RequestAnswers.all_of_restarts holds)) progress decode filter)
  | _ => exact trip _ _ _ _ _ holds

end Contract

end LeanRs
