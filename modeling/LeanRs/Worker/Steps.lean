import LeanRs.Worker.Invariants

/-! The steps of one request, for any invariant that bookkeeping keeps and any postcondition of
what is raised: what is left to say of each is what becomes of its restarts. -/
namespace LeanRs

open Procedures Procedure Supervisor

def LeanWorkerError.isRefusal : LeanWorkerError → Bool
  | .restartLimitExceeded _ _ => true
  | _ => false

@[simp] theorem LeanWorkerError.isRefusal_ofExit (exit : LeanWorkerExit) :
    (LeanWorkerError.ofExit exit).isRefusal = false := by
  unfold ofExit
  split <;> rfl

def WorkerSupervisorState.isExhausted : WorkerSupervisorState → Bool
  | .restartExhausted _ => true
  | _ => false

/-- What only a stop or a restart may change. -/
structure Lifeline where
  child : Option Nat
  stdin : Bool
  lastExit : Option LeanWorkerExit
  generation : Nat
  restartWindow : List Instant
  restartPolicy : LeanWorkerRestartPolicy
  restarts : Nat
  attempts : Nat
  successes : Nat
  failures : Nat

def LeanWorkerStats.replacements (stats : LeanWorkerStats) : Nat × Nat × Nat × Nat :=
  (stats.restarts, stats.replacementAttempts, stats.replacementSuccesses, stats.replacementFailures)

def LeanWorker.lifeline (w : LeanWorker) : Lifeline where
  child := w.child
  stdin := w.stdin
  lastExit := w.lastExit
  generation := w.generation
  restartWindow := w.restartWindow
  restartPolicy := w.config.restartPolicy
  restarts := w.stats.replacements.1
  attempts := w.stats.replacements.2.1
  successes := w.stats.replacements.2.2.1
  failures := w.stats.replacements.2.2.2

/-- Bookkeeping leaves the life of the child alone, and never says that restarts are exhausted. -/
structure Bookkeeping (f : LeanWorker → LeanWorker) : Prop where
  lifeline : ∀ w, (f w).lifeline = w.lifeline
  exhausted : ∀ w, (f w).state.isExhausted = true → w.state.isExhausted = true

namespace Bookkeeping

theorem counted {f : LeanWorkerStats → LeanWorkerStats}
    (same : ∀ stats, (f stats).replacements = stats.replacements) :
    Bookkeeping fun w => w.counted f where
  lifeline w := by simp only [LeanWorker.lifeline, LeanWorker.counted, same]
  exhausted _ exhausted := exhausted

theorem finishInFlight : Bookkeeping LeanWorker.finishInFlight where
  lifeline w := by
    unfold LeanWorker.finishInFlight
    split <;> rfl
  exhausted w := by
    unfold LeanWorker.finishInFlight
    split <;> first | exact id | exact nofun

theorem markCurrentRequestStreaming : Bookkeeping LeanWorker.markCurrentRequestStreaming where
  lifeline w := by
    unfold LeanWorker.markCurrentRequestStreaming
    split <;> rfl
  exhausted w := by
    unfold LeanWorker.markCurrentRequestStreaming
    split <;> first | exact id | exact nofun

end Bookkeeping

/-- The effects of a request beside those of a stop or a restart. -/
def Effect.ofRequest : Effect → Bool
  | .write _ _ | .receive _ | .deliver _ => true
  | _ => false

section

variable {A B : Type}

def Spares (m : Supervisor A) : Prop :=
  Triple (fun _ => True) m (fun _ _ => True) (fun e _ => e.isRefusal = false)

theorem Spares.pure (a : A) : Spares (pure a : Supervisor A) := Triple.pure fun _ _ => trivial

theorem Spares.raise {e : LeanWorkerError} (other : e.isRefusal = false) :
    Spares (raise e : Supervisor A) := Triple.raise fun _ _ => other

theorem Spares.worker : Spares worker := fun _ _ => trivial

theorem Spares.modify (f : LeanWorker → LeanWorker) : Spares (modify f) := fun _ _ => trivial

theorem Spares.emit (e : Effect) : Spares (emit e) := fun _ _ => trivial

theorem Spares.wait : Spares (wait : Supervisor A) := fun _ _ => trivial

theorem Spares.bind {m : Supervisor A} {f : A → Supervisor B} (first : Spares m)
    (next : ∀ a, Spares (f a)) : Spares (m >>= f) := Triple.bind first next

theorem Spares.choose {c : Prop} [Decidable c] {m n : Supervisor A} (yes : c → Spares m)
    (no : ¬c → Spares n) : Spares (if c then m else n) := Triple.choose yes no

theorem Spares.captured {m : Supervisor A} {f : Except LeanWorkerError A → Supervisor B}
    (body : Spares m) (ok : ∀ a, Spares (f (.ok a)))
    (error : ∀ e, e.isRefusal = false → Spares (f (.error e))) : Spares (capture m >>= f) := by
  refine Triple.bind (M := fun result _ => ∀ e, result = .error e → e.isRefusal = false)
    (Triple.capture (body.consequence (fun _ h => h) (fun _ _ _ _ => nofun)
      fun e _ other e' same => Except.error.inj same ▸ other)) fun result s held => ?_
  cases result with
  | ok a => exact ok a s trivial
  | error e => exact error e (held e rfl) s trivial

theorem reportParentProgress_spares (present : Bool) (tick : ProgressTick) (elapsed : Duration)
    (sink : SinkAnswer) : Spares (reportParentProgress present tick elapsed sink) := by
  refine .choose (fun _ => .bind (.emit _) fun _ => ?_) fun _ => .pure _
  cases sink
  · exact .pure _
  · exact .pure _
  · exact .raise rfl

theorem reportParentDiagnostic_spares (present : Bool) (diagnostic : Diagnostic)
    (sink : SinkAnswer) : Spares (reportParentDiagnostic present diagnostic sink) := by
  refine .choose (fun _ => .bind (.emit _) fun _ => ?_) fun _ => .pure _
  cases sink
  · exact .pure _
  · exact .pure _
  · exact .raise rfl

theorem reportParentDataRow_spares (target : Option DataSinkTarget) (row : DataRow)
    (sink : SinkAnswer) : Spares (reportParentDataRow target row sink) := by
  unfold reportParentDataRow
  split
  · exact .raise rfl
  · exact .raise rfl
  · exact .bind (.emit _) fun _ => .raise rfl
  · exact .emit _

theorem checkCancelled_spares (operation : String) (cancelled : Bool) :
    Spares (checkCancelled operation cancelled) := .choose (fun _ => .raise rfl) fun _ => .pure _

theorem encoded_spares (requestJson : Except String JsonText) (failure : String → ProtocolText) :
    Spares (encoded requestJson failure) := by
  cases requestJson
  · exact .raise rfl
  · exact .pure _

theorem fixtureCapabilityManifest_spares (built : Except String PathBuf) :
    Spares (fixtureCapabilityManifest built) := by
  cases built
  · exact .raise rfl
  · exact .pure _

/-- A step that leaves the world alone and raises no refusal. -/
structure Idle (m : Supervisor A) : Prop where
  still : ∀ s, (m s).Meets (fun _ t => t = s) (fun _ t => t = s)
  spares : Spares m

namespace Idle

theorem pure (a : A) : Idle (pure a : Supervisor A) := ⟨fun _ => rfl, .pure _⟩

theorem raise {e : LeanWorkerError} (other : e.isRefusal = false) :
    Idle (raise e : Supervisor A) := ⟨fun _ => rfl, .raise other⟩

theorem checkCancelled (operation : String) (cancelled : Bool) :
    Idle (checkCancelled operation cancelled) := by
  refine ⟨fun s => ?_, checkCancelled_spares _ _⟩
  cases cancelled <;> rfl

theorem encoded (requestJson : Except String JsonText) (failure : String → ProtocolText) :
    Idle (encoded requestJson failure) := by
  refine ⟨fun s => ?_, encoded_spares _ _⟩
  cases requestJson <;> rfl

theorem manifest (built : Except String PathBuf) : Idle (fixtureCapabilityManifest built) := by
  refine ⟨fun s => ?_, fixtureCapabilityManifest_spares _⟩
  cases built <;> rfl

theorem liftResult {extract : Response → Except LeanWorkerError A}
    (other : ∀ response e, extract response = .error e → e.isRefusal = false)
    (response : Response) : Idle (liftResult (extract response)) := by
  cases result : extract response with
  | ok value => exact .pure _
  | error e => exact .raise (other response e result)

end Idle

theorem expecting_other (operation : String) (select : Response → Option A) (response : Response)
    (e : LeanWorkerError) (failed : expecting operation select response = .error e) :
    e.isRefusal = false := by
  unfold expecting at failed
  split at failed <;> cases failed
  rfl

end

/-- The ceiling on the sampled size of the child, as a request is admitted. -/
def LeanWorker.rssCeiling (w : LeanWorker) (sample : Option Nat) :
    Option LeanWorkerRestartReason :=
  w.config.restartPolicy.maxRssKib.bind fun limitKib =>
    ((w.childRssKib sample).filter fun currentKib => limitKib ≤ currentKib).map fun currentKib =>
      .rssCeiling currentKib limitKib w.stats.lastImportStats

/-- The restart that the policy asks for before the request is sent. -/
def LeanWorker.policyRestart (w : LeanWorker) (importLike : Bool) (a : PrepareAnswers) :
    Option LeanWorkerRestartReason :=
  (w.countedLimitReached importLike).or ((w.rssCeiling a.rss).or (w.idleLimitReached a.idleFor))

/-- A change of the counters that leaves those of the restarts alone. -/
def Tally (f : LeanWorkerStats → LeanWorkerStats) : Prop :=
  ∀ stats, (f stats).replacements = stats.replacements

theorem Tally.comp {f g : LeanWorkerStats → LeanWorkerStats} (first : Tally f) (second : Tally g) :
    Tally fun stats => g (f stats) := fun stats => (second (f stats)).trans (first stats)

theorem tally_id : Tally id := fun _ => rfl

theorem tally_rssSampled (sample : Option Nat) : Tally fun stats => stats.rssSampled sample := by
  intro stats
  cases sample <;> rfl

theorem tally_admitted (importLike : Bool) : Tally fun stats => stats.admitted importLike := by
  intro stats
  cases importLike <;> rfl

theorem countImportLikeAdmission_apply (importLike : Bool) (sample : Option Nat) (s : World) :
    ∃ f, Tally f ∧ (∀ stats, (f stats).lastImportStats = stats.lastImportStats) ∧
      countImportLikeAdmission importLike sample s =
        .returned () ⟨s.worker.counted f, s.effects⟩ := by
  cases importLike with
  | true =>
    exact ⟨fun stats => stats.importLikeAttempted (s.worker.childRssKib sample), fun _ => rfl,
      fun _ => rfl, rfl⟩
  | false => exact ⟨id, tally_id, fun _ => rfl, rfl⟩

theorem rssCeilingReached_apply (sample : Option Nat) (s : World) :
    ∃ f, Tally f ∧ rssCeilingReached sample s =
      .returned (s.worker.rssCeiling sample) ⟨s.worker.counted f, s.effects⟩ := by
  unfold rssCeilingReached LeanWorker.rssCeiling
  rw [bind_apply, worker_apply, Outcome.andThen_returned]
  cases s.worker.config.restartPolicy.maxRssKib with
  | none => exact ⟨id, tally_id, rfl⟩
  | some limitKib =>
    exact ⟨fun stats => stats.rssSampled (s.worker.childRssKib sample), tally_rssSampled _, rfl⟩

/-- What is left of the admission of a request to a running child is the restart that the policy
asks for. -/
theorem prepareRequest_running (importLike : Bool) (a : PrepareAnswers) {s t : World}
    (running : ensureRunning a.poll s = .returned () t) :
    ∃ f, Tally f ∧ prepareRequest importLike a s =
      match t.worker.policyRestart importLike a with
      | some reason => restartAdmitting importLike reason a.restart
        ⟨t.worker.counted f, t.effects⟩
      | none => .returned () ⟨t.worker.counted f, t.effects⟩ := by
  obtain ⟨f, tally, imports, attempted⟩ :=
    countImportLikeAdmission_apply importLike a.rssBeforeAdmission t
  unfold prepareRequest LeanWorker.policyRestart
  rw [bind_apply, running, Outcome.andThen_returned, bind_apply, attempted,
    Outcome.andThen_returned, bind_apply, worker_apply, Outcome.andThen_returned]
  have counted : (t.worker.counted f).countedLimitReached importLike =
      t.worker.countedLimitReached importLike := rfl
  have ceiling : (t.worker.counted f).rssCeiling a.rss = t.worker.rssCeiling a.rss := by
    unfold LeanWorker.rssCeiling
    rw [LeanWorker.counted_stats, imports]
    rfl
  obtain ⟨g, sampled, reached⟩ := rssCeilingReached_apply a.rss ⟨t.worker.counted f, t.effects⟩
  simp only [counted]
  cases t.worker.countedLimitReached importLike with
  | some reason => exact ⟨f, tally, rfl⟩
  | none =>
    simp only [bind_apply, reached, Outcome.andThen_returned, ceiling]
    cases t.worker.rssCeiling a.rss with
    | some reason => exact ⟨fun stats => g (f stats), tally.comp sampled, rfl⟩
    | none =>
      have idle : (t.worker.counted f).idleLimitReached a.idleFor =
          t.worker.idleLimitReached a.idleFor := rfl
      simp only [idle]
      cases t.worker.idleLimitReached a.idleFor with
      | some reason => exact ⟨fun stats => g (f stats), tally.comp sampled, rfl⟩
      | none =>
        exact ⟨fun stats => (g (f stats)).admitted importLike,
          (tally.comp sampled).comp (tally_admitted importLike), rfl⟩

def Keeping (I : World → Prop) (E : LeanWorkerError → World → Prop) {A : Type}
    (m : Supervisor A) : Prop := Triple I m (fun _ => I) E

/-- The steps keep `I`. What they raise without having restarted anything meets `E`. -/
structure Steps (I : World → Prop) (E : LeanWorkerError → World → Prop) : Prop where
  raises : ∀ e s, e.isRefusal = false → I s → E e s
  book : ∀ f, Bookkeeping f → (∀ w, (f w).config = w.config) → Preserves I (modify f)
  emit : ∀ e, e.ofRequest = true → Preserves I (Supervisor.emit e)
  running : ∀ answer, Keeping I E (ensureRunning answer)
  exited : ∀ answer, Keeping I E (recordExitError answer)

namespace Keeping

variable {I : World → Prop} {E : LeanWorkerError → World → Prop} {A B : Type}

theorem pure (a : A) : Keeping I E (pure a : Supervisor A) := Triple.pure fun _ h => h

theorem worker : Keeping I E worker := fun _ h => h

theorem wait : Keeping I E (wait : Supervisor A) := Triple.wait

theorem bind {m : Supervisor A} {f : A → Supervisor B} (first : Keeping I E m)
    (next : ∀ a, Keeping I E (f a)) : Keeping I E (m >>= f) := Triple.bind first next

theorem choose {c : Prop} [Decidable c] {m n : Supervisor A} (yes : c → Keeping I E m)
    (no : ¬c → Keeping I E n) : Keeping I E (if c then m else n) := Triple.choose yes no

theorem discard {m : Supervisor A} (body : Keeping I E m) : Keeping I E (discard m) :=
  body.bind fun _ => .pure _

theorem captured {m : Supervisor A} {f : Except LeanWorkerError A → Supervisor B}
    (body : Keeping I E m) (ok : ∀ a, Keeping I E (f (.ok a)))
    (error : ∀ e, Triple (E e) (f (.error e)) (fun _ => I) E) :
    Keeping I E (capture m >>= f) := Triple.captured body ok error

end Keeping

/-- What a turn that gives its child up comes to, by cause. -/
structure Replaces (I : World → Prop) (E : LeanWorkerError → World → Prop) (c : RequestContext)
    (a : TurnAnswers) : Prop where
  overLimit : ∀ waits currentKib limitKib, Triple
    (fun s => I s ∧ s.worker.config.rssHardLimitKib = some limitKib ∧
      a.rss = some currentKib ∧ limitKib ≤ currentKib)
    (hardLimitExit c waits a currentKib limitKib) (fun _ => I) E
  late : ∀ waits, Keeping I E (timeoutExit c waits a)
  cancelled : ∀ waits, Keeping I E (cancelledExit c waits a)

namespace Steps

variable {I : World → Prop} {E : LeanWorkerError → World → Prop} {A : Type} (steps : Steps I E)

include steps

theorem raise {e : LeanWorkerError} (other : e.isRefusal = false) :
    Keeping I E (raise e : Supervisor A) := Triple.raise fun s held => steps.raises e s other held

theorem ofPreserves {m : Supervisor A} (preserves : Preserves I m) (spares : Spares m) :
    Keeping I E m := by
  intro s start
  have spared : Triple I m (fun _ _ => True) (fun e _ => e.isRefusal = false) :=
    fun s _ => spares s trivial
  exact (Triple.both preserves spared s start).weaken (fun _ _ held => held.1)
    fun e t held => steps.raises e t held.2 held.1

theorem idle {m : Supervisor A} (idle : Idle m) : Keeping I E m := by
  refine steps.ofPreserves (fun s start => ?_) idle.spares
  exact (idle.still s).weaken (fun _ _ same => same ▸ start) fun _ _ same => same ▸ start

theorem modify (f : LeanWorker → LeanWorker) (books : Bookkeeping f)
    (config : ∀ w, (f w).config = w.config) : Keeping I E (modify f) :=
  steps.ofPreserves (steps.book f books config) (.modify f)

theorem count (f : LeanWorkerStats → LeanWorkerStats)
    (same : ∀ stats, (f stats).replacements = stats.replacements) : Keeping I E (count f) :=
  steps.modify _ (.counted same) fun _ => rfl

theorem effect (e : Effect) (request : e.ofRequest = true) : Keeping I E (Supervisor.emit e) :=
  steps.ofPreserves (steps.emit e request) (.emit e)

theorem writeRequest (request : Request) (answer : WriteAnswer) :
    Keeping I E (writeRequest request answer) := by
  refine .bind .worker fun w => .choose (fun _ => .bind (steps.effect _ rfl) fun _ => ?_)
    fun _ => steps.raise (LeanWorkerError.isRefusal_ofExit _)
  cases answer
  · exact .pure _
  · exact steps.raise rfl
  · exact steps.raise rfl

theorem sendRequest (poll : TryWait) (request : Request) (answer : WriteAnswer) :
    Keeping I E (sendRequest poll request answer) :=
  .bind (steps.running poll) fun _ => steps.writeRequest request answer

theorem recordRequest (importLike : Bool) (now : Instant) :
    Keeping I E (recordRequest importLike now) :=
  steps.modify _ ⟨fun _ => rfl, fun _ exhausted => exhausted⟩ fun _ => rfl

variable (c : RequestContext) (waits : Nat) (a : TurnAnswers)

theorem finishInFlight : Keeping I E (Supervisor.modify LeanWorker.finishInFlight) := by
  refine steps.modify _ .finishInFlight fun w => ?_
  unfold LeanWorker.finishInFlight
  split <;> rfl

theorem recordStreamFailure (elapsed : Duration) :
    Keeping I E (recordStreamFailure c elapsed waits) :=
  .choose (fun _ => steps.count _ fun _ => rfl) fun _ => .pure _

theorem terminalizeRequestFailure (elapsed : Duration) :
    Keeping I E (terminalizeRequestFailure c elapsed waits) :=
  .bind (steps.recordStreamFailure c waits elapsed) fun _ => steps.finishInFlight

theorem terminalize (elapsed : Duration) {e : LeanWorkerError} (other : e.isRefusal = false) :
    Keeping I E (LeanRs.terminalizeRequestFailure c elapsed waits >>= fun _ =>
      (Procedure.raise e : Supervisor A)) :=
  .bind (steps.terminalizeRequestFailure c waits elapsed) fun _ => steps.raise other

theorem hardRssLimitExceeded (sample : Option Nat) :
    Triple I (hardRssLimitExceeded sample)
      (fun found s => I s ∧ ∀ currentKib limitKib, found = some (currentKib, limitKib) →
        s.worker.config.rssHardLimitKib = some limitKib ∧ sample = some currentKib ∧
          limitKib ≤ currentKib) E := by
  intro s held
  unfold LeanRs.hardRssLimitExceeded
  rw [bind_apply, worker_apply, Outcome.andThen_returned]
  cases limit : s.worker.config.rssHardLimitKib with
  | none => exact ⟨held, nofun⟩
  | some limitKib =>
    have counted : Keeping I E (Supervisor.count fun stats =>
        stats.rssSampled (s.worker.childRssKib sample)) := by
      refine steps.count _ fun stats => ?_
      cases s.worker.childRssKib sample <;> rfl
    refine ⟨counted s held, fun currentKib limitKib' found => ?_⟩
    obtain ⟨read, above, same⟩ := Option.map_eq_some_iff.mp found
    cases same
    rw [Option.filter_eq_some_iff] at above
    refine ⟨limit, ?_, by simpa using above.2⟩
    have sampled := above.1
    unfold LeanWorker.childRssKib at sampled
    split at sampled
    · exact sampled
    · cases sampled

theorem receiveEvent : Keeping I E (receiveEvent c a) := by
  refine .bind .worker fun w => ?_
  split
  · exact .pure _
  · refine .bind (steps.effect _ rfl) fun _ => ?_
    split <;> exact .pure _
  · refine .bind (steps.effect _ rfl) fun _ => ?_
    split
    · exact .pure _
    · exact .wait
    · exact .pure _

theorem reportParentProgress (present : Bool) (tick : ProgressTick) (elapsed : Duration)
    (sink : SinkAnswer) : Preserves I (reportParentProgress present tick elapsed sink) := by
  refine .choose (fun _ => .bind (steps.emit _ rfl) fun _ => ?_) fun _ => .pure _
  cases sink
  · exact .pure _
  · exact .pure _
  · exact .raise _

theorem reportParentDiagnostic (present : Bool) (diagnostic : Diagnostic) (sink : SinkAnswer) :
    Preserves I (reportParentDiagnostic present diagnostic sink) := by
  refine .choose (fun _ => .bind (steps.emit _ rfl) fun _ => ?_) fun _ => .pure _
  cases sink
  · exact .pure _
  · exact .pure _
  · exact .raise _

theorem reportParentDataRow (target : Option DataSinkTarget) (row : DataRow)
    (sink : SinkAnswer) : Preserves I (reportParentDataRow target row sink) := by
  unfold LeanRs.reportParentDataRow
  split
  · exact .raise _
  · exact .raise _
  · exact .bind (steps.emit _ rfl) fun _ => .raise _
  · exact steps.emit _ rfl

theorem orTerminalize {report : Supervisor Unit} (reports : Preserves I report)
    (spares : Spares report) : Keeping I E (orTerminalize c waits a report) := by
  have spared : Triple I report (fun _ _ => True) (fun e _ => e.isRefusal = false) :=
    fun s _ => spares s trivial
  refine Triple.bind (M := fun result s => I s ∧ ∀ e, result = .error e → e.isRefusal = false)
    (Triple.capture fun s start => ?_) fun result s held => ?_
  · exact (Triple.both reports spared s start).weaken (fun _ _ held => ⟨held.1, fun _ => nofun⟩)
      fun e _ held => ⟨held.1, fun e' same => Except.error.inj same ▸ held.2⟩
  cases result with
  | ok _ => exact held.1
  | error err => exact steps.terminalize c waits _ (held.2 err rfl) s held.1

theorem handleTerminal (message : Message) : Keeping I E (handleTerminal c waits a message) := by
  have answered : ∀ response : Response, Keeping I E
      (terminalizeRequestResponse c response a.streamElapsed waits >>= fun _ =>
        (Pure.pure (Turn.complete response) : Supervisor Turn)) := fun response =>
    .bind (.bind (.choose (fun _ => steps.count _ fun _ => rfl)
      fun _ => steps.recordStreamFailure c waits _) fun _ => steps.finishInFlight)
      fun _ => .pure _
  refine .bind (steps.modify _ ⟨fun _ => rfl, fun _ exhausted => exhausted⟩ fun _ => rfl)
    fun _ => ?_
  cases message with
  | response response =>
    cases response with
    | error code text => exact steps.terminalize c waits _ rfl
    | _ => exact answered _
  | _ => exact steps.terminalize c waits _ rfl

variable {c a} (replaces : Replaces I E c a)

include replaces

omit steps in
theorem orCancel : Keeping I E (orCancel c waits a) :=
  .choose (fun _ => replaces.cancelled waits) fun _ => .pure _

theorem handleMessage (message : Message) : Keeping I E (handleMessage c waits a message) := by
  have mark : Keeping I E (Supervisor.modify LeanWorker.markCurrentRequestStreaming) := by
    refine steps.modify _ .markCurrentRequestStreaming fun w => ?_
    unfold LeanWorker.markCurrentRequestStreaming
    split <;> rfl
  cases message with
  | progressTick tick =>
    exact .bind mark fun _ => .bind (steps.orTerminalize c waits a
      (steps.reportParentProgress _ _ _ _) (reportParentProgress_spares _ _ _ _)) fun _ =>
        orCancel waits replaces
  | dataRow row =>
    exact .bind mark fun _ => .bind (steps.orTerminalize c waits a
      (steps.reportParentDataRow _ _ _) (reportParentDataRow_spares _ _ _)) fun _ =>
        .bind (steps.count _ fun _ => rfl) fun _ => orCancel waits replaces
  | diagnostic diagnostic =>
    exact .bind mark fun _ => .bind (steps.orTerminalize c waits a
      (steps.reportParentDiagnostic _ _ _) (reportParentDiagnostic_spares _ _ _)) fun _ =>
        .pure _
  | _ => exact steps.terminalize c waits _ rfl

theorem handleEvent (event : RequestReaderEvent) :
    Keeping I E (handleEvent c waits a event) := by
  refine .bind .worker fun w => .choose (fun _ => .bind steps.finishInFlight fun _ =>
    steps.raise rfl) fun _ => .choose (fun _ => .bind steps.finishInFlight fun _ =>
    .bind .worker fun _ => steps.raise rfl) fun _ => .bind (steps.count _ fun _ => rfl) fun _ => ?_
  cases event with
  | message generation requestId message backpressure =>
    exact steps.handleMessage _ replaces message
  | terminal generation requestId message backpressure => exact steps.handleTerminal c _ a message
  | readError generation requestId text eof backpressure =>
    exact .bind (steps.terminalizeRequestFailure c _ _) fun _ =>
      .choose (fun _ => steps.exited _) fun _ => steps.raise rfl

theorem readTurn : Keeping I E (readTurn c waits a) := by
  refine Triple.bind (steps.hardRssLimitExceeded a.rss) fun exceeded s held => ?_
  cases exceeded with
  | some sample =>
    exact replaces.overLimit waits sample.1 sample.2 s ⟨held.1, held.2 _ _ rfl⟩
  | none =>
    refine Keeping.bind (steps.receiveEvent c a) (fun reception => ?_) s held.1
    cases reception with
    | event event => exact steps.handleEvent waits replaces event
    | sampleAgain => exact .pure _
    | timedOut => exact replaces.late waits
    | disconnected => exact .bind steps.finishInFlight fun _ => steps.raise rfl

omit replaces waits in
theorem readLoop (waits : Nat) (turns : List TurnAnswers)
    (replaces : ∀ a ∈ turns, Replaces I E c a) : Keeping I E (readLoop c waits turns) := by
  induction turns generalizing waits with
  | nil => exact .wait
  | cons a rest ih =>
    refine .bind (steps.readTurn waits (replaces a List.mem_cons_self)) fun turn => ?_
    cases turn with
    | again waits => exact ih waits fun a member => replaces a (.tail _ member)
    | complete response => exact .pure _

omit c a replaces waits in
theorem readResponseWithEvents (operation : String) (sinks : Sinks) (started : Instant)
    (turns : List TurnAnswers) (replaces : ∀ c, ∀ a ∈ turns, Replaces I E c a) :
    Keeping I E (readResponseWithEvents operation sinks started turns) :=
  .bind .worker fun _ => .choose
    (fun _ => .bind (steps.modify _ ⟨fun _ => rfl, fun _ => nofun⟩ fun _ => rfl) fun _ =>
      steps.readLoop 0 turns (replaces _))
    fun _ => steps.raise (LeanWorkerError.isRefusal_ofExit _)

end Steps

/-- The restarts of one request: that of its admission, from `P`, and those of its turns. -/
structure Admits (P I : World → Prop) (E : LeanWorkerError → World → Prop) (importLike : Bool)
    (a : RequestAnswers) : Prop where
  start : ∀ s, P s → I s
  prepare : Triple P (prepareRequest importLike a.prepare) (fun _ => I) E
  replaces : ∀ c, ∀ turn ∈ a.turns, Replaces I E c turn

namespace Steps

variable {P I : World → Prop} {E : LeanWorkerError → World → Prop} {A : Type} (steps : Steps I E)

include steps

theorem prepareRequest (importLike : Bool) (a : PrepareAnswers)
    (restarts : ∀ w reason, LeanWorker.policyRestart w importLike a = some reason →
      Keeping I E (restartWithReason reason a.restart)) :
    Keeping I E (prepareRequest importLike a) := by
  intro s held
  have running := steps.running a.poll s held
  cases outcome : ensureRunning a.poll s with
  | waiting t => simp [LeanRs.prepareRequest, outcome]
  | raised e t =>
    rw [outcome] at running
    simpa [LeanRs.prepareRequest, outcome] using running
  | returned _ t =>
    rw [outcome] at running
    obtain ⟨f, tally, decided⟩ := prepareRequest_running importLike a outcome
    have counted : I ⟨t.worker.counted f, t.effects⟩ := steps.count f tally t running
    rw [decided]
    cases reached : t.worker.policyRestart importLike a with
    | none => exact counted
    | some reason =>
      exact Keeping.bind (restarts t.worker reason reached)
        (fun _ => steps.count _ (tally_admitted importLike)) _ counted

variable {importLike : Bool} {a : RequestAnswers} (admits : Admits P I E importLike a)

include admits

omit steps in
theorem idleFirst (steps : Steps I E) {B : Type} {m : Supervisor B} {f : B → Supervisor A}
    (idle : Idle m) (next : ∀ b, Triple P (f b) (fun _ => I) E) :
    Triple P (m >>= f) (fun _ => I) E := by
  refine Triple.bind (M := fun _ => P) (fun s held => ?_) next
  have spared := idle.spares s trivial
  have still := idle.still s
  cases outcome : m s with
  | returned b t => rw [outcome] at still; exact still ▸ held
  | raised e t =>
    rw [outcome] at still spared
    exact steps.raises e t spared (admits.start t (still ▸ held))
  | waiting t => trivial

theorem issueRequest (request : Request) :
    Triple P (issueRequest request importLike a) (fun _ => I) E :=
  Triple.bind admits.prepare fun _ => Keeping.bind (steps.sendRequest _ _ _) fun _ =>
    steps.recordRequest _ _

theorem exchange (operation : String) (request : Request) (sinks : Sinks) :
    Triple P (exchange operation request importLike sinks a) (fun _ => I) E :=
  Triple.bind (steps.issueRequest admits request) fun _ =>
    steps.readResponseWithEvents _ _ _ _ admits.replaces

theorem roundTrip (operation : String) (request : Request) (progress : Bool)
    (extract : Response → Except LeanWorkerError A)
    (other : ∀ response e, extract response = .error e → e.isRefusal = false) :
    Triple P (roundTrip operation request importLike progress extract a) (fun _ => I) E :=
  steps.idleFirst admits (.checkCancelled _ _) fun _ =>
    Triple.bind (steps.exchange admits _ _ _) fun response =>
      steps.idle (Idle.liftResult other response)

end Steps

namespace Steps

variable {P I : World → Prop} {E : LeanWorkerError → World → Prop} (steps : Steps I E)
  {a : RequestAnswers} (admits : Admits P I E false a)

include steps admits

theorem workerRunDataStream (progress : Bool) (exportName : String)
    (requestJson : Except String JsonText) (rows : DataSinkTarget) (diagnostics : Bool) :
    Triple P (workerRunDataStream progress exportName requestJson rows diagnostics a)
      (fun _ => I) E := by
  refine steps.idleFirst admits (.checkCancelled _ _) fun _ =>
    steps.idleFirst admits (.encoded _ _) fun text =>
    Triple.bind (steps.issueRequest admits _) fun _ =>
    Keeping.bind (steps.count (fun stats => stats.streamRequested) fun _ => rfl) fun _ =>
    Keeping.bind (steps.readResponseWithEvents _ _ _ _ admits.replaces) fun response => ?_
  split
  · exact .pure _
  all_goals exact steps.raise rfl

theorem workerListDeclarationsStrings (progress : Bool)
    (decode : JsonText → Except String String) (filter : JsonText) :
    Triple P (workerListDeclarationsStrings progress decode filter a) (fun _ => I) E := by
  have reads : Keeping I E (read : Supervisor World) := fun _ held => held
  refine steps.idleFirst admits (.checkCancelled _ _) fun _ =>
    Triple.bind (steps.issueRequest admits _) fun _ => Keeping.bind reads fun before =>
    Keeping.bind (steps.readResponseWithEvents _ _ _ _ admits.replaces) fun response =>
    Keeping.bind reads fun after => ?_
  split
  split
  · exact steps.raise rfl
  · split
    · split
      · exact .pure _
      · exact steps.raise rfl
    · exact steps.raise rfl

theorem workerCapabilityMetadata (progress : Bool) (exportName : String)
    (requestJson : Except String JsonText) :
    Triple P (workerCapabilityMetadata progress exportName requestJson a) (fun _ => I) E := by
  refine steps.idleFirst admits (.encoded _ _) fun _ => steps.roundTrip admits _ _ _ _ ?_
  intro response e failed
  split at failed <;> cases failed <;> rfl

theorem workerCapabilityDoctor (progress : Bool) (exportName : String)
    (requestJson : Except String JsonText) :
    Triple P (workerCapabilityDoctor progress exportName requestJson a) (fun _ => I) E := by
  refine steps.idleFirst admits (.encoded _ _) fun _ => steps.roundTrip admits _ _ _ _ ?_
  intro response e failed
  split at failed <;> cases failed <;> rfl

end Steps

namespace Steps

variable {P I : World → Prop} {E : LeanWorkerError → World → Prop} (steps : Steps I E)

include steps

theorem forgetSessionKeys : Keeping I E forgetSessionKeys :=
  steps.modify (fun w => { w with openSessionKeys := [] })
    ⟨fun _ => rfl, fun _ exhausted => exhausted⟩ fun _ => rfl

theorem hostSessionOpened (config : LeanWorkerSessionConfig) (expectReuse : Bool)
    (beforeRestarts : Nat) (importStats : LeanWorkerImportStats) (elapsed : Duration) :
    Keeping I E (hostSessionOpened config expectReuse beforeRestarts importStats elapsed) := by
  refine .bind (steps.modify _ ⟨fun _ => ?_, fun _ => ?_⟩ fun _ => ?_) fun _ =>
    .bind (steps.modify _ ⟨fun _ => ?_, fun _ => ?_⟩ fun _ => ?_) fun _ =>
    .bind (steps.modify _ ⟨fun _ => ?_, fun _ => ?_⟩ fun _ => ?_) fun _ =>
    .bind (steps.count _ fun _ => rfl) fun _ =>
    steps.modify _ ⟨fun _ => ?_, fun _ => ?_⟩ fun _ => ?_
  all_goals first | rfl | exact id

theorem hostSessionReused (config : LeanWorkerSessionConfig)
    (importStats : LeanWorkerImportStats) : Keeping I E (hostSessionReused config importStats) := by
  refine .bind (steps.modify _ ⟨fun _ => ?_, fun _ => ?_⟩ fun _ => ?_) fun _ =>
    steps.count _ fun _ => rfl
  all_goals first | rfl | exact id

variable (forget : ∀ e s, E e s → E e { s with
  worker := { s.worker with openSessionKeys := [] } })

include forget

theorem readWorkerSession (config : LeanWorkerSessionConfig) (progress expectReuse : Bool)
    (beforeRestarts : Nat) (a : OpenAnswers)
    (replaces : ∀ c, ∀ turn ∈ a.request.turns, Replaces I E c turn) :
    Keeping I E (readWorkerSession config progress expectReuse beforeRestarts a) := by
  refine .captured (steps.readResponseWithEvents _ _ _ _ replaces) (fun response => ?_)
    fun err => ?_
  · cases response with
    | hostSessionOpened importStats => exact steps.hostSessionOpened _ _ _ _ _
    | hostSessionReused importStats => exact steps.hostSessionReused _ _
    | _ => exact .bind steps.forgetSessionKeys fun _ => steps.raise rfl
  · exact Triple.bind (M := fun _ => E err) (Triple.update fun s held => forget err s held)
      fun _ => Triple.raise fun _ held => held

theorem requestWorkerSession (config : LeanWorkerSessionConfig) (progress : Bool)
    (beforeRestarts : Nat) (a : OpenAnswers)
    (admits : ∀ s, P s → Admits P I E (!s.worker.predictsReuse config) a.request) :
    Triple P (requestWorkerSession config progress beforeRestarts a) (fun _ => I) E := by
  intro s held
  have admitted := admits s held
  unfold LeanRs.requestWorkerSession
  rw [bind_apply, worker_apply, Outcome.andThen_returned]
  exact Triple.bind admitted.prepare (fun _ => Keeping.bind .worker fun _ =>
    .bind (steps.sendRequest _ _ _) fun _ => .bind (steps.recordRequest _ _) fun _ =>
    steps.readWorkerSession forget _ _ _ _ _ admitted.replaces) s held

end Steps

end LeanRs
