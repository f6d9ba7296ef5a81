import LeanRs.Worker.Memory
import LeanRs.Worker.ReadLoop

/-! What a turn of the read loop hands to the sinks, and what it leaves alone. -/
namespace LeanRs

open Procedures Procedure Supervisor

def Effect.delivered : Effect → Option SinkEvent
  | .deliver event => some event
  | _ => none

/-- The effect changes what the child is or what it has to read. -/
def Effect.reachesChild : Effect → Bool
  | .spawn | .write _ _ => true
  | _ => false

def deliveries (effects : List Effect) : List SinkEvent := effects.filterMap Effect.delivered

@[simp] theorem deliveries_append (first second : List Effect) :
    deliveries (first ++ second) = deliveries first ++ deliveries second :=
  List.filterMap_append

theorem deliveries_eq_nil {effects : List Effect}
    (silent : ∀ e ∈ effects, e.delivered = none) : deliveries effects = [] :=
  List.filterMap_eq_nil_iff.mpr silent

@[simp] theorem deliveries_map_deliver (events : List SinkEvent) :
    deliveries (events.map .deliver) = events := by
  induction events with
  | nil => rfl
  | cons event rest ih => simpa [deliveries, Effect.delivered] using ih

/-- From `s` to `t` these events are delivered, the child is left to itself, and the record of its
generation stays. -/
structure Passes (events : List SinkEvent) (s t : World) : Prop where
  core : t.worker.core = s.worker.core
  effects : ∃ new, t.effects = s.effects ++ new ∧ deliveries new = events ∧
    ∀ e ∈ new, e.reachesChild = false

namespace Passes

variable {s t u : World}

theorem ofWorker (same : t.worker.core = s.worker.core) (effects : t.effects = s.effects) :
    Passes [] s t := ⟨same, [], by simp [effects], rfl, nofun⟩

theorem ofDelivery (events : List SinkEvent) (s : World) :
    Passes events s { s with effects := s.effects ++ events.map .deliver } := by
  refine ⟨rfl, events.map .deliver, rfl, deliveries_map_deliver events, fun e member => ?_⟩
  obtain ⟨event, _, rfl⟩ := List.mem_map.mp member
  rfl

theorem ofReceive (bound : Option Duration) (s : World) :
    Passes [] s { s with effects := s.effects ++ [.receive bound] } :=
  ⟨rfl, [.receive bound], rfl, rfl, by simp [Effect.reachesChild]⟩

theorem trans {first second : List SinkEvent} (before : Passes first s t)
    (after : Passes second t u) : Passes (first ++ second) s u := by
  obtain ⟨new, joined, delivered, quiet⟩ := before.effects
  obtain ⟨new', joined', delivered', quiet'⟩ := after.effects
  refine ⟨after.core.trans before.core, new ++ new', ?_, ?_, fun e member => ?_⟩
  · rw [joined', joined, List.append_assoc]
  · rw [deliveries_append, delivered, delivered']
  · exact (List.mem_append.mp member).elim (quiet e) (quiet' e)

end Passes

instance : Std.Refl (Passes []) := ⟨fun _ => .ofWorker rfl rfl⟩
instance : IsTrans World (Passes []) := ⟨fun _ _ _ before after => before.trans after⟩

theorem LeanWorker.core_of_standing {w w' : LeanWorker} (same : w'.standing = w.standing) :
    w'.core = w.core := (congrArg LeanWorker.core same :)

instance : Tracked (Passes []) where
  count _ same _ := .ofWorker (by simp [LeanWorker.core, LeanWorker.counted, same]) rfl
  emit e silent s := by
    refine ⟨rfl, [e], rfl, ?_, fun e' member => ?_⟩
    · cases e <;> first | rfl | cases silent
    · cases List.mem_singleton.mp member
      cases e <;> first | rfl | cases silent
  track _ same s := .ofWorker (LeanWorker.core_of_standing (same s.worker)) rfl

def SinkEvent.message : SinkEvent → Message
  | .progress tick _ => .progressTick tick
  | .row r => .dataRow r
  | .diagnostic d => .diagnostic d

namespace RequestContext

def wants (c : RequestContext) : Message → Bool
  | .progressTick _ => c.progress
  | .dataRow _ => c.data.isSome
  | .diagnostic _ => c.diagnostics
  | _ => false

def delivers (c : RequestContext) (a : TurnAnswers) : Message → List SinkEvent
  | .progressTick tick => if c.progress then [.progress tick a.eventElapsed] else []
  | .dataRow row => if c.data.isSome then [.row row] else []
  | .diagnostic diagnostic => if c.diagnostics then [.diagnostic diagnostic] else []
  | _ => []

theorem delivers_message (c : RequestContext) (a : TurnAnswers) (message : Message) :
    (c.delivers a message).map SinkEvent.message = [message].filter c.wants := by
  cases message with
  | progressTick tick =>
    cases present : c.progress <;> simp [delivers, wants, present, SinkEvent.message]
  | dataRow row => cases present : c.data <;> simp [delivers, wants, present, SinkEvent.message]
  | diagnostic diagnostic =>
    cases present : c.diagnostics <;> simp [delivers, wants, present, SinkEvent.message]
  | _ => rfl

def turnDelivers (c : RequestContext) (a : TurnAnswers) : List SinkEvent :=
  match a.received with
  | .event (.frame message) _ => c.delivers a message
  | _ => []

end RequestContext

theorem TurnAnswers.replaceFate_ne_again (a : TurnAnswers) : a.replaceFate ≠ .again := by
  unfold replaceFate
  split <;> decide

variable {c : RequestContext} {config : LeanWorkerConfig} {waits : Nat} {a : TurnAnswers}

theorem orCancel_again (goesOn : a.cancelFate = .again) (s : World) :
    orCancel c waits a s = .returned (.again waits) s := by
  cases cancelled : a.cancelled with
  | false => simp [orCancel, cancelled]
  | true =>
    have replaced : a.cancelFate = a.replaceFate := by simp [TurnAnswers.cancelFate, cancelled]
    exact absurd (replaced.symm.trans goesOn) a.replaceFate_ne_again

theorem orTerminalize_again {report : Supervisor Unit} {s t : World}
    (reported : report s = .returned () t) : orTerminalize c waits a report s = .returned () t := by
  simp [orTerminalize, reported]

theorem reportParentProgress_again (tick : ProgressTick)
    (accepted : ¬(c.progress && a.sink.panics) = true) (s : World) :
    reportParentProgress c.progress tick a.eventElapsed a.sink s = .returned ()
      { s with effects := s.effects ++ (c.delivers a (.progressTick tick)).map .deliver } := by
  cases present : c.progress <;> cases sink : a.sink <;>
    simp_all [reportParentProgress, RequestContext.delivers, SinkAnswer.panics]

theorem reportParentDataRow_again (row : DataRow) (accepted : ¬refusesRow c.data a.sink = true)
    (s : World) :
    reportParentDataRow c.data row a.sink s = .returned ()
      { s with effects := s.effects ++ (c.delivers a (.dataRow row)).map .deliver } := by
  cases present : c.data with
  | none => rw [present] at accepted; exact absurd rfl accepted
  | some target =>
    cases target <;> cases sink : a.sink <;>
      simp_all [reportParentDataRow, RequestContext.delivers, refusesRow, SinkAnswer.panics]

theorem reportParentDiagnostic_again (diagnostic : Diagnostic)
    (accepted : ¬(c.diagnostics && a.sink.panics) = true) (s : World) :
    reportParentDiagnostic c.diagnostics diagnostic a.sink s = .returned ()
      { s with effects := s.effects ++ (c.delivers a (.diagnostic diagnostic)).map .deliver } := by
  cases present : c.diagnostics <;> cases sink : a.sink <;>
    simp_all [reportParentDiagnostic, RequestContext.delivers, SinkAnswer.panics]

theorem handleMessage_again (message : Message) (goesOn : c.messageFate a message = .again)
    (s : World) :
    ∃ t, handleMessage c waits a message s = .returned (.again waits) t ∧
      Passes (c.delivers a message) s t := by
  have marked : Passes [] s { s with worker := s.worker.markCurrentRequestStreaming } :=
    Tracked.track _ LeanWorker.mark_standing s
  have passes : Passes (c.delivers a message) s
      ⟨s.worker.markCurrentRequestStreaming,
        s.effects ++ (c.delivers a message).map .deliver⟩ := marked.trans (.ofDelivery _ _)
  cases message with
  | progressTick tick =>
    by_cases refused : (c.progress && a.sink.panics) = true
    · simp [RequestContext.messageFate, refused] at goesOn
    · have cancel : a.cancelFate = .again := by
        simpa [RequestContext.messageFate, refused] using goesOn
      refine ⟨_, ?_, passes⟩
      simp only [handleMessage, bind_apply, modify_apply, Outcome.andThen_returned,
        orTerminalize_again (reportParentProgress_again tick refused _), orCancel_again cancel]
  | dataRow row =>
    by_cases refused : refusesRow c.data a.sink = true
    · simp [RequestContext.messageFate, refused] at goesOn
    · have cancel : a.cancelFate = .again := by
        simpa [RequestContext.messageFate, refused] using goesOn
      refine ⟨_, ?_, List.append_nil _ ▸ passes.trans
        (Tracked.count (fun stats => stats.rowDelivered row) (fun _ => rfl) _)⟩
      simp only [handleMessage, bind_apply, modify_apply, Outcome.andThen_returned,
        orTerminalize_again (reportParentDataRow_again row refused _), orCancel_again cancel,
        count_apply, Outcome.state_returned]
  | diagnostic diagnostic =>
    by_cases refused : (c.diagnostics && a.sink.panics) = true
    · simp [RequestContext.messageFate, refused] at goesOn
    · refine ⟨_, ?_, passes⟩
      simp only [handleMessage, bind_apply, modify_apply, Outcome.andThen_returned,
        orTerminalize_again (reportParentDiagnostic_again diagnostic refused _), pure_apply]
  | _ => simp [RequestContext.messageFate] at goesOn

theorem handleEvent_again (backpressure : Nat) (message : Message)
    (goesOn : c.messageFate a message = .again) (s : World) (inLoop : s.worker.InLoop c config) :
    ∃ waits' t, handleEvent c waits a
      (readerEvent c.generation (some c.requestId) backpressure (.frame message)) s =
        .returned (.again waits') t ∧ Passes (c.delivers a message) s t := by
  have event : message.isTerminal = false := by
    cases message <;> first | rfl | cases goesOn
  have counted : Passes [] s _ :=
    Tracked.count (fun stats => stats.backpressured backpressure) (fun _ => rfl) s
  obtain ⟨t, handled, passes⟩ := @handleMessage_again c (saturatingAdd waits backpressure) a message
    goesOn { s with worker := s.worker.counted fun stats => stats.backpressured backpressure }
  rw [handleEvent_fresh waits a backpressure _ s inLoop]
  exact ⟨_, t, by simpa [event] using handled, counted.trans passes⟩

theorem hardRssLimitExceeded_inLoop (sample : Option Nat) (s : World)
    (inLoop : s.worker.InLoop c config) :
    ∃ exceeded sampled, hardRssLimitExceeded sample s = .returned exceeded sampled ∧
      sampled.worker.InLoop c config ∧ sampled.effects = s.effects ∧ Passes [] s sampled ∧
      exceeded.isSome = RequestContext.turnFate.hardLimitHit config sample := by
  have looping := @hardRssLimitExceeded_looping c config sample (fun _ _ => False) s inLoop
  have ends : Ends (hardRssLimitExceeded sample) := by
    refine .bind (fun _ => rfl) fun w => ?_
    split
    · exact .pure _
    · exact .bind (.update _) fun _ => .pure _
  have quiet : Moves (Appends fun _ => False) (hardRssLimitExceeded sample) := by
    refine .bind worker_appends fun w => ?_
    split
    · exact .pure _
    · exact .bind (modify_appends _) fun _ => .pure _
  have ended := ends s
  have passes := @hardRssLimitExceeded_moves (Passes []) _ sample s
  obtain ⟨new, joined, none⟩ := quiet s
  have empty : new = [] := List.eq_nil_iff_forall_not_mem.mpr fun e member => none e member
  cases outcome : hardRssLimitExceeded sample s with
  | waiting t => rw [outcome] at ended; cases ended
  | raised e t => rw [outcome] at looping; exact looping.elim
  | returned exceeded t =>
    rw [outcome] at looping joined passes
    exact ⟨exceeded, t, rfl, looping.1, by simpa [empty] using joined, passes, looping.2⟩

theorem receiveEvent_event (frame : ReaderFrame) (backpressure : Nat)
    (received : a.received = .event frame backpressure) (left : c.remaining a.now ≠ some 0)
    (s : World) : ∃ bound, receiveEvent c a s =
      .returned (.event (readerEvent c.generation (some c.requestId) backpressure frame))
        { s with effects := s.effects ++ [.receive bound] } := by
  cases remaining : c.remaining a.now with
  | none => exact ⟨none, by simp [receiveEvent, remaining, received]⟩
  | some n =>
    cases n with
    | zero => exact absurd remaining left
    | succ n => exact ⟨_, by simp [receiveEvent, remaining, received]; rfl⟩

theorem readTurn_again (goesOn : c.turnFate config a = .again) (s : World)
    (inLoop : s.worker.InLoop c config) :
    ∃ waits' t, readTurn c waits a s = .returned (.again waits') t ∧
      Passes (c.turnDelivers a) s t := by
  obtain ⟨exceeded, sampled, sampledBy, inLoop', _, sampledPasses, hit⟩ :=
    hardRssLimitExceeded_inLoop a.rss s inLoop
  unfold RequestContext.turnFate at goesOn
  split at goesOn
  · exact absurd goesOn a.replaceFate_ne_again
  · rename_i below
    split at goesOn
    · exact absurd goesOn a.replaceFate_ne_again
    · rename_i left
      have none : exceeded = none := by
        cases exceeded with
        | none => rfl
        | some pair => exact absurd hit.symm below
      subst none
      simp only [readTurn, bind_apply, sampledBy, Outcome.andThen_returned]
      unfold RequestContext.receivedFate at goesOn
      split at goesOn
      · rename_i frame backpressure received
        obtain ⟨bound, got⟩ := receiveEvent_event frame backpressure received left sampled
        rw [got]
        cases frame with
        | failed text eof => cases eof <;> cases goesOn
        | frame message =>
          obtain ⟨waits', t, handled, passes⟩ :=
            @handleEvent_again c config waits a backpressure message goesOn
              { sampled with effects := sampled.effects ++ [.receive bound] } inLoop'
          refine ⟨waits', t, handled, ?_⟩
          simp only [RequestContext.turnDelivers, received]
          exact (sampledPasses.trans (.ofReceive bound sampled)).trans passes
      · cases goesOn
      · rename_i received
        split at goesOn
        · rename_i remaining reached
          split at goesOn
          · rename_i watch
            simp only [Bool.and_eq_true, decide_eq_true_eq] at watch
            obtain ⟨hardWatch, sooner⟩ := watch
            cases remaining with
            | zero => exact absurd reached left
            | succ n =>
              have waitsLess : decide (min (n + 1) config.rssSampleInterval < n + 1) = true :=
                decide_eq_true (Nat.lt_of_le_of_lt (Nat.min_le_right _ _) sooner)
              refine ⟨waits, { sampled with effects := sampled.effects ++
                [.receive (some (min (n + 1) config.rssSampleInterval))] }, ?_, ?_⟩
              · simp only [receiveEvent, bind_apply, worker_apply, Outcome.andThen_returned,
                  reached, emit_apply, received, inLoop'.config, hardWatch, if_true,
                  Bool.true_and, waitsLess, pure_apply, handleReception]
              · simp only [RequestContext.turnDelivers, received]
                exact sampledPasses.trans (.ofReceive _ sampled)
          · exact absurd goesOn a.replaceFate_ne_again
        · cases goesOn

/-- The turn of a terminal response passes on nothing, unless the memory watch or the deadline
comes first and the child is replaced. -/
theorem readTurn_terminal {response : Response} (answers : a.Answers response) (s : World)
    (inLoop : s.worker.InLoop c config) :
    Passes [] s (readTurn c waits a s).state ∨
      (readTurn c waits a s).Meets (fun _ _ => False)
        (fun _ t => t.worker.Ready → t.Respawned) := by
  obtain ⟨exceeded, sampled, sampledBy, inLoop', _, sampledPasses, hit⟩ :=
    hardRssLimitExceeded_inLoop a.rss s inLoop
  obtain ⟨backpressure, received⟩ := answers
  have unanswered : ∀ {e : LeanWorkerError} {t : World} {lossy : Prop}, GaveUp lossy False e t →
      t.worker.Ready → t.Respawned := fun gaveUp ready =>
    (gaveUp.renewed ready).resolve_left id
  simp only [readTurn, bind_apply, sampledBy, Outcome.andThen_returned]
  cases exceeded with
  | some pair =>
    exact .inr ((hardLimitExit_looping waits a _ _ (fun _ _ => False) sampled inLoop').weaken
      (fun _ _ h => h) fun _ _ gaveUp => unanswered gaveUp)
  | none =>
    by_cases left : c.remaining a.now = some 0
    · simp only [receiveEvent, bind_apply, worker_apply, Outcome.andThen_returned, left, pure_apply,
        handleReception]
      exact .inr ((replaceAndFail_looping waits a _ rfl _ (fun _ => rfl) (fun _ _ => False) sampled
        inLoop').weaken (fun _ _ h => h) fun _ _ gaveUp => unanswered gaveUp)
    · obtain ⟨bound, got⟩ := receiveEvent_event _ backpressure received left sampled
      have passes : Passes [] s { sampled with effects := sampled.effects ++ [.receive bound] } :=
        sampledPasses.trans (.ofReceive bound sampled)
      have handled : Moves (Passes []) (count (fun stats => stats.backpressured backpressure) >>=
          fun _ => handleTerminal c (saturatingAdd waits backpressure) a (.response response)) :=
        .bind (Tracked.count _ fun _ => rfl) fun _ => handleTerminal_moves _ _ _ _
      simp only [bind_apply, got, Outcome.andThen_returned, handleReception]
      rw [handleEvent_fresh waits a backpressure _
        { sampled with effects := sampled.effects ++ [.receive bound] } inLoop']
      exact .inl (passes.trans (handled _))

/-- From `s` to `t` a first part of these events is delivered, and no other. -/
def DeliversWithin (events : List SinkEvent) (s t : World) : Prop :=
  ∃ new, t.effects = s.effects ++ new ∧ deliveries new <+: events

theorem DeliversWithin.trans {first second events : List SinkEvent} {s t u : World}
    (before : DeliversWithin first s t) (after : DeliversWithin second t u)
    (joined : ∀ p q, p <+: first → q <+: second → p ++ q <+: events) :
    DeliversWithin events s u := by
  obtain ⟨new, grown, delivered⟩ := before
  obtain ⟨new', grown', delivered'⟩ := after
  refine ⟨new ++ new', by rw [grown', grown, List.append_assoc], ?_⟩
  rw [deliveries_append]
  exact joined _ _ delivered delivered'

theorem DeliversWithin.ofAppends {s t : World}
    (appends : Appends (fun e => e.delivered = none) s t) : DeliversWithin [] s t := by
  obtain ⟨new, grown, silent⟩ := appends
  exact ⟨new, grown, deliveries_eq_nil silent ▸ List.prefix_rfl⟩

theorem DeliversWithin.weaken {events : List SinkEvent} {s t : World}
    (silent : DeliversWithin [] s t) : DeliversWithin events s t := by
  obtain ⟨new, grown, delivered⟩ := silent
  exact ⟨new, grown, delivered.trans List.nil_prefix⟩

theorem Effect.delivered_of_ofStop (e : Effect) (stop : e.ofStop = true) : e.delivered = none := by
  cases e <;> first | rfl | cases stop

theorem Effect.delivered_of_silent (e : Effect) (silent : e.silent = true) :
    e.delivered = none := by
  cases e <;> first | rfl | cases silent

instance : FramedSilently (DeliversWithin []) where
  refl s := ⟨[], by simp, List.prefix_rfl⟩
  trans _ _ _ before after := before.trans after fun p q first second => by
    rw [List.prefix_nil] at first second
    simp [first, second]
  count _ _ s := .ofAppends (modify_appends _ s)
  emit e silent s := .ofAppends (emit_appends e (e.delivered_of_silent silent) s)
  track _ _ s := .ofAppends (modify_appends _ s)
  stop frame s := .ofAppends (appends_of_stop Effect.delivered_of_ofStop frame s)
  restart reason a s :=
    .ofAppends (restartWithReason_appends Effect.delivered_of_ofStop rfl reason rfl a s)

section

variable {events : List SinkEvent} {A B : Type}

theorem silently_then {m : Supervisor A} {f : A → Supervisor B}
    (first : Moves (DeliversWithin []) m) (next : ∀ x, Moves (DeliversWithin events) (f x)) :
    Moves (DeliversWithin events) (m >>= f) :=
  .seq first next (fun _ _ h => h.weaken) fun _ _ _ before after => before.trans after
    fun p q first second => by rw [List.prefix_nil] at first; simpa [first] using second

theorem then_silently {m : Supervisor A} {f : A → Supervisor B}
    (first : Moves (DeliversWithin events) m) (next : ∀ x, Moves (DeliversWithin []) (f x)) :
    Moves (DeliversWithin events) (m >>= f) :=
  .seq first next (fun _ _ h => h) fun _ _ _ before after => before.trans after
    fun p q first second => by rw [List.prefix_nil] at second; simpa [second] using first

theorem within_of_silent {m : Supervisor A} (silent : Moves (DeliversWithin []) m) :
    Moves (DeliversWithin events) m := fun s => (silent s).weaken

theorem emit_within (event : SinkEvent) :
    Moves (DeliversWithin [event]) (emit (.deliver event)) :=
  fun _ => ⟨[.deliver event], rfl, List.prefix_rfl⟩

theorem orTerminalize_within {report : Supervisor Unit}
    (reports : Moves (DeliversWithin events) report) :
    Moves (DeliversWithin events) (orTerminalize c waits a report) := by
  refine then_silently (.capture reports) fun result => ?_
  cases result with
  | ok _ => exact .pure _
  | error err => exact .bind (terminalizeRequestFailure_moves c waits _) fun _ => .raise _

end

theorem reportParentProgress_within (tick : ProgressTick) :
    Moves (DeliversWithin (c.delivers a (.progressTick tick)))
      (reportParentProgress c.progress tick a.eventElapsed a.sink) := by
  cases present : c.progress with
  | false => exact fun s => DeliversWithin.weaken (Std.Refl.refl s)
  | true =>
    simp only [RequestContext.delivers, present, if_true, reportParentProgress]
    refine then_silently (emit_within _) fun _ => ?_
    split
    · exact .raise _
    · exact .pure _

theorem reportParentDiagnostic_within (diagnostic : Diagnostic) :
    Moves (DeliversWithin (c.delivers a (.diagnostic diagnostic)))
      (reportParentDiagnostic c.diagnostics diagnostic a.sink) := by
  cases present : c.diagnostics with
  | false => exact fun s => DeliversWithin.weaken (Std.Refl.refl s)
  | true =>
    simp only [RequestContext.delivers, present, if_true, reportParentDiagnostic]
    refine then_silently (emit_within _) fun _ => ?_
    split
    · exact .raise _
    · exact .pure _

theorem reportParentDataRow_within (row : DataRow) :
    Moves (DeliversWithin (c.delivers a (.dataRow row)))
      (reportParentDataRow c.data row a.sink) := by
  cases present : c.data with
  | none => exact fun s => DeliversWithin.weaken (Std.Refl.refl s)
  | some target =>
    have shown : c.delivers a (.dataRow row) = [.row row] := by
      simp [RequestContext.delivers, present]
    rw [shown]
    unfold reportParentDataRow
    split
    · exact fun s => DeliversWithin.weaken (Std.Refl.refl s)
    · exact fun s => DeliversWithin.weaken (Std.Refl.refl s)
    · exact then_silently (emit_within _) fun _ => .raise _
    · exact emit_within _

theorem handleMessage_within (message : Message) :
    Moves (DeliversWithin (c.delivers a message)) (handleMessage c waits a message) := by
  have mark : Moves (DeliversWithin []) (modify LeanWorker.markCurrentRequestStreaming) :=
    Tracked.track _ LeanWorker.mark_standing
  have failed : ∀ error : LeanWorkerError, Moves (DeliversWithin [])
      (terminalizeRequestFailure c a.streamElapsed waits >>= fun _ => raise (A := Turn) error) :=
    fun error => .bind (terminalizeRequestFailure_moves c waits _) fun _ => .raise _
  cases message with
  | progressTick tick =>
    exact silently_then mark fun _ => then_silently
      (orTerminalize_within (reportParentProgress_within tick)) fun _ => orCancel_moves c waits a
  | dataRow row =>
    exact silently_then mark fun _ => then_silently
      (orTerminalize_within (reportParentDataRow_within row)) fun _ =>
        .bind (Tracked.count _ fun _ => rfl) fun _ => orCancel_moves c waits a
  | diagnostic diagnostic =>
    exact silently_then mark fun _ => then_silently
      (orTerminalize_within (reportParentDiagnostic_within diagnostic)) fun _ => .pure _
  | _ => exact failed _

theorem handleReception_silent (reception : Reception) (other : ∀ event, reception ≠ .event event) :
    Moves (DeliversWithin []) (handleReception c waits a reception) := by
  cases reception with
  | event event => exact absurd rfl (other event)
  | sampleAgain => exact .pure _
  | timedOut => exact replaceAndFail_moves c waits a _ _
  | disconnected => exact .bind finish_moves fun _ => .raise _

theorem receiveEvent_other (other : ∀ frame waits, a.received ≠ .event frame waits) :
    Triple (fun _ => True) (receiveEvent c a) (fun reception _ => ∀ event, reception ≠ .event event)
      (fun _ _ => True) := by
  refine .after _ fun w => ?_
  split
  · exact Triple.pure fun _ _ event => nofun
  · refine .after _ fun _ => ?_
    split
    · rename_i received; exact absurd received (other _ _)
    · exact Triple.pure fun _ _ event => by grind
    · exact Triple.pure fun _ _ event => nofun
  · refine .after _ fun _ => ?_
    split
    · rename_i received; exact absurd received (other _ _)
    · exact .wait
    · exact Triple.pure fun _ _ event => nofun

theorem freshFrame_within {frame : ReaderFrame} {backpressure : Nat}
    (received : a.received = .event frame backpressure) :
    Moves (DeliversWithin (c.turnDelivers a))
      (count (fun stats => stats.backpressured backpressure) >>= fun _ =>
        match frame with
        | .frame message =>
          if message.isTerminal then
            handleTerminal c (saturatingAdd waits backpressure) a message
          else handleMessage c (saturatingAdd waits backpressure) a message
        | .failed text eof => do
          terminalizeRequestFailure c a.streamElapsed (saturatingAdd waits backpressure)
          if eof then recordExitError a.wait else raise (.protocol (.frame text))) := by
  refine silently_then (Tracked.count _ fun _ => rfl) fun _ => ?_
  cases frame with
  | failed text eof =>
    exact within_of_silent (.bind (terminalizeRequestFailure_moves c _ _) fun _ =>
      .choose (fun _ => recordExitError_moves _) fun _ => .raise _)
  | frame message =>
    simp only [RequestContext.turnDelivers, received]
    exact .choose (fun _ => within_of_silent (handleTerminal_moves c _ a message))
      fun _ => handleMessage_within message

theorem readTurn_within (s : World) (inLoop : s.worker.InLoop c config) :
    DeliversWithin (c.turnDelivers a) s (readTurn c waits a s).state := by
  obtain ⟨exceeded, sampled, sampledBy, inLoop', same, _, hit⟩ :=
    hardRssLimitExceeded_inLoop a.rss s inLoop
  have onwards {events : List SinkEvent} {t u : World} (effects : t.effects = s.effects)
      (within : DeliversWithin events t u) : DeliversWithin events s u := by
    obtain ⟨new, grown, delivered⟩ := within
    exact ⟨new, effects ▸ grown, delivered⟩
  simp only [readTurn, bind_apply, sampledBy, Outcome.andThen_returned]
  cases exceeded with
  | some pair =>
    have silent : Moves (DeliversWithin []) (hardLimitExit c waits a pair.1 pair.2) :=
      .bind worker_moves fun _ => replaceAndFail_moves c waits a _ _
    exact onwards same (silent sampled).weaken
  | none =>
    change DeliversWithin _ s ((receiveEvent c a >>= handleReception c waits a) sampled).state
    rw [bind_apply]
    refine onwards same ?_
    by_cases event : ∃ frame backpressure, a.received = .event frame backpressure
    · obtain ⟨frame, backpressure, received⟩ := event
      by_cases left : c.remaining a.now = some 0
      · simp only [receiveEvent, bind_apply, worker_apply, Outcome.andThen_returned, left,
          pure_apply]
        have late : ∀ event, Reception.timedOut ≠ .event event := by
          intro event same
          cases same
        exact (handleReception_silent .timedOut late sampled).weaken
      · obtain ⟨bound, got⟩ := receiveEvent_event frame backpressure received left sampled
        have waited : DeliversWithin [] sampled
            { sampled with effects := sampled.effects ++ [.receive bound] } :=
          Tracked.emit (.receive bound) rfl sampled
        rw [got, Outcome.andThen_returned, handleReception,
          handleEvent_fresh waits a backpressure frame
          { sampled with effects := sampled.effects ++ [.receive bound] } inLoop']
        exact waited.trans (freshFrame_within received _) fun p q first second => by
          rw [List.prefix_nil] at first
          simpa [first] using second
    · have other : ∀ frame backpressure, a.received ≠ .event frame backpressure :=
        fun frame backpressure received => event ⟨frame, backpressure, received⟩
      have receives := @receiveEvent_moves (DeliversWithin []) _ c a sampled
      have unheard := @receiveEvent_other c a other sampled trivial
      cases outcome : receiveEvent c a sampled with
      | waiting t => rw [outcome] at receives; exact receives.weaken
      | raised e t => rw [outcome] at receives; exact receives.weaken
      | returned reception t =>
        rw [outcome] at receives unheard
        exact (IsTrans.trans _ _ _ receives (handleReception_silent reception unheard t)).weaken

end LeanRs
