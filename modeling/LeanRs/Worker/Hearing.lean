import LeanRs.Worker.Blame
import LeanRs.Worker.Pipe

/-! What a read loop hears of the child: the frames of the request that was sent, in their order,
up to the response. -/
namespace LeanRs

open Procedures Procedure Supervisor

variable {c : RequestContext} {config : LeanWorkerConfig} {waits : Nat} {a : TurnAnswers}

def Reception.Of (c : RequestContext) (a : TurnAnswers) (reception : Reception) : Prop :=
  match a.received with
  | .event frame backpressure =>
    reception = .event (readerEvent c.generation (some c.requestId) backpressure frame)
  | _ => ∀ event, reception ≠ .event event

theorem receiveEvent_early (left : c.remaining a.now = some 0) (s : World) :
    receiveEvent c a s = .returned .timedOut s := by
  simp [receiveEvent, left]

theorem receiveEvent_receives (left : c.remaining a.now ≠ some 0) (s : World) :
    ∃ bound, (receiveEvent c a s).Meets
      (fun reception t => t = { s with effects := s.effects ++ [.receive bound] } ∧
        reception.Of c a) (fun _ _ => False) := by
  cases remaining : c.remaining a.now with
  | none =>
    refine ⟨none, ?_⟩
    cases received : a.received <;> simp [receiveEvent, remaining, received, Reception.Of]
  | some n =>
    cases n with
    | zero => exact absurd remaining left
    | succ n =>
      refine ⟨some (if s.worker.config.rssHardLimitKib.isSome then
        min (n + 1) s.worker.config.rssSampleInterval else n + 1), ?_⟩
      cases received : a.received with
      | nothing =>
        simp only [receiveEvent, remaining, received, Reception.Of, bind_apply, worker_apply,
          emit_apply, Outcome.andThen_returned, pure_apply, Outcome.meets_returned, true_and]
        grind
      | _ => simp [receiveEvent, remaining, received, Reception.Of]

def Turn.Genuine : Turn → Prop
  | .again _ => True
  | .complete response => response.isError = false

/-- The turn has come to a return, and the history grew by these deliveries. -/
abbrev Told (before : List Effect) (events : List SinkEvent) (turn : Turn) (t : World) : Prop :=
  t.effects = before ++ events.map .deliver ∧ turn.Genuine

theorem replaceAndFail_fails {P : World → Prop} {Q : Turn → World → Prop}
    (reason : LeanWorkerRestartReason) (error : LeanWorkerStats → LeanWorkerError) :
    Triple P (replaceAndFail c waits a reason error) Q (fun _ _ => True) := by
  refine .after _ fun _ => .after _ fun result => ?_
  cases result with
  | error err => exact .after _ fun _ => Triple.raise fun _ _ => trivial
  | ok _ => exact .after _ fun _ => .after _ fun _ => Triple.raise fun _ _ => trivial

section

variable {before : List Effect}

theorem modify_told (f : LeanWorker → LeanWorker) :
    Triple (fun s => s.effects = before) (modify f) (fun _ s => s.effects = before)
      (fun _ _ => True) := Triple.update fun _ same => same

theorem recordStreamFailure_told (elapsed : Duration) :
    Triple (fun s => s.effects = before) (recordStreamFailure c elapsed waits)
      (fun _ s => s.effects = before) (fun _ _ => True) :=
  .choose (fun _ => modify_told _) fun _ => Triple.pure fun _ same => same

theorem handleTerminal_told (message : Message) :
    Triple (fun s => s.effects = before) (handleTerminal c waits a message) (Told before [])
      (fun _ _ => True) := by
  have failed : ∀ error : LeanWorkerError, Triple (fun s : World => s.effects = before)
      (terminalizeRequestFailure c a.streamElapsed waits >>= fun _ => raise error)
      (Told before []) (fun _ _ => True) := fun error =>
    .after _ fun _ => Triple.raise fun _ _ => trivial
  have answered : ∀ response : Response, response.isError = false →
      Triple (fun s : World => s.effects = before)
        (terminalizeRequestResponse c response a.streamElapsed waits >>= fun _ =>
          pure (Turn.complete response)) (Told before []) (fun _ _ => True) :=
    fun response genuine => Triple.bind (Triple.bind (M := fun _ s => s.effects = before)
      (.choose (fun _ => modify_told _) fun _ => recordStreamFailure_told _)
      fun _ => modify_told _) fun _ => Triple.pure fun _ same => ⟨by simp [same], genuine⟩
  refine Triple.bind (modify_told _) fun _ => ?_
  cases message with
  | response response =>
    cases response with
    | error code text => exact failed _
    | _ => exact answered _ rfl
  | _ => exact failed _

theorem orTerminalize_told {report : Supervisor Unit} {events : List SinkEvent}
    (reports : Triple (fun s => s.effects = before) report
      (fun _ s => s.effects = before ++ events.map .deliver) (fun _ _ => True)) :
    Triple (fun s => s.effects = before) (orTerminalize c waits a report)
      (fun _ s => s.effects = before ++ events.map .deliver) (fun _ _ => True) := by
  apply Triple.captured reports
  · exact fun _ => Triple.pure fun _ same => same
  · exact fun _ => .after _ fun _ => Triple.raise fun _ _ => trivial

theorem orCancel_told :
    Triple (fun s => s.effects = before) (orCancel c waits a) (Told before []) (fun _ _ => True) :=
  .choose (fun _ => replaceAndFail_fails _ _) fun _ =>
    Triple.pure fun _ same => ⟨by simp [same], trivial⟩

theorem handleMessage_told (message : Message) :
    Triple (fun s => s.effects = before) (handleMessage c waits a message)
      (Told before (c.delivers a message)) (fun _ _ => True) := by
  have failed : ∀ error : LeanWorkerError, Triple (fun s : World => s.effects = before)
      (terminalizeRequestFailure c a.streamElapsed waits >>= fun _ => raise error)
      (Told before (c.delivers a message)) (fun _ _ => True) := fun error =>
    .after _ fun _ => Triple.raise fun _ _ => trivial
  have cancels : ∀ events : List SinkEvent,
      Triple (fun s => s.effects = before ++ events.map .deliver) (orCancel c waits a)
        (Told before events) (fun _ _ => True) := fun events =>
    orCancel_told.consequence (fun _ h => h) (fun _ _ h => ⟨by simpa using h.1, h.2⟩)
      fun _ _ h => h
  cases message with
  | progressTick tick =>
    refine Triple.bind (modify_told _) fun _ => Triple.bind (orTerminalize_told ?_)
      fun _ => cancels _
    intro s same
    cases present : c.progress <;> cases sink : a.sink <;>
      simp [reportParentProgress, RequestContext.delivers, present, same]
  | dataRow row =>
    refine Triple.bind (modify_told _) fun _ => Triple.bind (orTerminalize_told ?_)
      fun _ => Triple.bind (modify_told _) fun _ => cancels _
    intro s same
    cases present : c.data with
    | none => simp [reportParentDataRow]
    | some target =>
      cases target <;> cases sink : a.sink <;>
        simp [reportParentDataRow, RequestContext.delivers, present, same]
  | diagnostic diagnostic =>
    refine Triple.bind (modify_told _) fun _ => Triple.bind (orTerminalize_told ?_)
      fun _ => Triple.pure fun _ same => ⟨same, trivial⟩
    intro s same
    cases present : c.diagnostics <;> cases sink : a.sink <;>
      simp [reportParentDiagnostic, RequestContext.delivers, present, same]
  | _ => exact failed _

end

abbrev Excused (c : RequestContext) (a : TurnAnswers) (e : LeanWorkerError) : Prop :=
  e.blamesChild = true → ∃ message, a.message? = some message ∧ c.admits message = false

theorem excused_of_blameless {A : Type} {m : Supervisor A} (blameless : Blameless m) :
    Raises (Excused c a) m :=
  blameless.weaken fun e innocent blames => absurd blames (by simp [innocent])

theorem handleReception_excused (reception : Reception) (of : reception.Of c a) (s : World)
    (inLoop : s.worker.InLoop c config) :
    (handleReception c waits a reception s).Meets (fun _ _ => True) (fun e _ => Excused c a e) := by
  cases reception with
  | sampleAgain => trivial
  | timedOut =>
    exact excused_of_blameless (replaceAndFail_blameless c waits a _ _ fun _ => rfl) s trivial
  | disconnected =>
    exact excused_of_blameless (.bind (modify_raises _) fun _ => .raise rfl) s trivial
  | event event =>
    unfold Reception.Of at of
    split at of
    · rename_i frame backpressure received
      obtain rfl := Reception.event.inj of
      rw [handleReception, handleEvent_fresh waits a backpressure frame s inLoop]
      refine Raises.bind (modify_raises _) (fun _ => ?_) s trivial
      cases frame with
      | failed text eof =>
        refine .bind (terminalizeRequestFailure_raises c _ _) fun _ => .choose (fun _ => ?_)
          fun _ => .raise fun blames => by cases blames
        exact excused_of_blameless (.bind (modify_raises _) fun _ =>
          .bind (waitForExit_blameless _) fun _ => .raise (by simp))
      | frame message =>
        have heard : a.message? = some message := by simp [TurnAnswers.message?, received]
        cases terminal : message.isTerminal with
        | true =>
          simp only [terminal, if_true]
          exact excused_of_blameless (handleTerminal_blameless c _ a terminal)
        | false =>
          simp only [terminal, Bool.false_eq_true, if_false]
          exact (handleMessage_raises c _ a terminal).weaken
            fun e blaming blames => ⟨message, heard, blaming blames⟩
    · exact absurd rfl (of event)

theorem handleReception_told (reception : Reception) (of : reception.Of c a) (s : World)
    (inLoop : s.worker.InLoop c config) :
    (handleReception c waits a reception s).Meets (Told s.effects (c.turnDelivers a))
      (fun _ _ => True) := by
  unfold Reception.Of at of
  cases reception with
  | event event =>
    split at of
    · rename_i frame backpressure received
      obtain rfl := Reception.event.inj of
      rw [handleReception, handleEvent_fresh waits a backpressure frame s inLoop]
      refine Triple.bind (modify_told _) (fun _ => ?_) s rfl
      cases frame with
      | failed text eof =>
        refine .after _ fun _ => .choose (fun _ => ?_) fun _ => Triple.raise fun _ _ => trivial
        exact .after _ fun _ => .after _ fun _ => Triple.raise fun _ _ => trivial
      | frame message =>
        simp only [RequestContext.turnDelivers, received]
        cases terminal : message.isTerminal with
        | false => exact handleMessage_told message
        | true =>
          cases message with
          | response response => exact handleTerminal_told _
          | _ => cases terminal
    · exact absurd rfl (of event)
  | sampleAgain =>
    have silent : c.turnDelivers a = [] := by
      unfold RequestContext.turnDelivers
      split at of
      · cases of
      · rename_i other
        split
        · rename_i received
          exact absurd received (other _ _)
        · rfl
    rw [silent]
    exact ⟨by simp, trivial⟩
  | timedOut => exact replaceAndFail_fails (P := fun _ => True) _ _ s trivial
  | disconnected => trivial

structure GaveUpEarly (s : World) (e : LeanWorkerError) (t : World) : Prop where
  silent : DeliversWithin [] s t
  innocent : e.blamesChild = false
  renewed : t.worker.Ready → t.Respawned

/-- A turn either gives the request up before it receives anything, or receives once; and if it
goes on or completes, the history grew by the receive and by what was delivered. -/
theorem readTurn_hears (s : World) (inLoop : s.worker.InLoop c config) :
    (readTurn c waits a s).Meets
      (fun turn t => turn.Genuine ∧ ∃ bound,
        t.effects = s.effects ++ .receive bound :: (c.turnDelivers a).map .deliver)
      (fun e t => GaveUpEarly s e t ∨
        (∃ bound later, t.effects = s.effects ++ .receive bound :: later) ∧ Excused c a e) := by
  obtain ⟨exceeded, sampled, sampledBy, inLoop', same, _, hit⟩ :=
    hardRssLimitExceeded_inLoop a.rss s inLoop
  have early : ∀ (reason : LeanWorkerRestartReason) (error : LeanWorkerStats → LeanWorkerError),
      stopIntent reason = .killOnly → (∀ stats, (error stats).blamesChild = false) →
      (∀ stats, (error stats).saysNotRunning = false) →
      (replaceAndFail c waits a reason error sampled).Meets (fun _ _ => False)
        (GaveUpEarly s) := by
    intro reason error killOnly innocent running
    have gaveUp := @replaceAndFail_looping c config False waits a reason killOnly error running
      (fun _ _ => True) sampled inLoop'
    have silent := @replaceAndFail_moves (DeliversWithin []) _ c waits a reason error sampled
    have fails := @replaceAndFail_fails c waits a (fun _ => True) (fun _ _ => False) reason error
      sampled trivial
    have blameless := replaceAndFail_blameless c waits a reason error innocent sampled trivial
    cases outcome : replaceAndFail c waits a reason error sampled with
    | waiting t => trivial
    | returned turn t => rw [outcome] at fails; exact fails
    | raised e t =>
      rw [outcome] at silent blameless gaveUp
      obtain ⟨new, grown, delivered⟩ := silent
      exact ⟨⟨new, same ▸ grown, delivered⟩, blameless,
        fun ready => (gaveUp.renewed ready).resolve_left id⟩
  simp only [readTurn, bind_apply, sampledBy, Outcome.andThen_returned]
  cases exceeded with
  | some pair =>
    exact (early _ _ rfl (fun _ => rfl) fun _ => rfl).weaken (fun _ _ never => never.elim)
      fun _ _ h => .inl h
  | none =>
    by_cases left : c.remaining a.now = some 0
    · simp only [bind_apply, receiveEvent_early left, Outcome.andThen_returned, handleReception]
      exact (early _ _ rfl (fun _ => rfl) fun _ => rfl).weaken (fun _ _ never => never.elim)
        fun _ _ h => .inl h
    · obtain ⟨bound, receives⟩ := receiveEvent_receives left sampled
      change ((receiveEvent c a >>= handleReception c waits a) sampled).Meets _ _
      rw [bind_apply]
      cases outcome : receiveEvent c a sampled with
      | waiting t => trivial
      | raised e t => rw [outcome] at receives; exact receives.elim
      | returned reception t =>
        rw [outcome] at receives
        obtain ⟨rfl, of⟩ := receives
        have told := @handleReception_told c config waits a reception of
          { sampled with effects := sampled.effects ++ [.receive bound] } inLoop'
        have excused := @handleReception_excused c config waits a reception of
          { sampled with effects := sampled.effects ++ [.receive bound] } inLoop'
        have grows : Moves (Appends fun _ => True) (handleReception c waits a reception) := by
          cases reception with
          | event event => exact handleEvent_moves c waits a event
          | sampleAgain => exact .pure _
          | timedOut => exact replaceAndFail_moves c waits a _ _
          | disconnected => exact .bind finish_moves fun _ => .raise _
        have grown := grows { sampled with effects := sampled.effects ++ [.receive bound] }
        rw [Outcome.andThen_returned]
        cases handled : handleReception c waits a reception
            { sampled with effects := sampled.effects ++ [.receive bound] } with
        | waiting t => trivial
        | returned turn t =>
          rw [handled] at told
          exact ⟨told.2, bound, by rw [told.1, same, List.append_assoc]; rfl⟩
        | raised e t =>
          rw [handled] at grown excused
          obtain ⟨later, grown, _⟩ := grown
          refine .inr ⟨⟨bound, later, ?_⟩, excused⟩
          rw [← same]
          simpa using grown

/-- From `s` to `t` the sinks have got the events of these messages, in this order. -/
def Shown (messages : List Message) (s t : World) : Prop :=
  ∃ new, t.effects = s.effects ++ new ∧ (deliveries new).map SinkEvent.message = messages

/-- From `s` to `t` the sinks have got the events of a first part of these messages. -/
def ShownWithin (messages : List Message) (s t : World) : Prop :=
  ∃ new, t.effects = s.effects ++ new ∧ (deliveries new).map SinkEvent.message <+: messages

theorem Shown.trans {first second : List Message} {s t u : World} (before : Shown first s t)
    (after : Shown second t u) : Shown (first ++ second) s u := by
  obtain ⟨new, grown, shown⟩ := before
  obtain ⟨new', grown', shown'⟩ := after
  refine ⟨new ++ new', by rw [grown', grown, List.append_assoc], ?_⟩
  rw [deliveries_append, List.map_append, shown, shown']

theorem Shown.within {first second : List Message} {s t u : World} (before : Shown first s t)
    (after : ShownWithin second t u) : ShownWithin (first ++ second) s u := by
  obtain ⟨new, grown, shown⟩ := before
  obtain ⟨new', grown', shown'⟩ := after
  refine ⟨new ++ new', by rw [grown', grown, List.append_assoc], ?_⟩
  rw [deliveries_append, List.map_append, shown]
  exact (List.prefix_append_right_inj _).mpr shown'

/-- The response was the last of what was unread, and the sinks have got the rest. -/
structure Concluded (c : RequestContext) (p q : Pipe) (response : Response) (s t : World) :
    Prop where
  genuine : response.isError = false
  drained : q.unread = []
  heard : ∃ events, p.unread = events ++ [.response response] ∧ Shown (events.filter c.wants) s t

/-- The request failed: the sinks have got a first part of what was unread, a worker that can go on
has nothing left to read, and the child is blamed only for what the request has no use for. -/
structure Abandoned (c : RequestContext) (g : Answered) (p q : Pipe) (e : LeanWorkerError)
    (s t : World) : Prop where
  drained : t.worker.Ready → q.unread = []
  heard : ShownWithin (p.unread.filter c.wants) s t
  blamed : e.blamesChild = true → ∃ m, g.frame.emits m = true ∧ c.admits m = false

namespace Pipe

variable {start p q : Pipe} {s t : World} {new : List Effect}

theorem After.onwards (before : start.After s p) (grown : t.effects = s.effects ++ new)
    (after : start.After t q) : p.replay new = some q := by
  unfold After at before after
  rw [grown] at after
  obtain ⟨m, replayed, later⟩ := replay_append after
  rw [before] at replayed
  rwa [Option.some.inj replayed]

theorem After.split (grown : t.effects = s.effects ++ new) (after : start.After t q) :
    ∃ m, start.After s m ∧ m.replay new = some q := by
  unfold After at after
  rw [grown] at after
  exact replay_append after

theorem replay_received {bound : Option Duration} {events : List SinkEvent}
    (replayed : p.replay (.receive bound :: events.map .deliver) = some q) : p.hands = some q := by
  obtain ⟨m, handed, later⟩ := replay_cons replayed
  have idle : m.replay (events.map .deliver) = some m := by
    refine replay_idle m fun e member => ?_
    obtain ⟨event, _, rfl⟩ := List.mem_map.mp member
    rfl
  rw [idle] at later
  exact Option.some.inj later ▸ handed

theorem hands_drained (drained : p.unread = []) (handed : p.hands = some q) : q.unread = [] := by
  unfold hands at handed
  split at handed
  · cases handed
  · split at handed
    · rw [← Option.some.inj handed]
      exact drained
    · rw [drained] at handed
      cases handed

theorem replay_drained (alone : ∀ e ∈ new, e.reachesChild = false) (drained : p.unread = [])
    (replayed : p.replay new = some q) : q.unread = [] := by
  induction new generalizing p with
  | nil => exact Option.some.inj replayed ▸ drained
  | cons e rest ih =>
    obtain ⟨m, moved, replayed⟩ := replay_cons replayed
    refine ih (fun e' member => alone e' (List.mem_cons_of_mem e member)) ?_ replayed
    have here := alone e List.mem_cons_self
    cases e with
    | write request answer => cases here
    | spawn => cases here
    | receive bound => exact hands_drained drained moved
    | _ => rw [← Option.some.inj moved, drained]

end Pipe

theorem turnDelivers_eq : c.turnDelivers a = (a.message?.map (c.delivers a)).getD [] := by
  unfold TurnAnswers.message? RequestContext.turnDelivers
  cases a.received with
  | event frame backpressure => cases frame <;> rfl
  | _ => rfl

theorem turnDelivers_of_message {message : Message} (received : a.message? = some message) :
    c.turnDelivers a = c.delivers a message := by
  rw [turnDelivers_eq, received]
  rfl

theorem turnDelivers_of_nothing (received : a.message? = none) : c.turnDelivers a = [] := by
  rw [turnDelivers_eq, received]
  rfl

theorem message?_of_answers {response : Response} (answers : a.Answers response) :
    a.message? = some (.response response) := by
  obtain ⟨backpressure, received⟩ := answers
  simp [TurnAnswers.message?, received]

theorem hands_shown {p m : Pipe} {rest : List TurnAnswers} {s t : World} {bound : Option Duration}
    (left : p.turns = a :: rest) (handed : p.hands = some m)
    (grown : t.effects = s.effects ++ .receive bound :: (c.turnDelivers a).map .deliver) :
    m.turns = rest ∧ ∃ heard, p.unread = heard ++ m.unread ∧ Shown (heard.filter c.wants) s t := by
  have shown : (deliveries (.receive bound :: (c.turnDelivers a).map .deliver)).map
      SinkEvent.message = (c.turnDelivers a).map SinkEvent.message := by
    rw [← List.singleton_append, deliveries_append, deliveries_map_deliver]
    rfl
  cases received : a.message? with
  | none =>
    obtain rfl := Pipe.hands_nothing left received handed
    refine ⟨rfl, [], rfl, _, grown, ?_⟩
    rw [shown, turnDelivers_of_nothing received]
    rfl
  | some message =>
    obtain ⟨unread, whole, rfl⟩ := Pipe.hands_frame left received handed
    refine ⟨rfl, [message], whole, _, grown, ?_⟩
    rw [shown, turnDelivers_of_message received, c.delivers_message]

theorem readTurn_abandons {g : Answered} (sound : g.Sound) {start p q : Pipe} {s t : World}
    {rest : List TurnAnswers} {before : List Message} {e : LeanWorkerError}
    (inLoop : s.worker.InLoop c config) (outcome : readTurn c waits a s = .raised e t)
    (after : start.After s p) (left : p.turns = a :: rest)
    (written : g.written = before ++ p.unread) (replayed : start.After t q) :
    Abandoned c g p q e s t := by
  have hears := @readTurn_hears c config waits a s inLoop
  have gaveUp := @readTurn_looping c config waits a s inLoop
  have within := @readTurn_within c config waits a s inLoop
  rw [outcome] at hears gaveUp within
  have respawned : t.Respawned → q.unread = [] := by
    rintro ⟨history, last⟩
    unfold Pipe.After at replayed
    rw [last] at replayed
    exact Pipe.replay_spawned replayed
  rcases hears with early | ⟨⟨bound, later, grown⟩, excused⟩
  · obtain ⟨new, grown, delivered⟩ := early.silent
    refine ⟨fun ready => respawned (early.renewed ready), ⟨new, grown, ?_⟩,
      fun blames => absurd blames (by simp [early.innocent])⟩
    rw [List.prefix_nil.mp delivered]
    exact List.nil_prefix
  · obtain ⟨m, handed, onwards⟩ := Pipe.replay_cons (after.onwards grown replayed)
    have next {message : Message} (received : a.message? = some message) :
        ∃ unread, p.unread = message :: unread ∧
          m = { p with turns := rest, unread := unread } := Pipe.hands_frame left received handed
    refine ⟨fun ready => ?_, ?_, fun blames => ?_⟩
    · rcases gaveUp.renewed ready with ⟨response, answers⟩ | spawned
      · obtain ⟨unread, whole, rfl⟩ := next (message?_of_answers answers)
        obtain ⟨rfl, _⟩ := sound.response (whole ▸ written)
        have terminal := @readTurn_terminal c config waits a response answers s inLoop
        rw [outcome] at terminal
        rcases terminal with passes | spawns
        · obtain ⟨new, grown', _, alone⟩ := passes.effects
          rw [Outcome.state_raised, grown] at grown'
          refine Pipe.replay_drained (fun e' member => alone e' ?_) rfl onwards
          rw [← List.append_cancel_left grown']
          exact List.mem_cons_of_mem _ member
        · exact respawned (spawns ready)
      · exact respawned spawned
    · obtain ⟨new, grown', delivered⟩ := within
      refine ⟨new, grown', (delivered.map SinkEvent.message).trans ?_⟩
      cases received : a.message? with
      | none =>
        rw [turnDelivers_of_nothing received]
        exact List.nil_prefix
      | some message =>
        obtain ⟨unread, whole, _⟩ := next received
        have parted : message :: unread = [message] ++ unread := rfl
        rw [turnDelivers_of_message received, c.delivers_message, whole, parted,
          List.filter_append]
        exact List.prefix_append _ _
    · obtain ⟨message, received, useless⟩ := excused blames
      obtain ⟨unread, whole, _⟩ := next received
      refine ⟨message, sound.event (whole ▸ written) ?_, useless⟩
      cases message <;> first | rfl | cases useless

/-- The loop hears the frames of one group, in their order: up to the response when it returns,
and a first part of them when it fails. -/
theorem readLoop_hears {g : Answered} (sound : g.Sound) (start : Pipe) (turns : List TurnAnswers)
    (s : World) (p : Pipe) (before : List Message) (inLoop : s.worker.InLoop c config)
    (after : start.After s p) (left : p.turns = turns) (written : g.written = before ++ p.unread) :
    (readLoop c waits turns s).Meets
      (fun response t => ∀ q, start.After t q → Concluded c p q response s t)
      (fun e t => ∀ q, start.After t q → Abandoned c g p q e s t) := by
  induction turns generalizing waits s p before with
  | nil => trivial
  | cons a rest ih =>
    have hears := @readTurn_hears c config waits a s inLoop
    have turn := @readTurn_looping c config waits a s inLoop
    simp only [readLoop, bind_apply]
    cases outcome : readTurn c waits a s with
    | waiting t => trivial
    | raised e t =>
      exact fun q replayed => readTurn_abandons sound inLoop outcome after left written replayed
    | returned result t =>
      rw [outcome] at hears turn
      obtain ⟨genuine, bound, grown⟩ := hears
      rw [Outcome.andThen_returned]
      cases result with
      | complete response =>
        intro q replayed
        have handed := Pipe.replay_received (after.onwards grown replayed)
        have received := message?_of_answers turn.1
        obtain ⟨unread, whole, rfl⟩ := Pipe.hands_frame left received handed
        obtain ⟨rfl, _⟩ := sound.response (whole ▸ written)
        refine ⟨genuine, rfl, [], whole, _, grown, ?_⟩
        rw [turnDelivers_of_message received]
        rfl
      | again waits' =>
        obtain ⟨_, inLoop'⟩ := turn
        have grows := @readLoop_moves (Appends fun _ => True) _ c waits' rest t
        have later (m : Pipe) (handed : start.After t m) (heard : List Message)
            (unread : p.unread = heard ++ m.unread) (turns : m.turns = rest) :=
          @ih waits' t m (before ++ heard) inLoop' handed turns
            (by rw [written, unread, List.append_assoc])
        have met {u : World} {q : Pipe} (grown' : Appends (fun _ => True) t u)
            (replayed : start.After u q) : ∃ m, start.After t m ∧ m.turns = rest ∧
              ∃ heard, p.unread = heard ++ m.unread ∧ Shown (heard.filter c.wants) s t := by
          obtain ⟨new, grown', _⟩ := grown'
          obtain ⟨m, reached, _⟩ := replayed.split grown'
          have handed := Pipe.replay_received (after.onwards grown reached)
          exact ⟨m, reached, hands_shown left handed grown⟩
        dsimp only
        cases ended : readLoop c waits' rest t with
        | waiting u => trivial
        | returned response u =>
          rw [ended] at grows
          intro q replayed
          obtain ⟨m, reached, turns, heard, unread, shown⟩ := met grows replayed
          have concluded := later m reached heard unread turns
          rw [ended] at concluded
          obtain ⟨genuine, drained, events, whole, shown'⟩ := concluded q replayed
          refine ⟨genuine, drained, heard ++ events, by rw [unread, whole, List.append_assoc], ?_⟩
          rw [List.filter_append]
          exact shown.trans shown'
        | raised e u =>
          rw [ended] at grows
          intro q replayed
          obtain ⟨m, reached, turns, heard, unread, shown⟩ := met grows replayed
          have abandoned := later m reached heard unread turns
          rw [ended] at abandoned
          obtain ⟨drained, shown', blamed⟩ := abandoned q replayed
          refine ⟨drained, ?_, blamed⟩
          rw [unread, List.filter_append]
          exact shown.within shown'

end LeanRs
