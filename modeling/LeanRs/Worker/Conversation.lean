import LeanRs.Worker.Hearing
import LeanRs.Worker.Invariants

/-! Requests and their answers over runs of public operations: what a supervisor returns for a
request is what its child wrote for that very request. -/
namespace LeanRs

open Procedures Procedure Supervisor

/-- The worker is settled, and one that can go on has nothing left to read. -/
structure Calm (start : Pipe) (s : World) : Prop where
  settled : s.worker.Settled True
  drained : ∀ p, start.After s p → s.worker.Ready → p.unread = []

section

variable {start : Pipe} {s t : World}

theorem Calm.onwards (calm : Calm start s) (new : List Effect) (settled : t.worker.Settled True)
    (ready : t.worker.Ready → s.worker.Ready) (grown : t.effects = s.effects ++ new)
    (idle : ∀ e ∈ new, e.idle = true) : Calm start t := by
  refine ⟨settled, fun p after isReady => ?_⟩
  obtain ⟨m, before, replayed⟩ := after.split grown
  rw [Pipe.replay_idle m idle] at replayed
  exact calm.drained p (Option.some.inj replayed ▸ before) (ready isReady)

theorem Calm.ofGone (gone : t.worker.Gone) : Calm start t :=
  ⟨.gone gone, fun _ _ ready => absurd gone ready.toOwned.not_gone⟩

theorem Calm.ofStopping (stopping : t.worker.Stopping) : Calm start t :=
  ⟨.stopping stopping, fun _ _ ready => absurd stopping ready.not_stopping⟩

theorem Calm.ofRespawned (settled : t.worker.Settled True) (respawned : t.Respawned) :
    Calm start t := by
  refine ⟨settled, fun p after _ => ?_⟩
  obtain ⟨history, last⟩ := respawned
  unfold Pipe.After at after
  rw [last] at after
  exact Pipe.replay_spawned after

theorem LeanWorker.Ready.congr {w w' : LeanWorker} (ready : w.Ready)
    (same : w'.handles = w.handles) : w'.Ready := by
  simp only [LeanWorker.handles, Prod.mk.injEq] at same
  obtain ⟨child, lastExit, stdin, stdout, state⟩ := same
  refine ⟨⟨?_, lastExit.trans ready.lastExit, stdin.trans ready.stdin⟩,
    stdout.trans ready.stdout, ?_⟩
  · rw [child]; exact ready.child
  · rw [state]; exact ready.idle

theorem modify_calm (f : LeanWorker → LeanWorker) (same : ∀ w, (f w).handles = w.handles)
    {R : LeanWorkerError → World → Prop} :
    Triple (Calm start) (modify f) (fun _ => Calm start) R := fun s calm =>
  calm.onwards (t := { s with worker := f s.worker }) [] (calm.settled.congr (same s.worker))
    (fun ready => ready.congr (same s.worker).symm) (List.append_nil _).symm nofun

theorem count_calm (f : LeanWorkerStats → LeanWorkerStats) : Preserves (Calm start) (count f) :=
  modify_calm (fun w => w.counted f) fun _ => rfl

theorem status_calm (answer : TryWait) : Preserves (Calm start) (status answer) := by
  intro s calm
  have polled (w : LeanWorker) (settled : w.Settled True) (ready : w.Ready → s.worker.Ready) :
      Calm start ⟨w, s.effects ++ [.tryWait answer]⟩ :=
    calm.onwards [.tryWait answer] settled ready rfl (by simp [Effect.idle])
  rcases calm.settled.formed with owned | gone
  · rw [status_owned answer s owned]
    cases answer with
    | failed source => exact polled _ calm.settled id
    | exited exitStatus stderr => exact .ofGone (LeanWorker.gone_reaped _ _ _ _)
    | running => exact polled _ calm.settled id
  · obtain ⟨exit, _, _, polled⟩ := status_gone answer s gone
    rw [polled]
    exact .ofGone gone.exited

theorem shutdownChild_failed {a : ShutdownAnswers} {source : String}
    (failed : a.status = .failed source) (intent : ShutdownIntent) (s : World)
    (owned : s.worker.Owned) :
    shutdownChild a intent s =
      .raised (.wait source) { s with effects := s.effects ++ [.tryWait a.status] } := by
  simp only [shutdownChild, bind_apply, worker_apply, Outcome.andThen_returned, failed,
    status_owned _ s owned, Outcome.andThen_raised]

theorem shutdown_calm (a : ShutdownAnswers) : Preserves (Calm start) (shutdown a) := by
  intro s calm
  have stops := shutdownChild_stops a .graceful s calm.settled.formed
  unfold shutdown
  cases outcome : shutdownChild a .graceful s with
  | waiting t => trivial
  | returned report t =>
    rw [outcome] at stops
    exact .ofGone stops.1
  | raised e t =>
    rw [outcome] at stops
    rcases stops with stopping | ⟨_, owned, source, failed, _⟩
    · exact .ofStopping stopping
    · rw [shutdownChild_failed failed .graceful s owned] at outcome
      obtain ⟨_, rfl⟩ := Outcome.raised.inj outcome
      exact calm.onwards [.tryWait a.status] calm.settled id rfl (by simp [Effect.idle])

theorem restartWithReason_failed {a : RestartAnswers} {source : String}
    (failed : a.stop.status = .failed source) (reason : LeanWorkerRestartReason) (s : World)
    (owned : s.worker.Owned) :
    restartWithReason reason a s = .raised (.wait source)
      ⟨(s.worker.counted LeanWorkerStats.attempted).counted
        fun stats => stats.failedBecause "stop_failed",
        s.effects ++ [.replace reason] ++ [.tryWait a.stop.status]⟩ := by
  simp only [restartWithReason, bind_apply, worker_apply, emit_apply, count_apply, capture_apply,
    Outcome.andThen_returned, shutdownChild_failed failed (stopIntent reason)
      ⟨s.worker.counted LeanWorkerStats.attempted, s.effects ++ [.replace reason]⟩
      (owned.counted _), Outcome.captured_raised, raise_apply]

theorem restartWithReason_calm (reason : LeanWorkerRestartReason) (a : RestartAnswers) :
    Preserves (Calm start) (restartWithReason reason a) := by
  intro s calm
  have ends := restartWithReason_ends reason a s calm.settled.formed
  have settles := @restartWithReason_settles True True reason a s calm.settled (.inl trivial)
  have respawns := restartWithReason_respawns reason a s trivial
  cases outcome : restartWithReason reason a s with
  | waiting t => trivial
  | returned _ t =>
    rw [outcome] at settles respawns
    exact .ofRespawned (.ready settles.1) respawns
  | raised e t =>
    rw [outcome] at ends settles
    cases ends with
    | refused restarts window w' gone state memory unchanged full => exact .ofGone gone
    | spawnFailed err w' gone memory restarts running => exact .ofGone gone
    | stopFailed err w' memory restarts owned unreaped system left =>
      rcases left with stopping | ⟨_, _, _, source, _, failed⟩
      · exact .ofStopping stopping
      · rw [restartWithReason_failed failed reason s owned] at outcome
        obtain ⟨_, rfl⟩ := Outcome.raised.inj outcome
        refine calm.onwards [.replace reason, .tryWait a.stop.status] settles.settled
          (fun ready => ?_) (List.append_assoc ..) (by simp [Effect.idle])
        exact ready.congr rfl

theorem ensureRunning_calm (answer : TryWait) : Preserves (Calm start) (ensureRunning answer) := by
  refine .bind .worker fun w => .choose (fun _ => .raise _) fun _ =>
    .bind (status_calm answer) fun found => ?_
  cases found
  · exact .pure _
  · exact .raise _

theorem prepareRequest_calm (importLike : Bool) (a : PrepareAnswers) :
    Preserves (Calm start) (prepareRequest importLike a) := by
  have ceiling : Preserves (Calm start) (rssCeilingReached a.rss) := by
    refine .bind .worker fun w => ?_
    split
    · exact .pure _
    · exact .bind (count_calm _) fun _ => .pure _
  have admitting (reason : LeanWorkerRestartReason) :
      Preserves (Calm start) (restartAdmitting importLike reason a.restart) :=
    .bind (restartWithReason_calm reason _) fun _ => count_calm _
  refine .bind (ensureRunning_calm _) fun _ => .bind (.bind .worker fun _ =>
    .choose (fun _ => count_calm _) fun _ => .pure _) fun _ => .bind .worker fun w => ?_
  split
  · exact admitting _
  · refine .bind ceiling fun reached => ?_
    split
    · exact admitting _
    · split
      · exact admitting _
      · exact count_calm _

end

/-- The request went out when nothing was left to read, and this is what the child makes of it. -/
def Pipe.Sent (start : Pipe) (request : Request) (g : Answered) (s : World) : Prop :=
  ∃ before later m rest, s.effects = before ++ .write request .written :: later ∧
    start.replay before = some m ∧ m.unread = [] ∧ m.child = g :: rest

/-- A child that never reads the request has no frames for it. -/
structure Posed (start : Pipe) (request : Request) (s : World) (p : Pipe) (g : Answered) :
    Prop where
  sound : g.Sound
  frame : g.frame = .request request
  unread : p.unread = g.written
  sent : g.written = [] ∨ start.Sent request g s

/-- A request has gone out, to a worker that may have lost its output pipe. -/
structure Posted (start : Pipe) (request : Request) (s : World) : Prop where
  accepting : s.worker.Accepting True
  posed : ∀ p, start.After s p → s.worker.Ready → ∃ g, Posed start request s p g

section

variable {start : Pipe} {request : Request} {s t : World}

theorem Pipe.Sent.onwards {g : Answered} (sent : start.Sent request g s) {new : List Effect}
    (grown : t.effects = s.effects ++ new) : start.Sent request g t := by
  obtain ⟨before, later, m, rest, history, replayed, drained, next⟩ := sent
  exact ⟨before, later ++ new, m, rest, by rw [grown, history, List.append_assoc]; rfl, replayed,
    drained, next⟩

theorem Posted.congr (posted : Posted start request s) (same : t.worker.handles = s.worker.handles)
    (effects : t.effects = s.effects) : Posted start request t := by
  have settled := same
  simp only [LeanWorker.handles, Prod.mk.injEq] at settled
  obtain ⟨child, lastExit, stdin, stdout, state⟩ := settled
  refine ⟨?_, fun p after ready => ?_⟩
  · have owned := posted.accepting.owned
    exact posted.accepting.congr ⟨by rw [child]; exact owned.child, lastExit.trans owned.lastExit,
      stdin.trans owned.stdin⟩ stdout state
  · unfold Pipe.After at after
    rw [effects] at after
    obtain ⟨g, sound, frame, unread, sent⟩ := posted.posed p after (ready.congr same.symm)
    exact ⟨g, sound, frame, unread, sent.imp_right fun sent =>
      sent.onwards (effects.trans (List.append_nil _).symm)⟩

theorem writeRequest_posts (sound : start.Sound) (answer : WriteAnswer) :
    Triple (fun s => Calm start s ∧ s.worker.Accepting True) (writeRequest request answer)
      (fun _ => Posted start request) (fun _ => Calm start) := by
  rintro s ⟨calm, accepting⟩
  have refused (answer : WriteAnswer) (failed : answer ≠ .written) :
      Calm start { s with effects := s.effects ++ [.write request answer] } := by
    refine calm.onwards [.write request answer] calm.settled id rfl ?_
    cases answer with
    | written => exact absurd rfl failed
    | _ => simp [Effect.idle]
  cases answer with
  | tooLarge text =>
    simpa [writeRequest, accepting.owned.stdin] using refused (.tooLarge text) (by simp)
  | broken text =>
    simpa [writeRequest, accepting.owned.stdin] using refused (.broken text) (by simp)
  | written =>
    simp only [writeRequest, bind_apply, worker_apply, Outcome.andThen_returned,
      accepting.owned.stdin, if_true, emit_apply, pure_apply, Outcome.meets_returned]
    refine ⟨accepting, fun p after ready => ?_⟩
    have grown : s.effects ++ [.write request .written] =
        s.effects ++ [Effect.write request .written] := rfl
    obtain ⟨m, before, replayed⟩ := after.split (s := s) grown
    obtain ⟨p', read, last⟩ := Pipe.replay_cons replayed
    obtain rfl := Option.some.inj last
    have drained := calm.drained m before ready
    have next : m.reads request = some p' := read
    unfold Pipe.reads at next
    split at next
    · rw [← Option.some.inj next]
      exact ⟨⟨.request request, []⟩, .inr (fun _ member => by cases member), rfl, drained, .inl rfl⟩
    · rename_i g rest child
      split at next
      · rename_i frame
        rw [← Option.some.inj next]
        refine ⟨g, (Pipe.replay_sound sound before).child g (child ▸ List.mem_cons_self), frame, ?_,
          .inr ⟨s.effects, [], m, rest, rfl, before, drained, child⟩⟩
        rw [drained]
        rfl
      · cases next

theorem sendRequest_posts (sound : start.Sound) (poll : TryWait) (answer : WriteAnswer) :
    Triple (Calm start) (sendRequest poll request answer) (fun _ => Posted start request)
      (fun _ => Calm start) := by
  have accepted := Triple.both (@ensureRunning_calm start poll)
    ((ensureRunning_accepting poll).consequence (fun _ calm => calm.settled) (fun _ _ h => h)
      fun _ _ h => h)
  exact Triple.bind (accepted.consequence (fun _ h => h) (fun _ _ h => h) fun _ _ h => h.1)
    fun _ => writeRequest_posts sound answer

theorem recordRequest_posts (importLike : Bool) (now : Instant)
    {R : LeanWorkerError → World → Prop} :
    Triple (Posted start request) (recordRequest importLike now)
      (fun _ => Posted start request) R :=
  Triple.update fun _ posted => posted.congr rfl rfl

theorem issueRequest_posts (sound : start.Sound) (importLike : Bool) (a : RequestAnswers) :
    Triple (Calm start) (issueRequest request importLike a) (fun _ => Posted start request)
      (fun _ => Calm start) :=
  Triple.bind (prepareRequest_calm importLike a.prepare) fun _ =>
    Triple.bind (sendRequest_posts sound a.poll a.write) fun _ => recordRequest_posts _ _

end

structure Unheard (start : Pipe) (turns : List TurnAnswers) (s : World) : Prop where
  turns : ∀ p, start.After s p → p.turns = turns
  silent : deliveries s.effects = []

abbrev Effect.Unheard (e : Effect) : Prop := e.receives = false ∧ e.delivered = none

theorem Unheard.onwards {start : Pipe} {turns : List TurnAnswers} {s t : World}
    (unheard : LeanRs.Unheard start turns s) (appends : Appends Effect.Unheard s t) :
    LeanRs.Unheard start turns t := by
  obtain ⟨new, grown, silent⟩ := appends
  refine ⟨fun p after => ?_, ?_⟩
  · obtain ⟨m, before, replayed⟩ := after.split grown
    rw [Pipe.replay_turns (fun e member => (silent e member).1) replayed]
    exact unheard.turns m before
  · rw [grown, deliveries_append, unheard.silent,
      deliveries_eq_nil fun e member => (silent e member).2]
    rfl

theorem Effect.unheard_of_ofStop (e : Effect) (stop : e.ofStop = true) : e.Unheard := by
  cases e <;> first | exact ⟨rfl, rfl⟩ | cases stop

section

variable {p : Effect → Prop} (stops : ∀ e : Effect, e.ofStop → p e) (spawns : p .spawn)
  (replaces : ∀ reason, p (.replace reason))

include stops

theorem ensureRunning_appends (answer : TryWait) : Moves (Appends p) (ensureRunning answer) := by
  refine .bind worker_appends fun w => .choose (fun _ => .raise _) fun _ =>
    .bind (appends_of_stop stops (status_frame answer)) fun found => ?_
  cases found
  · exact .pure _
  · exact .raise _

include spawns replaces

theorem prepareRequest_appends (importLike : Bool) (a : PrepareAnswers) :
    Moves (Appends p) (prepareRequest importLike a) := by
  have admitting (reason : LeanWorkerRestartReason) :
      Moves (Appends p) (restartAdmitting importLike reason a.restart) :=
    .bind (restartWithReason_appends stops spawns reason (replaces reason) _)
      fun _ => modify_appends _
  have ceiling : Moves (Appends p) (rssCeilingReached a.rss) := by
    refine .bind worker_appends fun w => ?_
    split
    · exact .pure _
    · exact .bind (modify_appends _) fun _ => .pure _
  refine .bind (ensureRunning_appends stops _) fun _ => .bind (.bind worker_appends fun _ =>
    .choose (fun _ => modify_appends _) fun _ => .pure _) fun _ => .bind worker_appends fun w => ?_
  split
  · exact admitting _
  · refine .bind ceiling fun reached => ?_
    split
    · exact admitting _
    · split
      · exact admitting _
      · exact modify_appends _

theorem takePendingRestart_appends (a : RestartAnswers) :
    Moves (Appends p) (takePendingRestart a) := by
  refine .bind worker_appends fun w => ?_
  split
  · exact .bind (modify_appends _) fun _ =>
      restartWithReason_appends stops spawns _ (replaces _) a
  · exact .pure _

omit spawns replaces

theorem sendRequest_appends {request : Request} (sends : ∀ answer, p (.write request answer))
    (poll : TryWait) (answer : WriteAnswer) :
    Moves (Appends p) (sendRequest poll request answer) := by
  refine .bind (ensureRunning_appends stops _) fun _ => .bind worker_appends fun w => .choose
    (fun _ => .bind (emit_appends _ (sends _)) fun _ => ?_) fun _ => .raise _
  cases answer
  · exact .pure _
  · exact .raise _
  · exact .raise _

include spawns replaces

theorem issueRequest_appends {request : Request} (sends : ∀ answer, p (.write request answer))
    (importLike : Bool) (a : RequestAnswers) :
    Moves (Appends p) (issueRequest request importLike a) :=
  .bind (prepareRequest_appends stops spawns replaces _ _) fun _ =>
    .bind (sendRequest_appends stops sends _ _) fun _ => modify_appends _

end

def Sinks.wants (sinks : Sinks) : Message → Bool
  | .progressTick _ => sinks.progress
  | .dataRow _ => sinks.data.isSome
  | .diagnostic _ => sinks.diagnostics
  | _ => false

theorem requestContext_wants (w : LeanWorker) (operation : String) (sinks : Sinks)
    (started : Instant) : (w.requestContext operation sinks started).wants = sinks.wants := by
  funext message
  cases message <;> rfl

/-- Rows may come, and there is no sink for them. -/
def Sinks.Lacks (sinks : Sinks) (request : Request) : Prop :=
  sinks.data = none ∧ ∃ row, request.emits (.dataRow row) = true

theorem lacks_of_useless {w : LeanWorker} {operation : String} {sinks : Sinks} {started : Instant}
    {request : Request} {m : Message} (may : (Message.request request).emits m = true)
    (useless : (w.requestContext operation sinks started).admits m = false) :
    sinks.Lacks request := by
  have event := Message.isEvent_of_emits may
  cases m with
  | dataRow row =>
    refine ⟨?_, row, may⟩
    cases present : sinks.data with
    | none => rfl
    | some target =>
      simp [RequestContext.admits, LeanWorker.requestContext, present] at useless
  | progressTick tick => cases useless
  | diagnostic diagnostic => cases useless
  | _ => cases event

/-- The response is the one that the child wrote for this very request, and the sinks have got
what came before it, in its order. -/
structure Replied (start : Pipe) (request : Request) (sinks : Sinks) (response : Response)
    (t : World) : Prop where
  ready : t.worker.Ready
  genuine : response.isError = false
  answers : request.answeredBy response = true
  heard : ∃ g events, g.frame = .request request ∧ g.written = events ++ [.response response] ∧
    start.Sent request g t ∧
    (deliveries t.effects).map SinkEvent.message = events.filter sinks.wants

/-- The sinks have got a first part of what the child wrote for this very request. -/
structure Unreplied (start : Pipe) (request : Request) (sinks : Sinks) (e : LeanWorkerError)
    (t : World) : Prop where
  heard : deliveries t.effects = [] ∨ ∃ g, g.frame = .request request ∧ start.Sent request g t ∧
    (deliveries t.effects).map SinkEvent.message <+: g.written.filter sinks.wants
  blamed : e.blamesChild = true → sinks.Lacks request

section

variable {start : Pipe} {request : Request} {turns : List TurnAnswers}

theorem readResponseWithEvents_ready (operation : String) (sinks : Sinks) (started : Instant)
    (s : World) (ready : s.worker.Ready) :
    ∃ begun : World, begun.worker.InLoop (s.worker.requestContext operation sinks started)
        s.worker.config ∧ begun.effects = s.effects ∧
      readResponseWithEvents operation sinks started turns s =
        readLoop (s.worker.requestContext operation sinks started) 0 turns begun := by
  refine ⟨⟨LeanWorker.beginInFlight { s.worker with stdout := false } operation, s.effects⟩,
    ⟨⟨ready.child, ready.lastExit, ready.stdin⟩, rfl, rfl, rfl, _, rfl, .inl rfl⟩, rfl, ?_⟩
  simp only [readResponseWithEvents, bind_apply, worker_apply, Outcome.andThen_returned,
    ready.stdout, if_true, modify_apply]

theorem readResponseWithEvents_hears (operation : String) (sinks : Sinks) (started : Instant) :
    Triple (fun s => Posted start request s ∧ Unheard start turns s)
      (readResponseWithEvents operation sinks started turns)
      (fun response t => Calm start t ∧
        ∀ q, start.After t q → Replied start request sinks response t)
      (fun e t => Calm start t ∧ ∀ q, start.After t q → Unreplied start request sinks e t) := by
  rintro s ⟨posted, unheard⟩
  cases posted.accepting with
  | lost allowed lost =>
    simp only [readResponseWithEvents, bind_apply, worker_apply, Outcome.andThen_returned,
      lost.stdout, Bool.false_eq_true, if_false, raise_apply, Outcome.meets_raised]
    refine ⟨⟨.lost trivial lost, fun _ _ ready => ?_⟩, fun _ _ => ⟨.inl unheard.silent, ?_⟩⟩
    · exact nomatch ready.stdout.symm.trans lost.stdout
    · simp [LeanWorker.deadError]
  | ready ready =>
    obtain ⟨begun, inLoop, effects, same⟩ :=
      @readResponseWithEvents_ready turns operation sinks started s ready
    have ends := readLoop_looping 0 turns begun inLoop
    have grows := @readLoop_moves (Appends fun _ => True) _
      (s.worker.requestContext operation sinks started) 0 turns begun
    have hears (p : Pipe) (after : start.After begun p) : ∃ g, Posed start request begun p g ∧
        (readLoop (s.worker.requestContext operation sinks started) 0 turns begun).Meets
          (fun response t => ∀ q, start.After t q →
            Concluded (s.worker.requestContext operation sinks started) p q response begun t)
          (fun e t => ∀ q, start.After t q →
            Abandoned (s.worker.requestContext operation sinks started) g p q e begun t) := by
      have before : start.After s p := by unfold Pipe.After; rw [← effects]; exact after
      obtain ⟨g, sound, frame, unread, sent⟩ := posted.posed p before ready
      exact ⟨g, ⟨sound, frame, unread, sent.imp_right fun sent =>
        sent.onwards (effects.trans (List.append_nil _).symm)⟩, readLoop_hears sound start turns
        begun p [] inLoop after (unheard.turns p before) unread.symm⟩
    have silent : deliveries begun.effects = [] := effects ▸ unheard.silent
    rw [same]
    cases outcome : readLoop (s.worker.requestContext operation sinks started) 0 turns begun with
    | waiting t => trivial
    | returned response t =>
      rw [outcome] at ends grows
      obtain ⟨new, grown, _⟩ := grows
      have concluded (q : Pipe) (after : start.After t q) : q.unread = [] ∧
          Replied start request sinks response t := by
        obtain ⟨p, before, _⟩ := after.split grown
        obtain ⟨g, posed, hears⟩ := hears p before
        rw [outcome] at hears
        obtain ⟨genuine, drained, events, whole, new', grown', shown⟩ := hears q after
        have written := posed.unread.symm.trans whole
        have answers := (posed.sound.response written).2.2
        rw [posed.frame] at answers
        refine ⟨drained, ends, genuine, answers, g, events, posed.frame, written, ?_, ?_⟩
        · refine (posed.sent.resolve_left fun none => ?_).onwards grown
          simp [none] at written
        · rw [grown', deliveries_append, silent, List.nil_append, shown,
            requestContext_wants]
      exact ⟨⟨.ready ends, fun q after _ => (concluded q after).1⟩,
        fun q after => (concluded q after).2⟩
    | raised e t =>
      rw [outcome] at ends grows
      obtain ⟨new, grown, _⟩ := grows
      have abandoned (q : Pipe) (after : start.After t q) :
          (t.worker.Ready → q.unread = []) ∧ Unreplied start request sinks e t := by
        obtain ⟨p, before, _⟩ := after.split grown
        obtain ⟨g, posed, hears⟩ := hears p before
        rw [outcome] at hears
        obtain ⟨drained, ⟨new', grown', shown⟩, blamed⟩ := hears q after
        rw [posed.unread, requestContext_wants] at shown
        have delivered : deliveries t.effects = deliveries new' := by
          rw [grown', deliveries_append, silent, List.nil_append]
        refine ⟨drained, ?_, fun blames => ?_⟩
        · rw [delivered]
          rcases posed.sent with none | sent
          · rw [none] at shown
            exact .inl (List.map_eq_nil_iff.mp (List.prefix_nil.mp shown))
          · exact .inr ⟨g, posed.frame, sent.onwards grown, shown⟩
        · obtain ⟨m, may, useless⟩ := blamed blames
          rw [posed.frame] at may
          exact lacks_of_useless may useless
      exact ⟨⟨ends.settled.weaken fun _ => trivial, fun q after => (abandoned q after).1⟩,
        fun q after => (abandoned q after).2⟩

end

abbrev Poised (start : Pipe) (turns : List TurnAnswers) (s : World) : Prop :=
  Calm start s ∧ Unheard start turns s

structure Stalled (start : Pipe) (e : LeanWorkerError) (t : World) : Prop where
  calm : Calm start t
  silent : deliveries t.effects = []
  innocent : e.blamesChild = false

theorem stalls {start : Pipe} {turns : List TurnAnswers} {A : Type} {m : Supervisor A}
    {Q : World → Prop} (body : Triple (Calm start) m (fun _ => Q) (fun _ => Calm start))
    (appends : Moves (Appends Effect.Unheard) m) (innocent : Blameless m) :
    Triple (Poised start turns) m (fun _ t => Q t ∧ Unheard start turns t) (Stalled start) := by
  intro s poised
  have ends := body s poised.1
  have grows := appends s
  have blameless := innocent s trivial
  cases outcome : m s with
  | waiting t => trivial
  | returned a t =>
    rw [outcome] at ends grows
    exact ⟨ends, poised.2.onwards grows⟩
  | raised e t =>
    rw [outcome] at ends grows blameless
    exact ⟨ends, (poised.2.onwards grows).silent, blameless⟩

/-- The contract of an operation: it leaves no frame unread, and blames its child only where
`blame` allows it. -/
abbrev Converses {A : Type} (start : Pipe) (turns : List TurnAnswers) (blame : Prop)
    (m : Supervisor A) : Prop :=
  Triple (Poised start turns) m (fun _ => Calm start)
    (fun e t => Calm start t ∧ ∀ q, start.After t q → e.blamesChild = true → blame)

/-- A decision on the response, which blames no child for a response that answers the request. -/
def Judges {A : Type} (request : Request) (f : Response → Supervisor A) : Prop :=
  ∀ response s, (f response s).Meets (fun _ t => t = s) fun e t => t = s ∧
    (response.isError = false → request.answeredBy response = true → e.blamesChild = false)

def Checks {A : Type} (m : Supervisor A) : Prop :=
  ∀ s, (m s).Meets (fun _ t => t = s) fun e t => t = s ∧ e.blamesChild = false

theorem Checks.pure {A : Type} (a : A) : Checks (pure a : Supervisor A) := fun _ => rfl

theorem Checks.raise {A : Type} {e : LeanWorkerError} (innocent : e.blamesChild = false) :
    Checks (raise e : Supervisor A) := fun _ => ⟨rfl, innocent⟩

theorem checkCancelled_checks (operation : String) (cancelled : Bool) :
    Checks (checkCancelled operation cancelled) := by
  unfold checkCancelled
  split
  · exact .raise rfl
  · exact .pure _

theorem fixtureCapabilityManifest_checks (built : Except String PathBuf) :
    Checks (fixtureCapabilityManifest built) := by
  cases built
  · exact .raise rfl
  · exact .pure _

theorem encoded_checks (requestJson : Except String JsonText) (failure : String → ProtocolText)
    (innocent : ∀ text, (LeanWorkerError.protocol (failure text)).blamesChild = false) :
    Checks (encoded requestJson failure) := by
  cases requestJson with
  | error text => exact .raise (innocent text)
  | ok text => exact .pure _

section

variable {start : Pipe} {turns : List TurnAnswers} {blame : Prop} {A B : Type}

theorem Converses.after {m : Supervisor A} {f : A → Supervisor B} (checks : Checks m)
    (body : ∀ a, Converses start turns blame (f a)) : Converses start turns blame (m >>= f) := by
  intro s poised
  have checked := checks s
  rw [bind_apply]
  cases outcome : m s with
  | waiting t => trivial
  | returned a t =>
    rw [outcome] at checked
    exact body a t (checked ▸ poised)
  | raised e t =>
    rw [outcome] at checked
    obtain ⟨rfl, innocent⟩ := checked
    exact ⟨poised.1, fun _ _ blames => absurd blames (by simp [innocent])⟩

theorem Converses.discard {m : Supervisor A} (body : Converses start turns blame m) :
    Converses start turns blame (discard m) :=
  Triple.bind body fun _ => Triple.pure fun _ calm => calm

theorem Converses.ofPreserves {m : Supervisor A} (calm : Preserves (Calm start) m)
    (innocent : Blameless m) : Converses start turns blame m := by
  refine (Triple.both calm (innocent.consequence (fun _ _ => trivial) (fun _ _ h => h)
    fun _ _ h => h)).consequence (fun _ poised => poised.1) (fun _ _ h => h.1) fun e t held => ?_
  exact ⟨held.1, fun _ _ blames => absurd blames (by simp [held.2])⟩

theorem unheard_write (request : Request) (answer : WriteAnswer) :
    (Effect.write request answer).Unheard := ⟨rfl, rfl⟩

variable (sound : start.Sound) {request : Request}

include sound

theorem issueRequest_stalls (importLike : Bool) (a : RequestAnswers) :
    Triple (Poised start turns) (issueRequest request importLike a)
      (fun _ t => Posted start request t ∧ Unheard start turns t) (Stalled start) :=
  stalls (issueRequest_posts sound importLike a)
    (issueRequest_appends Effect.unheard_of_ofStop ⟨rfl, rfl⟩ (fun _ => ⟨rfl, rfl⟩)
      (unheard_write request) importLike a) (issueRequest_blameless request importLike a)

theorem exchange_hears (operation : String) (importLike : Bool) (sinks : Sinks)
    (a : RequestAnswers) :
    Triple (Poised start a.turns) (exchange operation request importLike sinks a)
      (fun response t => Calm start t ∧
        ∀ q, start.After t q → Replied start request sinks response t)
      (fun e t => Calm start t ∧ ∀ q, start.After t q → Unreplied start request sinks e t) :=
  Triple.bind ((issueRequest_stalls sound importLike a).consequence (fun _ h => h) (fun _ _ h => h)
    fun e t stalled => ⟨stalled.calm, fun _ _ => ⟨.inl stalled.silent,
      fun blames => absurd blames (by simp [stalled.innocent])⟩⟩)
    fun _ => readResponseWithEvents_hears operation sinks a.started

omit sound in
theorem Judges.triple {f : Response → Supervisor A} (judges : Judges request f) (sinks : Sinks)
    (response : Response) :
    Triple (fun t => Calm start t ∧ ∀ q, start.After t q → Replied start request sinks response t)
      (f response) (fun _ => Calm start)
      (fun e t => Calm start t ∧ ∀ q, start.After t q → e.blamesChild = true → blame) := by
  intro s replied
  refine (judges response s).weaken (fun _ t same => ?_) fun e t judged => ?_
  · rw [same]
    exact replied.1
  · obtain ⟨rfl, innocent⟩ := judged
    refine ⟨replied.1, fun q after blames => ?_⟩
    have reply := replied.2 q after
    rw [innocent reply.genuine reply.answers] at blames
    cases blames

theorem exchange_converses (operation : String) (importLike : Bool) (sinks : Sinks)
    (a : RequestAnswers) (lacks : sinks.Lacks request → blame) {f : Response → Supervisor A}
    (judges : Judges request f) :
    Converses start a.turns blame (exchange operation request importLike sinks a >>= f) :=
  Triple.bind ((exchange_hears sound operation importLike sinks a).consequence (fun _ h => h)
    (fun _ _ h => h) fun _ _ held => ⟨held.1, fun q after blames =>
      lacks ((held.2 q after).blamed blames)⟩) (judges.triple sinks)

omit sound in
theorem not_lacks {sinks : Sinks} (rowless : ∀ row, request.emits (.dataRow row) = false) :
    ¬sinks.Lacks request := by
  rintro ⟨_, row, may⟩
  rw [rowless row] at may
  cases may

theorem roundTrip_converses (operation : String) (importLike progress : Bool)
    {extract : Response → Except LeanWorkerError A}
    (fits : ∀ response e, response.isError = false → request.answeredBy response = true →
      extract response = .error e → e.blamesChild = false)
    (rowless : ∀ row, request.emits (.dataRow row) = false) (a : RequestAnswers) :
    Converses start a.turns blame (roundTrip operation request importLike progress extract a) := by
  refine .after (checkCancelled_checks _ _) fun _ => exchange_converses sound operation importLike
    _ a (fun lacks => absurd lacks (not_lacks rowless)) fun response s => ?_
  cases extracted : extract response with
  | ok value => rfl
  | error e => exact ⟨rfl, fun genuine answers => fits response e genuine answers extracted⟩

theorem expecting_converses (operation : String) (progress : Bool) {select : Response → Option A}
    (fits : ∀ response, response.isError = false → request.answeredBy response = true →
      (select response).isSome)
    (rowless : ∀ row, request.emits (.dataRow row) = false) (a : RequestAnswers) :
    Converses start a.turns blame
      (roundTrip operation request false progress (expecting operation select) a) := by
  refine roundTrip_converses sound operation false progress (fun response e genuine answers => ?_)
    rowless a
  have selected := fits response genuine answers
  unfold expecting
  cases same : select response with
  | none => rw [same] at selected; cases selected
  | some value => exact nofun

end

end LeanRs
