import LeanRs.Child.ServeArms

/-! The frames of every run of the child: each frame that it reads gets its events and its response
before the next one is read. -/
namespace LeanRs

open Procedures Procedure

namespace ServeLoop

variable {a : HostAnswers} {w : PipeAnswers}

/-- What the frames of `g` come to, when the child goes on serving and when it does not. -/
def Settles (frame : Message) : Outcome Serving ChildEnd Unit → Prop
  | .returned _ t => Answered.Complete ⟨frame, t.writer.written⟩
  | .raised _ t | .waiting t =>
    Answered.Complete ⟨frame, t.writer.written⟩ ∨ Answered.Partial ⟨frame, t.writer.written⟩

/-- A response closes the frames that were there before, or the child stops. -/
def Closes (p : Response → Prop) (before : List Message) : Outcome Serving ChildEnd Unit → Prop
  | .returned _ t => ∃ response, p response ∧ t.writer.written = before ++ [.response response]
  | .raised _ t | .waiting t => t.writer.written = before ∨
    ∃ response, p response ∧ t.writer.written = before ++ [.response response]

theorem Closes.settles {frame : Message} (events : List Message)
    {o : Outcome Serving ChildEnd Unit}
    (closes : Closes (fun response => frame.answeredBy response = true) events o)
    (allowed : ∀ m ∈ events, frame.emits m = true) : Settles frame o := by
  cases o with
  | returned _ t =>
    obtain ⟨response, kind, written⟩ := closes
    exact ⟨events, response, written, allowed, kind⟩
  | raised e t =>
    obtain same | ⟨response, kind, written⟩ := closes
    · exact .inr fun m member => allowed m (same ▸ member)
    · exact .inl ⟨events, response, written, allowed, kind⟩
  | waiting t =>
    obtain same | ⟨response, kind, written⟩ := closes
    · exact .inr fun m member => allowed m (same ▸ member)
    · exact .inl ⟨events, response, written, allowed, kind⟩

theorem Closes.stop {p : Response → Prop} {events : List Message}
    {o : Outcome Serving ChildEnd Unit} (closes : Closes p events o) (e : ChildEnd) :
    Closes p events (o.andThen fun _ => raise e) := by
  cases o with
  | returned _ t => exact .inr closes
  | raised e t => exact closes
  | waiting t => exact closes

theorem writeResponse_closes {p : Response → Prop} {response : Response} (kind : p response)
    (error : ∀ code message, p (.error code message)) (a : ResponseAnswers) (s : Serving) :
    Closes p s.writer.written (writeResponse response a s) := by
  unfold writeResponse
  rw [bind_apply]
  rcases put_cases (.response response) a.frame s with
    ⟨t, wrote, written⟩ | ⟨len, max, wrote⟩ | ⟨err, t, wrote, other, written⟩ | ⟨t, wrote, written⟩
  · rw [wrote]
    exact ⟨response, kind, written⟩
  · rw [wrote]
    show Closes p s.writer.written
      ((put (.response (outputFrameTooLarge len max)) a.fallback >>= orEnd) s)
    rw [bind_apply]
    rcases put_cases (.response (outputFrameTooLarge len max)) a.fallback s with
      ⟨t, wrote, written⟩ | ⟨len', max', wrote⟩ | ⟨err, t, wrote, _, written⟩ | ⟨t, wrote, written⟩
    · rw [wrote]
      exact ⟨_, error _ _, written⟩
    · rw [wrote]
      exact .inl rfl
    · rw [wrote]
      exact written.imp_right fun more => ⟨_, error _ _, more⟩
    · rw [wrote]
      exact written.imp_right fun more => ⟨_, error _ _, more⟩
  · rw [wrote]
    cases err with
    | frameTooLarge len max => exact absurd rfl (other len max)
    | io _ => exact written.imp_right fun more => ⟨_, kind, more⟩
    | json _ => exact written.imp_right fun more => ⟨_, kind, more⟩
    | versionMismatch _ _ => exact written.imp_right fun more => ⟨_, kind, more⟩
  · rw [wrote]
    exact written.imp_right fun more => ⟨_, kind, more⟩

theorem serveRequest_settles (capacity : Nat) (request : Request) (s : Serving)
    (start : s.writer.written = []) :
    Settles (.request request) (serveRequest capacity a w request s) := by
  obtain ⟨events, written, allowed⟩ := respond_moves (a := a) (w := w) capacity request s
  rw [start, List.nil_append] at written
  have responds := respond_responds (a := a) (w := w) capacity request s trivial
  unfold serveRequest
  rw [bind_apply]
  cases outcome : respond capacity a w request s with
  | returned response t =>
    rw [outcome] at written responds
    have written : t.writer.written = events := written
    have closes := writeResponse_closes (p := fun response => request.answeredBy response = true)
      responds (by simp) w.response t
    rw [written] at closes
    rw [Outcome.andThen_returned, bind_apply]
    refine Closes.settles events ?_ allowed
    split
    · exact closes.stop .finished
    · revert closes
      cases writeResponse response w.response t <;> exact id
  | raised e t =>
    rw [outcome] at written
    exact .inr fun m member => allowed m (written ▸ member)
  | waiting t =>
    rw [outcome] at written
    exact .inr fun m member => allowed m (written ▸ member)

theorem serveFrame_settles (capacity : Nat) (frame : Message) (s : Serving)
    (start : s.writer.written = []) : Settles frame (serveFrame capacity a w frame s) := by
  have unexpected : frame.emits = (fun _ => false) → frame.answeredBy = Response.isError →
      Settles frame (writeResponse unexpectedFrameResponse w.response s) := by
    intro silent error
    refine Closes.settles [] ?_ nofun
    rw [← start]
    refine writeResponse_closes ?_ (fun _ _ => ?_) _ _
    · rw [error]
      rfl
    · rw [error]
      rfl
  cases frame with
  | request request => exact serveRequest_settles capacity request s start
  | _ => exact unexpected rfl rfl

end ServeLoop

/-- What has gone out for the frames that were read: a group for each, in order, and only the last
may lack its response. -/
inductive Grammatical : List Message → List Answered → Prop where
  | none (read : List Message) : Grammatical read []
  | last (g : Answered) (later : List Message) (open_ : g.Partial) :
      Grammatical (g.frame :: later) [g]
  | answered (g : Answered) {read : List Message} {rest : List Answered} (complete : g.Complete)
      (others : Grammatical read rest) : Grammatical (g.frame :: read) (g :: rest)

def framesRead (frames : List Incoming) : List Message :=
  frames.filterMap fun incoming => incoming.frame.toOption

theorem framesRead_cons {incoming : Incoming} {frame : Message} (rest : List Incoming)
    (reads : incoming.frame = .ok frame) :
    framesRead (incoming :: rest) = frame :: framesRead rest := by
  simp [framesRead, reads, Except.toOption]

theorem Grammatical.stopped {g : Answered} {later : List Message}
    (sound : g.Complete ∨ g.Partial) : Grammatical (g.frame :: later) [g] :=
  sound.elim (fun complete => .answered g complete (.none later)) (.last g later)

theorem serveLoop_grammatical (capacity : Nat) (frames : List Incoming) (s : Serving) :
    Grammatical (framesRead frames) (serveLoop capacity frames s).1 := by
  induction frames generalizing s with
  | nil => exact .none _
  | cons incoming rest ih =>
    rw [serveLoop]
    cases reads : incoming.frame with
    | error err => exact .none _
    | ok frame =>
      have settles := ServeLoop.serveFrame_settles (a := incoming.host) (w := incoming.pipe)
        capacity frame s.reading rfl
      rw [framesRead_cons rest reads]
      dsimp only
      cases served : ServeLoop.serveFrame capacity incoming.host incoming.pipe frame s.reading with
      | returned _ t =>
        rw [served] at settles
        exact .answered ⟨frame, t.writer.written⟩ settles (ih t)
      | raised e t =>
        rw [served] at settles
        exact .stopped (g := ⟨frame, t.writer.written⟩) settles
      | waiting t =>
        rw [served] at settles
        exact .stopped (g := ⟨frame, t.writer.written⟩) settles

theorem serveLoop_serving (capacity : Nat) (frames : List Incoming) (s : Serving)
    (serving : ChildStatus.ofOutcome (serveLoop capacity frames s).2 = .serving) :
    (serveLoop capacity frames s).1.map Answered.frame = framesRead frames ∧
      ∀ g ∈ (serveLoop capacity frames s).1, g.Complete := by
  induction frames generalizing s with
  | nil => exact ⟨rfl, nofun⟩
  | cons incoming rest ih =>
    rw [serveLoop] at serving ⊢
    cases reads : incoming.frame with
    | error err =>
      rw [reads] at serving
      cases serving
    | ok frame =>
      have settles := ServeLoop.serveFrame_settles (a := incoming.host) (w := incoming.pipe)
        capacity frame s.reading rfl
      rw [framesRead_cons rest reads]
      rw [reads] at serving
      dsimp only at serving ⊢
      cases served : ServeLoop.serveFrame capacity incoming.host incoming.pipe frame s.reading with
      | returned _ t =>
        rw [served] at settles serving
        obtain ⟨order, complete⟩ := ih t serving
        refine ⟨congrArg (frame :: ·) order, fun g member => ?_⟩
        obtain rfl | member := List.mem_cons.mp member
        · exact settles
        · exact complete g member
      | raised e t => rw [served] at serving; cases serving
      | waiting t => rw [served] at serving; cases serving

def Message.response? : Message → Option Response
  | .response r => some r
  | _ => none

theorem Message.response?_of_emits {frame m : Message} (may : frame.emits m = true) :
    m.response? = none := by
  have terminal : m.isTerminal = false := by
    cases frame with
    | request r =>
      cases r <;> cases m <;> first | rfl | cases may
    | _ => cases may
  cases m with
  | response r => cases terminal
  | _ => rfl

theorem filterMap_response?_of_emits {frame : Message} {events : List Message}
    (allowed : ∀ m ∈ events, frame.emits m = true) : events.filterMap Message.response? = [] :=
  List.filterMap_eq_nil_iff.mpr fun m member => Message.response?_of_emits (allowed m member)

theorem Grammatical.paired {read : List Message} {answered : List Answered}
    (grammatical : Grammatical read answered) :
    ∃ k, List.Forall₂ (fun frame response => Message.answeredBy frame response = true)
      (read.take k) ((answered.flatMap Answered.written).filterMap Message.response?) := by
  induction grammatical with
  | none read => exact ⟨0, .nil⟩
  | last g later open_ =>
    refine ⟨0, ?_⟩
    rw [List.flatMap_singleton, filterMap_response?_of_emits open_]
    exact .nil
  | answered g complete others ih =>
    obtain ⟨k, paired⟩ := ih
    obtain ⟨events, response, written, allowed, kind⟩ := complete
    refine ⟨k + 1, ?_⟩
    rw [List.flatMap_cons, written, List.filterMap_append, List.filterMap_append,
      filterMap_response?_of_emits allowed]
    exact .cons kind paired

theorem greet_written (workerVersion : String) (start : StartAnswers) (s : Serving)
    (fresh : s.writer.written = []) :
    (greet workerVersion start s).Meets
      (fun _ t => t.writer.written = [.handshake workerVersion protocolVersion])
      (fun _ t => t.writer.written = [] ∨
        t.writer.written = [.handshake workerVersion protocolVersion]) := by
  unfold greet
  rw [bind_apply]
  rcases put_cases (.handshake workerVersion protocolVersion) start.handshake s with
    ⟨t, wrote, written⟩ | ⟨len, max, wrote⟩ | ⟨err, t, wrote, _, written⟩ | ⟨t, wrote, written⟩
  · rw [wrote]
    show ((orEnd start.configured >>= fun message => _) t).Meets _ _
    rw [fresh, List.nil_append] at written
    cases start.configured with
    | error err => exact .inr written
    | ok message =>
      cases message with
      | configureFrameLimit maxFrameBytes => exact written
      | _ => exact .inr written
  · rw [wrote]
    exact .inl fresh
  · rw [wrote]
    rw [fresh, List.nil_append] at written
    exact written
  · rw [wrote]
    rw [fresh, List.nil_append] at written
    exact written

theorem greet_ends (workerVersion : String) (start : StartAnswers) :
    Ends (greet workerVersion start) := by
  refine .bind (put_ends _ _) fun result => .bind (orEnd_ends _) fun _ =>
    .bind (orEnd_ends _) fun message => ?_
  cases message with
  | configureFrameLimit maxFrameBytes => exact .update _
  | _ => exact .raise _

/-- Every run of the child, whatever the parent sends, Lean answers and the pipe does: one
handshake, then for each frame that was read events that it allows and one response that answers
it, in order. Only the last group may lack its response, and it lacks none while the child
serves. -/
theorem serveStdio_grammar (workerVersion : String) (capacity : Nat) (start : StartAnswers)
    (frames : List Incoming) :
    let run := serveStdio workerVersion capacity start frames
    (run.greeting = [.handshake workerVersion protocolVersion] ∨
      run.greeting = [] ∧ run.answered = []) ∧
    Grammatical (framesRead frames) run.answered ∧
    (∃ k, List.Forall₂ (fun frame response => Message.answeredBy frame response = true)
      ((framesRead frames).take k) (run.stdout.filterMap Message.response?)) ∧
    (run.status = .serving → run.answered.map Answered.frame = framesRead frames ∧
      ∀ g ∈ run.answered, g.Complete) := by
  have paired : ∀ {greeting : List Message} {answered : List Answered},
      (greeting = [.handshake workerVersion protocolVersion] ∨ greeting = []) →
      Grammatical (framesRead frames) answered → ∃ k, List.Forall₂
        (fun frame response => Message.answeredBy frame response = true)
        ((framesRead frames).take k)
        ((greeting ++ answered.flatMap Answered.written).filterMap Message.response?) := by
    intro greeting answered greeted grammatical
    have silent : greeting.filterMap Message.response? = [] := by
      rcases greeted with rfl | rfl <;> rfl
    rw [List.filterMap_append, silent]
    exact grammatical.paired
  have nothing : Grammatical (framesRead frames) [] := .none _
  intro run
  have unfolded : run = serveStdio workerVersion capacity start frames := rfl
  unfold serveStdio at unfolded
  cases initialized : start.initialized with
  | error message =>
    rw [initialized] at unfolded
    rw [unfolded]
    exact ⟨.inr ⟨rfl, rfl⟩, nothing, paired (.inr rfl) nothing, nofun⟩
  | ok _ =>
    rw [initialized] at unfolded
    dsimp only at unfolded
    have greeted := greet_written workerVersion start (.new start.registries) rfl
    cases greeting : greet workerVersion start (.new start.registries) with
    | returned _ t =>
      rw [greeting] at unfolded greeted
      have grammatical := serveLoop_grammatical capacity frames t
      rw [unfolded]
      exact ⟨.inl greeted, grammatical, paired (.inl greeted) grammatical,
        serveLoop_serving capacity frames t⟩
    | raised e t =>
      rw [greeting] at unfolded greeted
      rw [unfolded]
      exact ⟨greeted.symm.imp_right fun none => ⟨none, rfl⟩, nothing,
        paired greeted.symm nothing, nofun⟩
    | waiting t =>
      have ends := greet_ends workerVersion start (.new start.registries)
      rw [greeting] at ends
      cases ends

end LeanRs
