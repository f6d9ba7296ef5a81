import LeanRs.Child.ServeGrammar
import LeanRs.Child.StreamIntegrity

/-! The rows of a listing: a child that answers with the count of its rows has written one row for
each name that its host listed, in the order of the list. -/
namespace LeanRs

open Procedures Procedure

def payloadsOf (messages : List Message) : List JsonText :=
  (messages.filterMap Message.dataRow?).map DataRow.payload

theorem payloadsOf_append (first second : List Message) :
    payloadsOf (first ++ second) = payloadsOf first ++ payloadsOf second := by
  simp [payloadsOf]

def Spelled (a : HostAnswers) (names : List String) (messages : List Message) : Prop :=
  List.Forall₂ (fun name payload => a.nameJson name = .ok payload) names (payloadsOf messages)

/-- The rows carry the list that the host has answered with, and the response counts them. -/
def Lists (a : HostAnswers) (messages : List Message) (response : Response) : Prop :=
  ∃ names, a.strings = .returns (.ok names) ∧ Spelled a names messages ∧
    response = .rowsComplete (min names.length u64Max)

section

variable {a : HostAnswers} {names : List String} {messages : List Message}

theorem Spelled.other {message : Message} (noRow : message.dataRow? = none)
    (carries : Spelled a names messages) : Spelled a names (messages ++ [message]) := by
  have same : payloadsOf (messages ++ [message]) = payloadsOf messages := by
    simp [payloadsOf, noRow]
  unfold Spelled
  rwa [same]

theorem Spelled.row {name : String} {row : DataRow} (spelled : a.nameJson name = .ok row.payload)
    (carries : Spelled a names messages) :
    Spelled a (names ++ [name]) (messages ++ [.dataRow row]) := by
  unfold Spelled
  rw [payloadsOf_append]
  exact List.rel_append carries (.cons spelled .nil)

theorem Spelled.decoded {decode : JsonText → Except String String}
    (inverse : ∀ name payload, a.nameJson name = .ok payload → decode payload = .ok name)
    (spelled : Spelled a names messages) :
    List.Forall₂ (fun payload name => decode payload = .ok name) (payloadsOf messages) names :=
  (spelled.imp fun name payload => inverse name payload).flip

end

namespace ServeLoop

variable {a : HostAnswers} {w : PipeAnswers}

theorem put_carries {names : List String} {message : Message} (noRow : message.dataRow? = none)
    (answer : FrameWriteAnswer) :
    Triple (fun s => Spelled a names s.writer.written) (put message answer)
      (fun _ s => Spelled a names s.writer.written) (fun _ _ => True) := by
  intro s carries
  have kept : Spelled a names (put message answer s).state.writer.written := by
    rcases put_written message answer s with same | more
    · rwa [same]
    · rw [more]
      exact carries.other noRow
  cases outcome : put message answer s with
  | returned result t =>
    rw [outcome] at kept
    exact kept
  | raised e t => trivial
  | waiting t => trivial

theorem tickIf_carries {names : List String} (progress : Bool) (phase : String) (current : Nat)
    (total : Option Nat) (answer : FrameWriteAnswer) :
    Triple (fun s => Spelled a names s.writer.written)
      (tickIf progress phase current total answer)
      (fun _ s => Spelled a names s.writer.written) (fun _ _ => True) := by
  refine .choose (fun _ => ?_) fun _ => Triple.pure fun _ carries => carries
  exact Triple.bind (put_carries rfl answer) fun _ => Triple.pure fun _ carries => carries

theorem listRows_carries (before names : List String) (emitter : DataRowEmitter) (idx : Nat)
    (fits : emitter.count ≤ u64Max) :
    Triple (fun s => Spelled a before s.writer.written) (listRows a w names emitter idx)
      (fun result s => ∀ counted, result = .ok counted →
        Spelled a (before ++ names) s.writer.written ∧
        counted.count = min (emitter.count + names.length) u64Max) (fun _ _ => True) := by
  induction names generalizing before emitter idx with
  | nil =>
    refine Triple.pure fun s carries counted same => ?_
    obtain rfl := Except.ok.inj same
    refine ⟨by rwa [List.append_nil], ?_⟩
    simp [fits]
  | cons name rest ih =>
    unfold listRows
    cases spelled : a.nameJson name with
    | error err =>
      refine Triple.pure fun _ _ _ ok => ?_
      cases ok
    | ok payload =>
      intro s carries
      dsimp only
      rw [bind_apply]
      rcases put_cases (.dataRow (emitter.next "rows" payload).1) (w.row idx) s with
        ⟨t, wrote, written⟩ | ⟨len, max, wrote⟩ | ⟨err, t, wrote, -, -⟩ | ⟨t, wrote, -⟩
      · rw [wrote]
        have next : Spelled a (before ++ [name]) t.writer.written := by
          rw [written]
          exact carries.row spelled
        have count : (emitter.next "rows" payload).2.count = min (emitter.count + 1) u64Max := rfl
        refine (ih (before ++ [name]) (emitter.next "rows" payload).2 (idx + 1)
          (by omega) t next).weaken (fun result u held counted same => ?_) fun _ _ h => h
        obtain ⟨whole, total⟩ := held counted same
        rw [List.append_assoc] at whole
        refine ⟨whole, ?_⟩
        rw [total, count, List.length_cons]
        omega
      · rw [wrote]
        intro counted ok
        cases ok
      · rw [wrote]
        intro counted ok
        cases ok
      · rw [wrote]
        trivial

theorem listDeclarationsStrings_lists (progress : Bool) :
    Triple (fun s => s.writer.written = []) (listDeclarationsStrings progress a w)
      (fun result s => ∀ count, result = .ok count →
        Lists a s.writer.written (.rowsComplete count)) (fun _ _ => True) := by
  have start : Triple (fun s => s.writer.written = [])
      (tickIf progress "list_declarations_strings" 0 none w.opening)
      (fun _ s => Spelled a [] s.writer.written) (fun _ _ => True) :=
    (tickIf_carries progress _ _ _ _).consequence (fun _ none => none ▸ .nil) (fun _ _ h => h)
      fun _ _ h => h
  refine Triple.bind start fun _ => ?_
  cases listed : a.strings with
  | dies => exact Triple.raise fun _ _ => trivial
  | hangs => exact Triple.wait
  | returns result =>
    cases result with
    | error err =>
      intro _ _ _ ok
      cases ok
    | ok names =>
      refine Triple.bind (M := fun result s => result = .ok names ∧
        Spelled a [] s.writer.written) (fun s carries => ⟨rfl, carries⟩) fun result => ?_
      rintro s ⟨rfl, carries⟩
      refine Triple.bind (listRows_carries [] names .start 0 (Nat.zero_le _)) (fun result => ?_)
        s carries
      cases result with
      | error err =>
        refine Triple.pure fun _ _ _ ok => ?_
        cases ok
      | ok emitter =>
        refine Triple.given (P := fun s => Spelled a names s.writer.written)
          (p := emitter.count = min names.length u64Max) (fun total => ?_) |>.consequence
          (fun s held => ?_) (fun _ _ h => h) fun _ _ h => h
        · refine Triple.bind (tickIf_carries progress _ _ _ _) fun _ =>
            Triple.pure fun s carries count same => ⟨names, listed, carries, ?_⟩
          rw [← Except.ok.inj same, total]
        · obtain ⟨carries, total⟩ := held emitter rfl
          rw [DataRowEmitter.start, Nat.zero_add] at total
          exact ⟨carries, total⟩

theorem respond_lists (capacity : Nat) (filter : JsonText) (progress : Bool) :
    Triple (fun s => s.writer.written = [])
      (respond capacity a w (.listDeclarationsStrings filter progress))
      (fun response s => response.isError = false → Lists a s.writer.written response)
      (fun _ _ => True) := by
  refine Triple.bind (M := fun _ s => s.writer.written = []) (Triple.read fun _ none => none)
    fun s => .choose (fun _ => ?_) fun _ => Triple.pure fun _ _ genuine => by cases genuine
  refine Triple.map ((listDeclarationsStrings_lists progress).consequence (fun _ h => h)
    (fun result s lists genuine => ?_) fun _ _ h => h)
  cases result with
  | ok count => exact lists count rfl
  | error err => cases genuine

theorem Closes.state {p : Response → Prop} {before : List Message}
    {o : Outcome Serving ChildEnd Unit} (closes : Closes p before o) :
    o.state.writer.written = before ∨
      ∃ response, p response ∧ o.state.writer.written = before ++ [.response response] := by
  cases o with
  | returned _ t => exact .inr closes
  | raised e t => exact closes
  | waiting t => exact closes

theorem serveRequest_state {capacity : Nat} {request : Request} {response : Response}
    {s t : Serving} (goesOn : request ≠ .terminate)
    (responded : respond capacity a w request s = .returned response t) :
    (serveRequest capacity a w request s).state = (writeResponse response w.response t).state := by
  unfold serveRequest
  rw [bind_apply, responded, Outcome.andThen_returned, bind_apply]
  cases writeResponse response w.response t with
  | returned _ u => simp only [Outcome.andThen_returned, if_neg goesOn, pure_apply,
      Outcome.state_returned]
  | raised e u => rfl
  | waiting u => rfl

theorem serveRequest_lists (capacity : Nat) (filter : JsonText) (progress : Bool) (s : Serving)
    (start : s.writer.written = []) {events : List Message} {response : Response}
    (written : (serveRequest capacity a w (.listDeclarationsStrings filter progress)
      s).state.writer.written = events ++ [.response response])
    (genuine : response.isError = false) : Lists a events response := by
  obtain ⟨new, grown, allowed⟩ := respond_moves (a := a) (w := w) capacity
    (.listDeclarationsStrings filter progress) s
  have lists := respond_lists (a := a) (w := w) capacity filter progress s start
  rw [start, List.nil_append] at grown
  -- no response goes out before the arm has come to its end
  have early : new ≠ events ++ [.response response] := by
    intro same
    have may := allowed (.response response) (same ▸ List.mem_append_right _ List.mem_cons_self)
    cases may
  cases responded : respond capacity a w (.listDeclarationsStrings filter progress) s with
  | returned answer t =>
    rw [responded] at grown lists
    rw [Outcome.state_returned] at grown
    rw [serveRequest_state (by simp) responded] at written
    have closes := writeResponse_closes (p := fun r => r = answer ∨ r.isError = true)
      (.inl rfl) (fun _ _ => .inr rfl) w.response t
    rcases closes.state with same | ⟨sent, kind, whole⟩
    · exact absurd (grown.symm.trans (same.symm.trans written)) early
    · rw [whole] at written
      obtain ⟨rfl, last⟩ := List.append_inj' written rfl
      obtain rfl := Message.response.inj (List.cons.inj last).1
      rcases kind with rfl | error
      · exact lists genuine
      · rw [genuine] at error
        cases error
  | raised e t =>
    rw [responded] at grown
    have ended : (serveRequest capacity a w (.listDeclarationsStrings filter progress) s).state =
        t := by
      simp only [serveRequest, bind_apply, responded, Outcome.andThen_raised, Outcome.state_raised]
    rw [ended] at written
    exact absurd (grown.symm.trans written) early
  | waiting t =>
    rw [responded] at grown
    have ended : (serveRequest capacity a w (.listDeclarationsStrings filter progress) s).state =
        t := by
      simp only [serveRequest, bind_apply, responded, Outcome.andThen_waiting,
        Outcome.state_waiting]
    rw [ended] at written
    exact absurd (grown.symm.trans written) early

end ServeLoop

def Incoming.Makes (incoming : Incoming) (g : Answered) : Prop :=
  incoming.frame = .ok g.frame ∧ ∃ capacity s, s.writer.written = [] ∧ g.written =
    (ServeLoop.serveFrame capacity incoming.host incoming.pipe g.frame s).state.writer.written

theorem Incoming.Makes.lists {incoming : Incoming} {g : Answered} (makes : incoming.Makes g)
    {filter : JsonText} {progress : Bool}
    (frame : g.frame = .request (.listDeclarationsStrings filter progress))
    {events : List Message} {response : Response}
    (written : g.written = events ++ [.response response]) (genuine : response.isError = false) :
    Lists incoming.host events response := by
  obtain ⟨-, capacity, s, start, made⟩ := makes
  rw [frame, written] at made
  exact ServeLoop.serveRequest_lists capacity filter progress s start made.symm genuine

theorem serveLoop_makes (capacity : Nat) (frames : List Incoming) (s : Serving) :
    ∀ g ∈ (serveLoop capacity frames s).1, ∃ incoming ∈ frames, incoming.Makes g := by
  induction frames generalizing s with
  | nil =>
    intro g member
    cases member
  | cons incoming rest ih =>
    rw [serveLoop]
    cases reads : incoming.frame with
    | error err =>
      intro g member
      cases member
    | ok frame =>
      dsimp only
      have here {t : Serving} (served : (ServeLoop.serveFrame capacity incoming.host incoming.pipe
          frame s.reading).state = t) : incoming.Makes ⟨frame, t.writer.written⟩ :=
        ⟨reads, capacity, s.reading, rfl, by rw [served]⟩
      intro g member
      cases served : ServeLoop.serveFrame capacity incoming.host incoming.pipe frame s.reading with
      | returned _ t =>
        rw [served] at member
        rcases List.mem_cons.mp member with rfl | member
        · exact ⟨incoming, List.mem_cons_self, here (congrArg Outcome.state served)⟩
        · obtain ⟨later, among, makes⟩ := ih t g member
          exact ⟨later, List.mem_cons_of_mem incoming among, makes⟩
      | raised e t =>
        rw [served] at member
        rw [List.mem_singleton.mp member]
        exact ⟨incoming, List.mem_cons_self, here (congrArg Outcome.state served)⟩
      | waiting t =>
        rw [served] at member
        rw [List.mem_singleton.mp member]
        exact ⟨incoming, List.mem_cons_self, here (congrArg Outcome.state served)⟩

theorem serveStdio_makes (workerVersion : String) (capacity : Nat) (start : StartAnswers)
    (frames : List Incoming) :
    ∀ g ∈ (serveStdio workerVersion capacity start frames).answered,
      ∃ incoming ∈ frames, incoming.Makes g := by
  unfold serveStdio
  cases start.initialized with
  | error message =>
    intro g member
    cases member
  | ok _ =>
    dsimp only
    cases greet workerVersion start (.new start.registries) with
    | returned _ t => exact serveLoop_makes capacity frames t
    | raised e t =>
      intro g member
      cases member
    | waiting t =>
      intro g member
      cases member

end LeanRs
