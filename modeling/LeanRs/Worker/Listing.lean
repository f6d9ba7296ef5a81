import LeanRs.Child.ListedRows
import LeanRs.General.JsonText
import LeanRs.Worker.Agreement
import LeanRs.Worker.ImportBound

/-! A listing of declarations from the host behind a child to the caller of the supervisor: the
names that come back are the names that were listed. -/
namespace LeanRs

open Procedures Procedure Supervisor

namespace Pipe

theorem Sent.each {P : Answered → Prop} {p : Pipe} {request : Request} {g : Answered} {t : World}
    (sent : p.Sent request g t) (each : p.Each P) : P g := by
  obtain ⟨before, later, m, rest, -, replayed, -, next⟩ := sent
  exact (replay_each each replayed).child g (next ▸ List.mem_cons_self)

end Pipe

theorem converse_each {P : Answered → Prop} {j j' : Joint} {op : Op} (each : j.pipe.Each P)
    (moved : converse j op = some j') : j'.pipe.Each P := by
  obtain ⟨s, -, moved⟩ := Option.bind_eq_some_iff.mp moved
  obtain ⟨p, after, same⟩ := Option.bind_eq_some_iff.mp moved
  obtain rfl := Option.some.inj same
  have before : (j.pipe.before op.turns).Each P := each.congr rfl rfl
  exact Pipe.replay_each before after

theorem payloadsOf_wanted {sinks : Sinks} (data : sinks.data.isSome = true)
    (messages : List Message) :
    payloadsOf (messages.filter sinks.wants) = payloadsOf messages := by
  induction messages with
  | nil => rfl
  | cons message rest ih =>
    cases wanted : sinks.wants message with
    | true =>
      rw [List.filter_cons_of_pos wanted, ← List.singleton_append, payloadsOf_append, ih,
        ← payloadsOf_append]
      rfl
    | false =>
      rw [List.filter_cons_of_neg (by simp [wanted]), ih]
      cases message with
      | dataRow row => simp [Sinks.wants, data] at wanted
      | _ => rfl

theorem collectNames_silent {decode : JsonText → Except String String} {before : List Effect}
    (silent : deliveries before = []) (later : List Effect) :
    collectNames decode (before ++ later) = collectNames decode later := by
  induction before with
  | nil => rfl
  | cons e rest ih =>
    cases e with
    | deliver event => cases silent
    | _ => exact ih silent

theorem collectNames_decoded {decode : JsonText → Except String String} {effects : List Effect}
    {names : List String}
    (decoded : List.Forall₂ (fun payload name => decode payload = .ok name)
      (payloadsOf ((deliveries effects).map SinkEvent.message)) names) :
    collectNames decode effects = (names, none) := by
  induction effects generalizing names with
  | nil =>
    cases decoded
    rfl
  | cons e rest ih =>
    cases e with
    | deliver event =>
      cases event with
      | row row =>
        obtain ⟨name, names, here, others, rfl⟩ := List.forall₂_cons_left_iff.mp decoded
        simp only [collectNames, ih others, here]
      | progress tick elapsed => exact ih decoded
      | diagnostic diagnostic => exact ih decoded
    | _ => exact ih decoded

/-- The end of a listing: what becomes of its response and of the rows that were collected. -/
def concludeListing (decode : JsonText → Except String String) (response : Response) :
    Supervisor (List String) := do
  let s ← read
  let (names, decodeError) := collectNames decode s.effects
  match decodeError with
  | some text => raise (.protocol (.declarationRowDecode text))
  | none =>
    match response with
    | .rowsComplete count =>
      if names.length = count then pure names
      else raise (.protocol (.declarationCount names.length count))
    | other => raise (unexpectedResponse "worker_list_declarations_strings" other)

theorem concludeListing_state (decode : JsonText → Except String String) (response : Response)
    (s : World) : (concludeListing decode response s).state = s := by
  simp only [concludeListing, bind_apply, read_apply, Outcome.andThen_returned]
  cases (collectNames decode s.effects).2 with
  | some text => rfl
  | none =>
    cases response with
    | rowsComplete count =>
      dsimp only
      split
      · rfl
      · rfl
    | _ => rfl

theorem concludeListing_decoded {decode : JsonText → Except String String} {names : List String}
    {s : World}
    (decoded : List.Forall₂ (fun payload name => decode payload = .ok name)
      (payloadsOf ((deliveries s.effects).map SinkEvent.message)) names) :
    concludeListing decode (.rowsComplete names.length) s = .returned names s := by
  simp only [concludeListing, bind_apply, read_apply, Outcome.andThen_returned,
    collectNames_decoded decoded, if_true, pure_apply]

theorem workerListDeclarationsStrings_eq (progress : Bool)
    (decode : JsonText → Except String String) (filter : JsonText) (a : RequestAnswers) (s : World)
    (silent : deliveries s.effects = []) :
    workerListDeclarationsStrings progress decode filter a s =
      (checkCancelled "worker_list_declarations_strings" a.cancelled >>= fun _ =>
        exchange "worker_list_declarations_strings" (.listDeclarationsStrings filter progress) false
          { progress := progress, data := some .raw } a >>= concludeListing decode) s := by
  unfold workerListDeclarationsStrings exchange
  refine bind_congr_of (M := fun _ t => t = s) ?_ fun _ t same => ?_
  · unfold checkCancelled
    split
    · trivial
    · rfl
  subst same
  have sent := issueRequest_appends Effect.unheard_of_ofStop ⟨rfl, rfl⟩ (fun _ => ⟨rfl, rfl⟩)
    (unheard_write (.listDeclarationsStrings filter progress)) false a t
  simp only [bind_apply]
  cases issued : issueRequest (.listDeclarationsStrings filter progress) false a t with
  | raised e u => rfl
  | waiting u => rfl
  | returned _ u =>
    rw [issued] at sent
    obtain ⟨new, grown, quiet⟩ := sent
    have unheard : deliveries u.effects = [] := by
      rw [Outcome.state_returned] at grown
      rw [grown, deliveries_append, silent, deliveries_eq_nil fun e member => (quiet e member).2]
      rfl
    have heard := @readResponseWithEvents_moves (Appends fun _ => True) _
      "worker_list_declarations_strings" { progress := progress, data := some .raw } a.started
      a.turns u
    simp only [Outcome.andThen_returned, bind_apply, read_apply]
    cases answered : readResponseWithEvents "worker_list_declarations_strings"
        { progress := progress, data := some .raw } a.started a.turns u with
    | raised e v => rfl
    | waiting v => rfl
    | returned response v =>
      rw [answered] at heard
      obtain ⟨later, grown, -⟩ := heard
      rw [Outcome.state_returned] at grown
      have whole : collectNames decode (v.effects.drop u.effects.length) =
          collectNames decode v.effects := by
        rw [grown, List.drop_left, collectNames_silent unheard]
      simp only [Outcome.andThen_returned, bind_apply, read_apply, whole]
      rfl

structure ChildLife where
  workerVersion : String
  capacity : Nat
  start : StartAnswers
  frames : List Incoming

def ChildLife.written (life : ChildLife) : List Answered :=
  (serveStdio life.workerVersion life.capacity life.start life.frames).answered

theorem ChildLife.genuine (life : ChildLife) : Genuine life.written := ⟨_, _, _, _, rfl⟩

theorem Replied.concluded {lives : List ChildLife} {start : Pipe} {progress : Bool}
    {filter : JsonText} {response : Response} {t : World}
    {decode : JsonText → Except String String}
    (each : start.Each fun g => ∃ life ∈ lives, ∃ incoming ∈ life.frames, incoming.Makes g)
    (inverse : ∀ life ∈ lives, ∀ incoming ∈ life.frames, ∀ name payload,
      incoming.host.nameJson name = .ok payload → decode payload = .ok name)
    (fits : ∀ life ∈ lives, ∀ incoming ∈ life.frames, ∀ names,
      incoming.host.strings = .returns (.ok names) → names.length ≤ u64Max)
    (reply : Replied start (.listDeclarationsStrings filter progress)
      { progress := progress, data := some .raw } response t) :
    ∃ names, concludeListing decode response t = .returned names t ∧
      ∃ g, g.frame = .request (.listDeclarationsStrings filter progress) ∧
        start.Sent (.listDeclarationsStrings filter progress) g t ∧
        ∃ life ∈ lives, ∃ incoming ∈ life.frames, incoming.Makes g ∧
          incoming.host.strings = .returns (.ok names) := by
  obtain ⟨g, events, frame, written, sent, shown⟩ := reply.heard
  obtain ⟨life, among, incoming, came, makes⟩ := sent.each each
  obtain ⟨names, listed, spelled, counted⟩ := makes.lists frame written reply.genuine
  rw [Nat.min_eq_left (fits life among incoming came names listed)] at counted
  refine ⟨names, ?_, g, frame, sent, life, among, incoming, came, makes, listed⟩
  rw [counted]
  apply concludeListing_decoded
  rw [shown, payloadsOf_wanted rfl]
  exact spelled.decoded (inverse life among incoming came)

section

variable (config : LeanWorkerConfig) (pid : Nat) (stderr : Bool) (elapsed : Duration)
  (now : Instant) (first : ChildLife) (others : List ChildLife)

theorem each_of_reached {ops : List Op} {j : Joint}
    (reached : Runs.run converse ⟨.fresh config pid stderr elapsed now, first.written,
      others.map ChildLife.written, [], []⟩ ops = some j) :
    j.pipe.Each fun g => ∃ life ∈ first :: others, ∃ incoming ∈ life.frames, incoming.Makes g := by
  have made : ∀ life ∈ first :: others, ∀ g ∈ life.written,
      ∃ life ∈ first :: others, ∃ incoming ∈ life.frames, incoming.Makes g := by
    intro life among g member
    obtain ⟨incoming, came, makes⟩ := serveStdio_makes _ _ _ _ g member
    exact ⟨life, among, incoming, came, makes⟩
  refine Runs.invariant (I := fun j : Joint => j.pipe.Each _)
    (fun _ _ _ each moved => converse_each each moved) ⟨?_, fun child member => ?_⟩ reached
  · exact made first List.mem_cons_self
  · obtain ⟨life, among, rfl⟩ := List.mem_map.mp member
    exact made life (List.mem_cons_of_mem first among)

/-- What a listing returns is the list that the host of one of the children gave for that very
request, whole and in its order: no name lost on the way, none doubled, none that an earlier request
had asked for. And a listing fails only where its request does: every row that comes can be read,
and the count is right. All that is asked of the two sides is that the parent reads a name back as
the children spell it, and of a list that it fits in memory. -/
theorem names_arrive (decode : JsonText → Except String String)
    (inverse : ∀ life ∈ first :: others, ∀ incoming ∈ life.frames, ∀ name payload,
      incoming.host.nameJson name = .ok payload → decode payload = .ok name)
    (fits : ∀ life ∈ first :: others, ∀ incoming ∈ life.frames, ∀ names,
      incoming.host.strings = .returns (.ok names) → names.length ≤ u64Max)
    (ops : List Op) (j : Joint)
    (reached : Runs.run converse ⟨.fresh config pid stderr elapsed now, first.written,
      others.map ChildLife.written, [], []⟩ ops = some j)
    (progress : Bool) (filter : JsonText) (a : RequestAnswers) :
    (workerListDeclarationsStrings progress decode filter a ⟨j.worker, []⟩).Meets
      (fun names t => ∀ q, (j.pipe.before a.turns).After t q → q.unread = [] ∧
        ∃ g, g.frame = .request (.listDeclarationsStrings filter progress) ∧
          (j.pipe.before a.turns).Sent (.listDeclarationsStrings filter progress) g t ∧
          ∃ life ∈ first :: others, ∃ incoming ∈ life.frames, incoming.Makes g ∧
            incoming.host.strings = .returns (.ok names))
      (fun e t => ∀ q, (j.pipe.before a.turns).After t q → a.cancelled = true ∨
        exchange "worker_list_declarations_strings" (.listDeclarationsStrings filter progress) false
          { progress := progress, data := some .raw } a ⟨j.worker, []⟩ = .raised e t) := by
  have good := good_of_reached config pid stderr elapsed now first.genuine
    (fun written member => by
      obtain ⟨life, -, rfl⟩ := List.mem_map.mp member
      exact life.genuine) reached
  have sound : (j.pipe.before a.turns).Sound := good.sound.congr rfl rfl
  have each : (j.pipe.before a.turns).Each fun g =>
      ∃ life ∈ first :: others, ∃ incoming ∈ life.frames, incoming.Makes g :=
    (each_of_reached config pid stderr elapsed now first others reached).congr rfl rfl
  rw [workerListDeclarationsStrings_eq progress decode filter a ⟨j.worker, []⟩ rfl, bind_apply]
  cases cancelled : a.cancelled with
  | true => exact fun _ _ => .inl rfl
  | false =>
    change ((exchange _ _ _ _ _ >>= concludeListing decode) _).Meets _ _
    have hears := @exchange_hears _ sound (.listDeclarationsStrings filter progress)
      "worker_list_declarations_strings" false { progress := progress, data := some .raw } a
      ⟨j.worker, []⟩ (good.poised a.turns)
    rw [bind_apply]
    cases asked : exchange "worker_list_declarations_strings"
        (.listDeclarationsStrings filter progress) false
        { progress := progress, data := some .raw } a ⟨j.worker, []⟩ with
    | waiting t => trivial
    | raised e t => exact fun _ _ => .inr rfl
    | returned response t =>
      rw [asked] at hears
      obtain ⟨calm, replied⟩ := hears
      have same := concludeListing_state decode response t
      rw [Outcome.andThen_returned]
      cases ends : concludeListing decode response t with
      | returned names u =>
        rw [ends] at same
        obtain rfl : u = t := same
        intro q after
        obtain ⟨names', returned, arrived⟩ := (replied q after).concluded each inverse fits
        rw [ends] at returned
        obtain ⟨rfl, -⟩ := Outcome.returned.inj returned
        exact ⟨calm.drained q after (replied q after).ready, arrived⟩
      | raised e u =>
        rw [ends] at same
        obtain rfl : u = t := same
        intro q after
        obtain ⟨names, returned, -⟩ := (replied q after).concluded each inverse fits
        rw [ends] at returned
        cases returned
      | waiting u => trivial

end

def nameText (name : String) : Except String JsonText :=
  .ok (String.ofList (Json.renderString name))

def readName (text : JsonText) : Except String String :=
  match Json.readValue (text.toList.length + 1) text.toList with
  | some (.string name, []) => .ok name
  | _ => .error "expected a string"

theorem readName_nameText {name : String} {payload : JsonText}
    (spelled : nameText name = .ok payload) : readName payload = .ok name := by
  obtain rfl := Except.ok.inj spelled
  have read : Json.readValue _ _ = _ := Json.spells_renderString name
  rw [readName, String.toList_ofList, read]

def Incoming.spelling (request : Request) (names : List String) : Incoming :=
  ⟨.ok (.request request), { HostAnswers.smooth names with nameJson := nameText }, .smooth⟩

def ChildLife.lister : ChildLife :=
  ⟨"1.0.0", 4, .smooth, [.spelling (.openHostSession "" .shimsOnly [] .server) [],
    .spelling (.listDeclarationsStrings "null" false) ["f", "g"]]⟩

def Joint.opened : Joint :=
  (Runs.run converse ⟨.spawned {}, ChildLife.lister.written, [], [], []⟩
    [.opening (.hostSessionOpened default) .smooth]).getD ⟨.spawned {}, [], [], [], []⟩

def RequestAnswers.listed : RequestAnswers :=
  .smooth (((ChildLife.lister.written.getLast?.map Answered.written).getD []).map fun message =>
    .smooth (.event (.frame message) 0))

theorem ChildLife.lister_spells : ∀ life ∈ [ChildLife.lister], ∀ incoming ∈ life.frames,
    incoming.host.nameJson = nameText ∧
      ∀ names, incoming.host.strings = .returns (.ok names) → names.length ≤ u64Max := by
  have short {request : Request} {names : List String} (few : names.length ≤ 2) :
      (Incoming.spelling request names).host.nameJson = nameText ∧
        ∀ names', (Incoming.spelling request names).host.strings = .returns (.ok names') →
          names'.length ≤ u64Max := by
    refine ⟨rfl, fun names' listed => ?_⟩
    obtain rfl : names = names' := Except.ok.inj (CallAnswer.returns.inj listed)
    exact few.trans (by decide)
  intro life among incoming came
  obtain rfl := List.mem_singleton.mp among
  rcases List.mem_pair.mp came with rfl | rfl
  · exact short (by simp)
  · exact short (by simp)

/-- The two names come back, over a pipe that carried the opening of the session before. -/
theorem two_names_arrive :
    (workerListDeclarationsStrings false readName "null" .listed
        ⟨Joint.opened.worker, []⟩).returnsWith (fun names t => names == ["f", "g"] &&
          ((Joint.opened.pipe.before RequestAnswers.listed.turns).replay t.effects).isSome) ∧
      (workerListDeclarationsStrings false readName "null" .listed ⟨Joint.opened.worker, []⟩).Meets
        (fun names t => ∀ q, (Joint.opened.pipe.before RequestAnswers.listed.turns).After t q →
          q.unread = [] ∧ ∃ g, g.frame = .request (.listDeclarationsStrings "null" false) ∧
            (Joint.opened.pipe.before RequestAnswers.listed.turns).Sent
              (.listDeclarationsStrings "null" false) g t ∧
            ∃ life ∈ [ChildLife.lister], ∃ incoming ∈ life.frames, incoming.Makes g ∧
              incoming.host.strings = .returns (.ok names))
        (fun e t => ∀ q, (Joint.opened.pipe.before RequestAnswers.listed.turns).After t q →
          RequestAnswers.listed.cancelled = true ∨
          exchange "worker_list_declarations_strings" (.listDeclarationsStrings "null" false) false
            { progress := false, data := some .raw } .listed ⟨Joint.opened.worker, []⟩ =
              .raised e t) :=
  ⟨by decide +kernel, names_arrive { executable := ⟨[]⟩ } 1 true 0 0 .lister [] readName
    (fun life among incoming came name payload spelled => readName_nameText
      ((congrFun (ChildLife.lister_spells life among incoming came).1 name).symm.trans spelled))
    (fun life among incoming came => (ChildLife.lister_spells life among incoming came).2)
    [.opening (.hostSessionOpened default) .smooth] Joint.opened rfl false "null" .listed⟩

end LeanRs
