import LeanRs.Child.ServeGrammar
import LeanRs.Worker.Blame
import LeanRs.Worker.Handles

/-! The two pipes between a supervisor and its children: the frames that a child writes for the
requests it reads, and which of them the supervisor has received, told from what the supervisor
did. -/
namespace LeanRs

open Procedures Procedure Supervisor

namespace Answered

/-- The frames of a request that was answered, or of the last one that a child has read. -/
def Sound (g : Answered) : Prop := g.Complete ∨ g.Partial

end Answered

theorem Grammatical.sound {read : List Message} {answered : List Answered}
    (grammatical : Grammatical read answered) : ∀ g ∈ answered, g.Sound := by
  induction grammatical with
  | none read => exact nofun
  | last g later open_ =>
    intro g' member
    rw [List.mem_singleton.mp member]
    exact .inr open_
  | answered g complete others ih =>
    intro g' member
    rcases List.mem_cons.mp member with rfl | member
    · exact .inl complete
    · exact ih g' member

theorem serveStdio_sound (workerVersion : String) (capacity : Nat) (start : StartAnswers)
    (frames : List Incoming) :
    ∀ g ∈ (serveStdio workerVersion capacity start frames).answered, g.Sound := by
  unfold serveStdio
  split
  · exact nofun
  · split
    · exact (serveLoop_grammatical capacity frames _).sound
    · exact nofun
    · exact nofun

theorem Message.isEvent_of_emits {frame m : Message} (may : frame.emits m = true) :
    m.isEvent = true := by
  cases frame with
  | request r => cases r <;> cases m <;> first | rfl | cases may
  | _ => cases may

namespace Answered

variable {g : Answered} {events later : List Message} {message : Message}

theorem Sound.event (sound : g.Sound) (written : g.written = events ++ message :: later)
    (event : message.isTerminal = false) : g.frame.emits message = true := by
  have member : message ∈ g.written := written ▸ List.mem_append_right _ List.mem_cons_self
  rcases sound with ⟨before, response, whole, allowed, _⟩ | allowed
  · rw [whole] at member
    rcases List.mem_append.mp member with member | member
    · exact allowed message member
    · rw [List.mem_singleton.mp member] at event
      cases event
  · exact allowed message member

theorem Sound.response (sound : g.Sound) {response : Response}
    (written : g.written = events ++ .response response :: later) :
    later = [] ∧ (∀ m ∈ events, g.frame.emits m = true) ∧ g.frame.answeredBy response = true := by
  have silent : ∀ m : Message, g.frame.emits m = true → m ≠ .response response := by
    rintro m may rfl
    exact nomatch Message.isEvent_of_emits may
  rcases sound with ⟨before, response', whole, allowed, answers⟩ | allowed
  · rw [whole] at written
    rcases List.append_eq_append_iff.mp written with ⟨more, rfl, tail⟩ | ⟨more, rfl, tail⟩
    · cases more with
      | nil =>
        obtain ⟨same, none⟩ := List.cons.inj tail
        obtain rfl := Message.response.inj same
        exact ⟨none.symm, by simpa using allowed, answers⟩
      | cons m more =>
        have short := congrArg List.length tail
        simp at short
    · cases more with
      | nil =>
        obtain ⟨same, none⟩ := List.cons.inj tail
        obtain rfl := Message.response.inj same
        exact ⟨none, fun m member => allowed m (by simpa using member), answers⟩
      | cons m more =>
        obtain ⟨same, _⟩ := List.cons.inj tail
        exact absurd same.symm (silent m (allowed m (by simp)))
  · exact absurd rfl (silent _ (allowed _ (written ▸ List.mem_append_right _ List.mem_cons_self)))

end Answered

structure Pipe where
  /-- What the child at the other end writes for each frame that it is still to read. -/
  child : List Answered
  /-- The same of the children that are still to be started. -/
  spawned : List (List Answered)
  /-- Written or to be written for the requests so far, and not received. -/
  unread : List Message
  /-- The turns of the operation that have not received yet. -/
  turns : List TurnAnswers

namespace Effect

def receives : Effect → Bool
  | .receive _ => true
  | _ => false

def idle : Effect → Bool
  | .spawn | .write _ .written | .receive _ => false
  | _ => true

end Effect

namespace Pipe

def respawned (p : Pipe) : Pipe :=
  { p with child := p.spawned.headD [], spawned := p.spawned.tail, unread := [] }

/-- A request that went out is the next frame that the child reads; a child with nothing more to
write never reads it. -/
def reads (p : Pipe) (request : Request) : Option Pipe :=
  match p.child with
  | [] => some p
  | g :: rest =>
    if g.frame = .request request then
      some { p with child := rest, unread := p.unread ++ g.written }
    else none

/-- A frame that was received is the first of those that were not. -/
def hands (p : Pipe) : Option Pipe :=
  match p.turns with
  | [] => none
  | a :: rest =>
    match a.message? with
    | none => some { p with turns := rest }
    | some message =>
      match p.unread with
      | [] => none
      | next :: unread =>
        if next = message then some { p with turns := rest, unread := unread } else none

def step (p : Pipe) : Effect → Option Pipe
  | .spawn => some p.respawned
  | .write request .written => p.reads request
  | .receive _ => p.hands
  | _ => some p

abbrev replay (p : Pipe) (effects : List Effect) : Option Pipe := Runs.run step p effects

variable {p q : Pipe}

theorem step_idle {e : Effect} (idle : e.idle = true) : p.step e = some p := by
  cases e with
  | write request answer =>
    cases answer with
    | written => cases idle
    | _ => rfl
  | spawn => cases idle
  | receive bound => cases idle
  | _ => rfl

theorem replay_idle (p : Pipe) {effects : List Effect} (idle : ∀ e ∈ effects, e.idle = true) :
    p.replay effects = some p := by
  induction effects with
  | nil => rfl
  | cons e rest ih =>
    rw [replay, Runs.run_cons, step_idle (idle e List.mem_cons_self)]
    exact ih fun e' member => idle e' (List.mem_cons_of_mem e member)

theorem replay_append {first second : List Effect}
    (replayed : p.replay (first ++ second) = some q) :
    ∃ m, p.replay first = some m ∧ m.replay second = some q := by
  rw [replay, Runs.run_append] at replayed
  exact Option.bind_eq_some_iff.mp replayed

theorem replay_cons {e : Effect} {rest : List Effect} (replayed : p.replay (e :: rest) = some q) :
    ∃ m, p.step e = some m ∧ m.replay rest = some q :=
  Option.bind_eq_some_iff.mp replayed

theorem replay_spawned {before : List Effect} (replayed : p.replay (before ++ [.spawn]) = some q) :
    q.unread = [] := by
  obtain ⟨m, _, spawned⟩ := replay_append replayed
  obtain rfl : m.respawned = q := Option.some.inj spawned
  rfl

theorem reads_turns {request : Request} (read : p.reads request = some q) : q.turns = p.turns := by
  unfold reads at read
  split at read
  · rw [← Option.some.inj read]
  · split at read
    · rw [← Option.some.inj read]
    · cases read

theorem replay_turns {effects : List Effect} (none : ∀ e ∈ effects, e.receives = false)
    (replayed : p.replay effects = some q) : q.turns = p.turns := by
  induction effects generalizing p with
  | nil => rw [← Option.some.inj replayed]
  | cons e rest ih =>
    obtain ⟨m, moved, replayed⟩ := replay_cons replayed
    have here : m.turns = p.turns := by
      have other := none e List.mem_cons_self
      cases e with
      | write request answer =>
        cases answer with
        | written => exact reads_turns moved
        | _ => rw [← Option.some.inj moved]
      | receive bound => cases other
      | spawn => rw [← Option.some.inj moved, respawned]
      | _ => rw [← Option.some.inj moved]
    rw [← here]
    exact ih (fun e' member => none e' (List.mem_cons_of_mem e member)) replayed

structure Sound (p : Pipe) : Prop where
  child : ∀ g ∈ p.child, g.Sound
  spawned : ∀ child ∈ p.spawned, ∀ g ∈ child, g.Sound

theorem Sound.congr (sound : p.Sound) (child : q.child = p.child)
    (spawned : q.spawned = p.spawned) :
    q.Sound := ⟨child ▸ sound.child, spawned ▸ sound.spawned⟩

/-- Whatever the children write, now or after they are started, is in `P`. -/
structure Each (P : Answered → Prop) (p : Pipe) : Prop where
  child : ∀ g ∈ p.child, P g
  spawned : ∀ child ∈ p.spawned, ∀ g ∈ child, P g

variable {P : Answered → Prop}

theorem Each.congr (each : p.Each P) (child : q.child = p.child) (spawned : q.spawned = p.spawned) :
    q.Each P := ⟨child ▸ each.child, spawned ▸ each.spawned⟩

theorem respawned_each (each : p.Each P) : p.respawned.Each P := by
  refine ⟨fun g member => ?_, fun child member => ?_⟩
  · unfold respawned at member
    cases spawned : p.spawned with
    | nil => rw [spawned] at member; cases member
    | cons child rest =>
      rw [spawned] at member
      exact each.spawned child (spawned ▸ List.mem_cons_self) g member
  · exact each.spawned child (List.mem_of_mem_tail member)

theorem reads_each (each : p.Each P) {request : Request} (read : p.reads request = some q) :
    q.Each P := by
  unfold reads at read
  split at read
  · exact Option.some.inj read ▸ each
  · rename_i g rest child
    split at read
    · rw [← Option.some.inj read]
      exact ⟨fun g' member => each.child g' (child ▸ List.mem_cons_of_mem g member), each.spawned⟩
    · cases read

theorem hands_child (handed : p.hands = some q) :
    q.child = p.child ∧ q.spawned = p.spawned := by
  unfold hands at handed
  split at handed
  · cases handed
  · split at handed
    · rw [← Option.some.inj handed]
      exact ⟨rfl, rfl⟩
    · split at handed
      · cases handed
      · split at handed
        · rw [← Option.some.inj handed]
          exact ⟨rfl, rfl⟩
        · cases handed

theorem step_each (each : p.Each P) {e : Effect} (moved : p.step e = some q) : q.Each P := by
  cases e with
  | write request answer =>
    cases answer with
    | written => exact reads_each each moved
    | _ => exact Option.some.inj moved ▸ each
  | spawn => exact Option.some.inj moved ▸ respawned_each each
  | receive bound => exact each.congr (hands_child moved).1 (hands_child moved).2
  | _ => exact Option.some.inj moved ▸ each

theorem replay_each (each : p.Each P) {effects : List Effect}
    (replayed : p.replay effects = some q) : q.Each P :=
  Runs.invariant (fun _ _ _ each moved => step_each each moved) each replayed

theorem replay_sound (sound : p.Sound) {effects : List Effect}
    (replayed : p.replay effects = some q) : q.Sound := by
  have each := replay_each (P := Answered.Sound) ⟨sound.child, sound.spawned⟩ replayed
  exact ⟨each.child, each.spawned⟩

theorem hands_frame {a : TurnAnswers} {rest : List TurnAnswers} {message : Message}
    (turns : p.turns = a :: rest) (received : a.message? = some message)
    (handed : p.hands = some q) :
    ∃ unread, p.unread = message :: unread ∧ q = { p with turns := rest, unread := unread } := by
  unfold hands at handed
  rw [turns] at handed
  dsimp only at handed
  rw [received] at handed
  dsimp only at handed
  split at handed
  · cases handed
  · rename_i next unread whole
    split at handed
    · rename_i same
      subst same
      exact ⟨unread, whole, (Option.some.inj handed).symm⟩
    · cases handed

theorem hands_nothing {a : TurnAnswers} {rest : List TurnAnswers} (turns : p.turns = a :: rest)
    (received : a.message? = none) (handed : p.hands = some q) :
    q = { p with turns := rest } := by
  unfold hands at handed
  rw [turns] at handed
  dsimp only at handed
  rw [received] at handed
  exact (Option.some.inj handed).symm

def After (p : Pipe) (s : World) (q : Pipe) : Prop := p.replay s.effects = some q

end Pipe

end LeanRs
