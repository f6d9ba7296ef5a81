import LeanRs.General.Runs
import LeanRs.Worker.Framing

/-! The connection between the supervisor and its child, byte by byte: the handshake, the frame
limit, and everything that either end writes and reads afterwards, in any order. -/
namespace LeanRs

open LengthPrefix Procedures Procedure Runs

/-- One pipe, the frames that have gone into it whole, and the messages read out of it. -/
structure Flow where
  pipe : BytePipe
  sent : List Message
  received : List Message

namespace Flow

def new : Flow := ⟨⟨⟨[], false⟩, none⟩, [], []⟩

def close (f : Flow) : Flow := { f with pipe := { f.pipe with ended := true } }

def write (codec : FrameCodec) (cap : Nat) (message : Message) (fault : Option Break) (f : Flow) :
    Except ProtocolError Unit × Flow :=
  let (result, pipe) := f.pipe.writeFrame codec cap message fault
  let sent := if f.pipe.carriesWhole codec cap message fault then f.sent ++ [message] else f.sent
  (result, { f with pipe, sent })

def read (codec : FrameCodec) (cap : Nat) (f : Flow) :
    Option (Except ProtocolError Message × Flow) :=
  match readFrame codec cap f.pipe.toStream with
  | .returned message s =>
    some (.ok message,
      { f with pipe := { f.pipe with toStream := s }, received := f.received ++ [message] })
  | .raised err s => some (.error err, { f with pipe := { f.pipe with toStream := s } })
  | .waiting _ => none

def Carrying (codec : FrameCodec) (room : Nat → Nat) (f : Flow) : Prop :=
  ∃ pending, f.sent = f.received ++ pending ∧
    Carries codec room f.received.length pending f.pipe.bytes f.pipe.broken.isSome

end Flow

inductive ParentStage where
  | handshaking
  /-- The handshake is there, and the frame limit goes out next. -/
  | announcing
  | serving
  | stopped
  deriving DecidableEq

inductive ChildStage where
  | starting
  | limiting
  | serving
  | ended
  deriving DecidableEq

structure Connection where
  down : Flow
  up : Flow
  parent : ParentStage
  child : ChildStage
  childCap : Nat
  parentLost : Option ProtocolError
  childLost : Option ProtocolError

inductive ConnectionAction where
  | childStarts (fault : Option Break)
  | childReads
  | childWrites (message : Message) (fault : Option Break)
  | childExits
  | parentReads
  | parentAnnounces (fault : Option Break)
  | parentWrites (request : Request) (fault : Option Break)
  | parentStops

/-- `max_frame_bytes` of the configuration: the default, or what the setter makes of a number. -/
def frameCap : Option Nat → Nat
  | none => defaultMaxFrameBytes
  | some asked => min (max asked minFrameBytes) maxFrameBytesHardCap

namespace Connection

def new : Connection where
  down := .new
  up := .new
  parent := .handshaking
  child := .starting
  childCap := defaultMaxFrameBytes
  parentLost := none
  childLost := none

def childEnded (c : Connection) : Connection := { c with child := .ended, up := c.up.close }

def parentStopped (c : Connection) : Connection :=
  { c with parent := .stopped, down := c.down.close }

/-- What a child that waits for the frame limit makes of what it has read. -/
def configured (c : Connection) : Except ProtocolError Message → Connection
  | .ok (.configureFrameLimit maxFrameBytes) =>
    { c with child := .serving, childCap := maxFrameBytes }
  | .ok _ => c.childEnded
  | .error err => { c.childEnded with childLost := some err }

def served (c : Connection) : Except ProtocolError Message → Connection
  | .ok _ => c
  | .error err => { c.childEnded with childLost := some err }

def greeted (c : Connection) : Except ProtocolError Message → Connection
  | .ok (.handshake _ version) =>
    if version = protocolVersion then { c with parent := .announcing } else c.parentStopped
  | .ok _ => c.parentStopped
  | .error err => { c.parentStopped with parentLost := some err }

def answered (c : Connection) : Except ProtocolError Message → Connection
  | .ok _ => c
  | .error err => { c with parentLost := some err }

variable (codec : FrameCodec) (workerVersion : String) (cap : Nat)

def step (c : Connection) : ConnectionAction → Option Connection
  | .childStarts fault =>
    if c.child = .starting then
      match c.up.write codec c.childCap (.handshake workerVersion protocolVersion) fault with
      | (.ok (), up) => some { c with up, child := .limiting }
      | (.error _, up) => some { c with up }.childEnded
    else none
  | .childReads =>
    match c.child with
    | .limiting => (c.down.read codec defaultMaxFrameBytes).map fun (result, down) =>
      { c with down }.configured result
    | .serving => (c.down.read codec c.childCap).map fun (result, down) =>
      { c with down }.served result
    | _ => none
  | .childWrites message fault =>
    if c.child = .serving then some { c with up := (c.up.write codec c.childCap message fault).2 }
    else none
  | .childExits => some c.childEnded
  | .parentReads =>
    match c.parent, c.parentLost with
    | .handshaking, _ => (c.up.read codec cap).map fun (result, up) => { c with up }.greeted result
    | .serving, none => (c.up.read codec cap).map fun (result, up) => { c with up }.answered result
    | _, _ => none
  | .parentAnnounces fault =>
    if c.parent = .announcing then
      match c.down.write codec cap (.configureFrameLimit cap) fault with
      | (.ok (), down) => some { c with down, parent := .serving }
      | (.error _, down) => some { c with down }.parentStopped
    else none
  | .parentWrites request fault =>
    if c.parent = .serving then
      some { c with down := (c.down.write codec cap (.request request) fault).2 }
    else none
  | .parentStops => some c.parentStopped

end Connection

namespace Flow

variable {codec : FrameCodec} {room : Nat → Nat} {cap : Nat} {message : Message}
  {fault : Option Break} {f : Flow}

theorem write_cases :
    (∃ err, f.write codec cap message fault = (.error err, f)) ∨
      ∃ body, codec.toVec message = .ok body ∧ body.length ≤ cap ∧ f.pipe.broken = none ∧
        ((∃ result broken, f.write codec cap message fault =
            (result, { f with
              pipe := { f.pipe with bytes := f.pipe.bytes ++ frame 4 body, broken := broken }
              sent := f.sent ++ [message] })) ∨
          ∃ err taken text, taken < 4 + body.length ∧ f.write codec cap message fault =
            (.error err, { f with
              pipe := { f.pipe with
                bytes := f.pipe.bytes ++ (frame 4 body).take taken, broken := some text } })) := by
  obtain ⟨whole, err, wrote⟩ | ⟨body, encoded, fits, intact,
    ⟨whole, result, broken, wrote⟩ | ⟨whole, err, taken, text, part, wrote⟩⟩ :=
    f.pipe.writeFrame_cases codec cap message fault
  · exact .inl ⟨err, by simp [write, wrote, whole]⟩
  · exact .inr ⟨body, encoded, fits, intact, .inl ⟨result, broken, by simp [write, wrote, whole]⟩⟩
  · exact .inr ⟨body, encoded, fits, intact,
      .inr ⟨err, taken, text, part, by simp [write, wrote, whole]⟩⟩

theorem Carrying.write (carrying : f.Carrying codec room) (cap : Nat) (message : Message)
    (fault : Option Break)
    (opens : ∀ body, codec.toVec message = .ok body → body.length ≤ cap →
      body.length ≤ room f.sent.length) :
    (f.write codec cap message fault).2.Carrying codec room := by
  obtain ⟨pending, split, carries⟩ := carrying
  obtain ⟨err, wrote⟩ | ⟨body, encoded, fits, intact,
    ⟨result, broken, wrote⟩ | ⟨err, taken, text, part, wrote⟩⟩ :=
    @write_cases codec cap message fault f
  · rw [wrote]
    exact ⟨pending, split, carries⟩
  all_goals
    have place : body.length ≤ room (f.received.length + pending.length) := by
      have := opens body encoded fits
      rwa [split, List.length_append] at this
    rw [intact] at carries
    rw [wrote]
  · refine ⟨pending ++ [message], ?_, carries.append encoded place _⟩
    rw [split, List.append_assoc]
  · exact ⟨pending, split, carries.tear encoded place part⟩

theorem write_frame : (f.write codec cap message fault).2.pipe.ended = f.pipe.ended ∧
    (f.write codec cap message fault).2.received = f.received ∧
    f.sent <+: (f.write codec cap message fault).2.sent := by
  obtain ⟨err, wrote⟩ | ⟨body, encoded, fits, intact,
    ⟨result, broken, wrote⟩ | ⟨err, taken, text, part, wrote⟩⟩ :=
    @write_cases codec cap message fault f
  · rw [wrote]
    exact ⟨rfl, rfl, List.prefix_rfl⟩
  · rw [wrote]
    exact ⟨rfl, rfl, List.prefix_append _ _⟩
  · rw [wrote]
    exact ⟨rfl, rfl, List.prefix_rfl⟩

theorem sent_of_write_ok {g : Flow} (written : f.write codec cap message fault = (.ok (), g)) :
    g.sent = f.sent ++ [message] := by
  obtain ⟨err, wrote⟩ | ⟨body, encoded, fits, intact,
    ⟨result, broken, wrote⟩ | ⟨err, taken, text, part, wrote⟩⟩ :=
    @write_cases codec cap message fault f
  all_goals
    rw [wrote] at written
    obtain ⟨ok, rfl⟩ := Prod.mk.inj written
  · cases ok
  · rfl
  · cases ok

/-- What a read comes to: the next message that was sent, or the end of the pipe after all of
them, or a wait for more. -/
theorem Carrying.read_cases (carrying : f.Carrying codec room)
    (opens : room f.received.length ≤ cap) (small : cap < 2 ^ 32) :
    (∃ message rest g, f.sent = f.received ++ message :: rest ∧
        f.read codec cap = some (.ok message, g) ∧ g.Carrying codec room ∧ g.sent = f.sent ∧
        g.pipe.ended = f.pipe.ended ∧ g.received = f.received ++ [message]) ∨
      f.received = f.sent ∧
        ((f.pipe.ended = false ∧ f.read codec cap = none) ∨
          f.pipe.ended = true ∧ ∃ g, f.read codec cap = some (.error unexpectedEof, g) ∧
            g.Carrying codec room ∧ g.sent = f.sent ∧ g.pipe.ended = true ∧
            g.received = f.received) := by
  obtain ⟨⟨⟨bytes, ended⟩, broken⟩, sent, received⟩ := f
  obtain ⟨pending, split, carries⟩ := carrying
  cases pending with
  | nil =>
    right
    obtain ⟨raises, s, waits⟩ := carries.read_nothing opens small
    have all : received = sent := by simpa using split.symm
    refine ⟨all, ?_⟩
    cases ended with
    | false => exact .inl ⟨rfl, by simp [Flow.read, waits]⟩
    | true =>
      refine .inr ⟨rfl, ⟨⟨⟨[], true⟩, broken⟩, sent, received⟩, by simp [Flow.read, raises], ?_⟩
      exact ⟨⟨[], split, .clear _ _⟩, rfl, rfl, rfl⟩
  | cons message rest =>
    left
    obtain ⟨left, reads, after⟩ := carries.read_next opens small ended
    refine ⟨message, rest, ⟨⟨⟨left, ended⟩, broken⟩, sent, received ++ [message]⟩, split,
      by simp [Flow.read, reads], ⟨rest, ?_, ?_⟩, rfl, rfl, rfl⟩
    · simpa using split
    · simpa using after

/-- Nothing is lost, invented or out of order, and a read says so. -/
def Delivers (codec : FrameCodec) (cap : Nat) (f : Flow) : Prop :=
  f.received <+: f.sent ∧
    match f.read codec cap with
    | some (.ok message, g) => g.received = f.received ++ [message] ∧ g.received <+: f.sent
    | some (.error err, _) => err = unexpectedEof ∧ f.pipe.ended = true ∧ f.received = f.sent
    | none => f.pipe.ended = false ∧ f.received = f.sent

theorem Carrying.delivers (carrying : f.Carrying codec room)
    (opens : room f.received.length ≤ cap) (small : cap < 2 ^ 32) : f.Delivers codec cap := by
  refine ⟨carrying.choose_spec.1 ▸ List.prefix_append _ _, ?_⟩
  obtain ⟨message, rest, g, split, reads, -, -, -, received⟩ |
    ⟨all, ⟨ended, reads⟩ | ⟨ended, g, reads, -⟩⟩ := carrying.read_cases opens small
  · rw [reads]
    refine ⟨received, rest, ?_⟩
    rw [received, split, List.append_assoc]
    rfl
  · rw [reads]
    exact ⟨ended, all⟩
  · rw [reads]
    exact ⟨rfl, ended, all⟩

end Flow

/-- The first frame of either direction is a small one; the others are held to the cap. -/
def frameRoom (cap : Nat) : Nat → Nat
  | 0 => minFrameBytes
  | _ + 1 => cap

theorem frameRoom_le {cap : Nat} (low : minFrameBytes ≤ cap) (place : Nat) :
    frameRoom cap place ≤ cap := by
  cases place with
  | zero => exact low
  | succ => exact Nat.le_refl cap

theorem frameRoom_later {cap : Nat} {sent : List Message} (begun : sent ≠ []) :
    frameRoom cap sent.length = cap := by
  cases sent with
  | nil => exact absurd rfl begun
  | cons => rfl

theorem frameCap_bounds (asked : Option Nat) :
    minFrameBytes ≤ frameCap asked ∧ frameCap asked ≤ maxFrameBytesHardCap := by
  cases asked with
  | none => decide
  | some n =>
    refine ⟨Nat.le_min.mpr ⟨Nat.le_max_right _ _, by decide⟩, Nat.min_le_right _ _⟩

namespace Connection

def ChildAt (cap : Nat) (c : Connection) : ChildStage → Prop
  | .starting => c.up.sent = [] ∧ c.down.received = [] ∧ c.childCap = defaultMaxFrameBytes
  | .limiting => c.up.sent ≠ [] ∧ c.down.received = []
  | .serving => c.up.sent ≠ [] ∧ c.down.received ≠ [] ∧ c.childCap = cap
  | .ended => True

def ParentAt (c : Connection) : ParentStage → Prop
  | .handshaking | .announcing => c.down.sent = []
  | .serving => c.down.sent ≠ []
  | .stopped => True

structure Sound (codec : FrameCodec) (cap : Nat) (c : Connection) : Prop where
  up : c.up.Carrying codec (frameRoom cap)
  down : c.down.Carrying codec (frameRoom cap)
  first : ∀ m, c.down.sent.head? = some m → m = .configureFrameLimit cap
  childAt : c.ChildAt cap c.child
  parentAt : c.ParentAt c.parent
  childGone : c.up.pipe.ended = true ↔ c.child = .ended
  parentGone : c.down.pipe.ended = true ↔ c.parent = .stopped
  parentLost : ∀ e, c.parentLost = some e →
    e = unexpectedEof ∧ c.up.received = c.up.sent ∧ c.child = .ended
  childLost : ∀ e, c.childLost = some e →
    e = unexpectedEof ∧ c.down.received = c.down.sent ∧ c.parent = .stopped

variable {codec : FrameCodec} {workerVersion : String} {cap : Nat} {c d : Connection}

theorem new_sound : (new).Sound codec cap where
  up := ⟨[], rfl, .clear _ _⟩
  down := ⟨[], rfl, .clear _ _⟩
  first := fun _ none => by cases none
  childAt := ⟨rfl, rfl, rfl⟩
  parentAt := rfl
  childGone := by decide
  parentGone := by decide
  parentLost := fun _ none => by cases none
  childLost := fun _ none => by cases none

theorem Sound.childEnded (sound : c.Sound codec cap) : c.childEnded.Sound codec cap where
  up := sound.up
  down := sound.down
  first := sound.first
  childAt := trivial
  parentAt := sound.parentAt
  childGone := ⟨fun _ => rfl, fun _ => rfl⟩
  parentGone := sound.parentGone
  parentLost := fun e lost => ⟨(sound.parentLost e lost).1, (sound.parentLost e lost).2.1, rfl⟩
  childLost := sound.childLost

theorem Sound.parentStopped (sound : c.Sound codec cap) : c.parentStopped.Sound codec cap where
  up := sound.up
  down := sound.down
  first := sound.first
  childAt := sound.childAt
  parentAt := trivial
  childGone := sound.childGone
  parentGone := ⟨fun _ => rfl, fun _ => rfl⟩
  parentLost := sound.parentLost
  childLost := fun e lost => ⟨(sound.childLost e lost).1, (sound.childLost e lost).2.1, rfl⟩

theorem Sound.wroteUp (sound : c.Sound codec cap) (alive : c.child ≠ .ended) {up : Flow}
    (carrying : up.Carrying codec (frameRoom cap)) (ended : up.pipe.ended = c.up.pipe.ended)
    {stage : ChildStage} (on : stage ≠ .ended) (at' : { c with up }.ChildAt cap stage) :
    { c with up, child := stage }.Sound codec cap where
  up := carrying
  down := sound.down
  first := sound.first
  childAt := by cases stage <;> exact at'
  parentAt := sound.parentAt
  childGone := ⟨fun gone => absurd (sound.childGone.mp (ended ▸ gone)) alive,
    fun gone => absurd gone on⟩
  parentGone := sound.parentGone
  parentLost := fun e lost => absurd (sound.parentLost e lost).2.2 alive
  childLost := sound.childLost

theorem Sound.wroteDown (sound : c.Sound codec cap) (stage : ParentStage)
    (alive : c.parent ≠ .stopped) {down : Flow}
    (carrying : down.Carrying codec (frameRoom cap))
    (ended : down.pipe.ended = c.down.pipe.ended) (received : down.received = c.down.received)
    (first : ∀ m, down.sent.head? = some m → m = .configureFrameLimit cap)
    (on : stage ≠ .stopped) (at' : { c with down }.ParentAt stage) :
    { c with down, parent := stage }.Sound codec cap where
  up := sound.up
  down := carrying
  first := first
  childAt := by
    have before := sound.childAt
    cases stage : c.child <;> simp_all [ChildAt]
  parentAt := by cases stage <;> exact at'
  childGone := sound.childGone
  parentGone := ⟨fun gone => absurd (sound.parentGone.mp (ended ▸ gone)) alive,
    fun gone => absurd gone on⟩
  parentLost := sound.parentLost
  childLost := fun e lost => absurd (sound.childLost e lost).2.2 alive

theorem Sound.readUp (sound : c.Sound codec cap) {up : Flow}
    (carrying : up.Carrying codec (frameRoom cap)) (sent : up.sent = c.up.sent)
    (ended : up.pipe.ended = c.up.pipe.ended)
    (onward : ∀ e, c.parentLost = some e → up.received = up.sent) :
    { c with up }.Sound codec cap where
  up := carrying
  down := sound.down
  first := sound.first
  childAt := by
    have before := sound.childAt
    cases stage : c.child <;> simp_all [ChildAt]
  parentAt := sound.parentAt
  childGone := ended ▸ sound.childGone
  parentGone := sound.parentGone
  parentLost := fun e lost =>
    ⟨(sound.parentLost e lost).1, onward e lost, (sound.parentLost e lost).2.2⟩
  childLost := sound.childLost

theorem not_lost {received sent rest : List Message} {message : Message}
    (split : sent = received ++ message :: rest) : received ≠ sent := by
  intro all
  have longer := congrArg List.length split
  rw [← all, List.length_append, List.length_cons] at longer
  omega

theorem Sound.readDown (sound : c.Sound codec cap) (stage : ChildStage) (childCap : Nat)
    (alive : c.child ≠ .ended) {down : Flow}
    (carrying : down.Carrying codec (frameRoom cap)) (sent : down.sent = c.down.sent)
    (ended : down.pipe.ended = c.down.pipe.ended)
    (onward : ∀ e, c.childLost = some e → down.received = down.sent)
    (on : stage ≠ .ended)
    (at' : { c with down, childCap }.ChildAt cap stage) :
    { c with down, child := stage, childCap }.Sound codec cap where
  up := sound.up
  down := carrying
  first := fun m head => sound.first m (sent ▸ head)
  childAt := by cases stage <;> exact at'
  parentAt := by
    have before := sound.parentAt
    cases stage : c.parent <;> simp_all [ParentAt]
  childGone := ⟨fun gone => absurd (sound.childGone.mp gone) alive, fun gone => absurd gone on⟩
  parentGone := ended ▸ sound.parentGone
  parentLost := fun e lost => absurd (sound.parentLost e lost).2.2 alive
  childLost := fun e lost =>
    ⟨(sound.childLost e lost).1, onward e lost, (sound.childLost e lost).2.2⟩

theorem Sound.loseChild (sound : c.Sound codec cap) (ended : c.down.pipe.ended = true)
    (all : c.down.received = c.down.sent) :
    { c.childEnded with childLost := some unexpectedEof }.Sound codec cap :=
  { sound.childEnded with
    childLost := fun _ lost => ⟨(Option.some.inj lost).symm, all, sound.parentGone.mp ended⟩ }

theorem Sound.loseParent (sound : c.Sound codec cap) (ended : c.up.pipe.ended = true)
    (all : c.up.received = c.up.sent) :
    { c with parentLost := some unexpectedEof }.Sound codec cap :=
  { sound with
    parentLost := fun _ lost => ⟨(Option.some.inj lost).symm, all, sound.childGone.mp ended⟩ }

theorem Sound.failedUp (sound : c.Sound codec cap) (alive : c.child ≠ .ended) {up : Flow}
    (carrying : up.Carrying codec (frameRoom cap)) : { c with up }.childEnded.Sound codec cap where
  up := carrying
  down := sound.down
  first := sound.first
  childAt := trivial
  parentAt := sound.parentAt
  childGone := ⟨fun _ => rfl, fun _ => rfl⟩
  parentGone := sound.parentGone
  parentLost := fun e lost => absurd (sound.parentLost e lost).2.2 alive
  childLost := sound.childLost

theorem Sound.failedDown (sound : c.Sound codec cap) (alive : c.parent ≠ .stopped) {down : Flow}
    (carrying : down.Carrying codec (frameRoom cap)) (received : down.received = c.down.received)
    (first : ∀ m, down.sent.head? = some m → m = .configureFrameLimit cap) :
    { c with down }.parentStopped.Sound codec cap where
  up := sound.up
  down := carrying
  first := first
  childAt := by
    have before := sound.childAt
    cases stage : c.child <;> simp_all [ChildAt, Connection.parentStopped, Flow.close]
  parentAt := trivial
  childGone := sound.childGone
  parentGone := ⟨fun _ => rfl, fun _ => rfl⟩
  parentLost := sound.parentLost
  childLost := fun e lost => absurd (sound.childLost e lost).2.2 alive

/-- The handshake is a small frame, and so is the one that sets the limit. -/
structure SmallFirst (codec : FrameCodec) (workerVersion : String) (cap : Nat) : Prop where
  handshake : ∀ body, codec.toVec (.handshake workerVersion protocolVersion) = .ok body →
    body.length ≤ minFrameBytes
  limit : ∀ body, codec.toVec (.configureFrameLimit cap) = .ok body → body.length ≤ minFrameBytes

theorem childStarts_sound (first : SmallFirst codec workerVersion cap) (sound : c.Sound codec cap)
    {fault : Option Break} (moved : c.step codec workerVersion cap (.childStarts fault) = some d) :
    d.Sound codec cap := by
  dsimp only [step] at moved
  split at moved
  · rename_i starting
    have before := sound.childAt
    rw [starting] at before
    have alive : c.child ≠ .ended := by
      rw [starting]
      decide
    have carrying := sound.up.write c.childCap (.handshake workerVersion protocolVersion) fault
      fun body encoded _ => by
        rw [before.1]
        exact first.handshake body encoded
    obtain ⟨ended, -, -⟩ := @Flow.write_frame codec c.childCap
      (.handshake workerVersion protocolVersion) fault c.up
    split at moved
    · rename_i up wrote
      obtain rfl := Option.some.inj moved
      have sent := Flow.sent_of_write_ok wrote
      rw [wrote] at carrying ended
      refine sound.wroteUp alive carrying ended (by decide) ⟨?_, before.2.1⟩
      rw [sent, before.1]
      simp
    · rename_i err up wrote
      obtain rfl := Option.some.inj moved
      rw [wrote] at carrying
      exact sound.failedUp alive carrying
  · cases moved

theorem childWrites_sound (sound : c.Sound codec cap) {message : Message} {fault : Option Break}
    (moved : c.step codec workerVersion cap (.childWrites message fault) = some d) :
    d.Sound codec cap := by
  dsimp only [step] at moved
  split at moved
  · rename_i serving
    obtain rfl := Option.some.inj moved
    have before := sound.childAt
    rw [serving] at before
    obtain ⟨begun, heard, same⟩ := before
    have carrying := sound.up.write c.childCap message fault
      fun body _ fits => by
        rw [frameRoom_later begun, ← same]
        exact fits
    obtain ⟨ended, -, grown⟩ := @Flow.write_frame codec c.childCap message fault c.up
    have at' : { c with up := (c.up.write codec c.childCap message fault).2 }.ChildAt cap
        .serving := by
      refine ⟨fun empty => begun ?_, heard, same⟩
      exact List.prefix_nil.mp (empty ▸ grown)
    have written := sound.wroteUp (by rw [serving]; decide) carrying ended (by decide) at'
    rwa [← serving] at written
  · cases moved

theorem childReads_sound (low : minFrameBytes ≤ cap) (high : cap ≤ maxFrameBytesHardCap)
    (sound : c.Sound codec cap)
    (moved : c.step codec workerVersion cap .childReads = some d) : d.Sound codec cap := by
  have small : cap < 2 ^ 32 := Nat.lt_of_le_of_lt high (by decide)
  have before := sound.childAt
  dsimp only [step] at moved
  split at moved
  · rename_i limiting
    rw [limiting] at before
    have alive : c.child ≠ .ended := by
      rw [limiting]
      decide
    obtain ⟨begun, unheard⟩ := before
    have opens : frameRoom cap c.down.received.length ≤ defaultMaxFrameBytes := by
      rw [unheard]
      exact (by decide : minFrameBytes ≤ defaultMaxFrameBytes)
    obtain ⟨message, rest, g, split, reads, carrying, sent, ended, received⟩ |
      ⟨all, ⟨ended, reads⟩ | ⟨ended, g, reads, carrying, sent, ended', received⟩⟩ :=
      sound.down.read_cases opens (by decide)
    · rw [reads] at moved
      obtain rfl := Option.some.inj moved
      rw [unheard] at split
      obtain rfl := sound.first message (by rw [split]; rfl)
      refine sound.readDown _ _ alive carrying sent ended ?_ (by decide) ⟨begun, ?_, rfl⟩
      · intro e lost
        have all := (sound.childLost e lost).2.1
        rw [unheard, split] at all
        cases all
      · rw [received]
        simp
    · rw [reads] at moved
      cases moved
    · rw [reads] at moved
      obtain rfl := Option.some.inj moved
      have read := sound.readDown .limiting c.childCap alive carrying sent
        (ended'.trans ended.symm) (fun _ _ => by rw [received, sent, all]) (by decide)
        ⟨begun, received.trans unheard⟩
      exact read.loseChild ended' (by rw [received, sent, all])
  · rename_i serving
    rw [serving] at before
    obtain ⟨begun, heard, same⟩ := before
    have alive : c.child ≠ .ended := by
      rw [serving]
      decide
    have opens : frameRoom cap c.down.received.length ≤ c.childCap := by
      rw [same]
      exact frameRoom_le low _
    obtain ⟨message, rest, g, split, reads, carrying, sent, ended, received⟩ |
      ⟨all, ⟨ended, reads⟩ | ⟨ended, g, reads, carrying, sent, ended', received⟩⟩ :=
      sound.down.read_cases opens (same ▸ small)
    · rw [reads] at moved
      obtain rfl := Option.some.inj moved
      have read := sound.readDown .serving c.childCap alive carrying sent
        ended (fun e lost => absurd (sound.childLost e lost).2.1 (not_lost split)) (by decide)
        ⟨begun, by rw [received]; simp, same⟩
      rwa [← serving] at read
    · rw [reads] at moved
      cases moved
    · rw [reads] at moved
      obtain rfl := Option.some.inj moved
      have read := sound.readDown .serving c.childCap alive carrying sent
        (ended'.trans ended.symm) (fun _ _ => by rw [received, sent, all]) (by decide)
        ⟨begun, received ▸ heard, same⟩
      exact read.loseChild ended' (by rw [received, sent, all])
  · cases moved

theorem greeted_sound (sound : c.Sound codec cap) (handshaking : c.parent = .handshaking)
    (message : Message) : (c.greeted (.ok message)).Sound codec cap := by
  have alive : c.parent ≠ .stopped := by
    rw [handshaking]
    decide
  cases message with
  | handshake version revision =>
    unfold greeted
    dsimp only
    split
    · have before := sound.parentAt
      rw [handshaking] at before
      exact { sound with
        parentAt := before
        parentGone :=
          ⟨fun gone => absurd (sound.parentGone.mp gone) alive, fun gone => by cases gone⟩
        childLost := fun e lost => absurd (sound.childLost e lost).2.2 alive }
    · exact sound.parentStopped
  | _ => exact sound.parentStopped

theorem parentReads_sound (low : minFrameBytes ≤ cap) (high : cap ≤ maxFrameBytesHardCap)
    (sound : c.Sound codec cap)
    (moved : c.step codec workerVersion cap .parentReads = some d) : d.Sound codec cap := by
  have small : cap < 2 ^ 32 := Nat.lt_of_le_of_lt high (by decide)
  dsimp only [step] at moved
  have cases' := sound.up.read_cases (frameRoom_le low _) small
  split at moved
  · rename_i handshaking
    obtain ⟨message, rest, g, split, reads, carrying, sent, ended, received⟩ |
      ⟨all, ⟨ended, reads⟩ | ⟨ended, g, reads, carrying, sent, ended', received⟩⟩ := cases'
    · rw [reads] at moved
      obtain rfl := Option.some.inj moved
      have read := sound.readUp carrying sent ended fun e lost =>
        absurd (sound.parentLost e lost).2.1 (not_lost split)
      exact greeted_sound read handshaking message
    · rw [reads] at moved
      cases moved
    · rw [reads] at moved
      obtain rfl := Option.some.inj moved
      have read := sound.readUp carrying sent (ended'.trans ended.symm) fun _ _ => by
        rw [received, sent, all]
      exact (read.parentStopped).loseParent ended' (by
        show g.received = g.sent
        rw [received, sent, all])
  · obtain ⟨message, rest, g, split, reads, carrying, sent, ended, received⟩ |
      ⟨all, ⟨ended, reads⟩ | ⟨ended, g, reads, carrying, sent, ended', received⟩⟩ := cases'
    · rw [reads] at moved
      obtain rfl := Option.some.inj moved
      exact sound.readUp carrying sent ended fun e lost =>
        absurd (sound.parentLost e lost).2.1 (not_lost split)
    · rw [reads] at moved
      cases moved
    · rw [reads] at moved
      obtain rfl := Option.some.inj moved
      have read := sound.readUp carrying sent (ended'.trans ended.symm) fun _ _ => by
        rw [received, sent, all]
      exact read.loseParent ended' (by
        show g.received = g.sent
        rw [received, sent, all])
  · cases moved

theorem parentAnnounces_sound (first : SmallFirst codec workerVersion cap)
    (sound : c.Sound codec cap) {fault : Option Break}
    (moved : c.step codec workerVersion cap (.parentAnnounces fault) = some d) :
    d.Sound codec cap := by
  dsimp only [step] at moved
  split at moved
  · rename_i announcing
    have before := sound.parentAt
    rw [announcing] at before
    have silent : c.down.sent = [] := before
    have alive : c.parent ≠ .stopped := by
      rw [announcing]
      decide
    have carrying := sound.down.write cap (.configureFrameLimit cap) fault
      fun body encoded _ => by
        rw [silent]
        exact first.limit body encoded
    obtain ⟨ended, received, -⟩ :=
      @Flow.write_frame codec cap (.configureFrameLimit cap) fault c.down
    have head : ∀ m,
        (c.down.write codec cap (.configureFrameLimit cap) fault).2.sent.head? = some m →
        m = .configureFrameLimit cap := by
      intro m head
      obtain ⟨err, wrote⟩ |
          ⟨body, -, -, -, ⟨result, broken, wrote⟩ | ⟨err, taken, text, -, wrote⟩⟩ :=
        @Flow.write_cases codec cap (.configureFrameLimit cap) fault c.down
      all_goals
        rw [wrote] at head
        simp [silent] at head
      exact head.symm
    split at moved
    · rename_i down wrote
      obtain rfl := Option.some.inj moved
      have sent := Flow.sent_of_write_ok wrote
      rw [wrote] at carrying ended received head
      refine sound.wroteDown _ alive carrying ended received head (by decide) ?_
      intro empty
      have empty : down.sent = [] := empty
      rw [sent] at empty
      simp at empty
    · rename_i err down wrote
      obtain rfl := Option.some.inj moved
      rw [wrote] at carrying received head
      exact sound.failedDown alive carrying received head
  · cases moved

theorem parentWrites_sound (sound : c.Sound codec cap) {request : Request} {fault : Option Break}
    (moved : c.step codec workerVersion cap (.parentWrites request fault) = some d) :
    d.Sound codec cap := by
  dsimp only [step] at moved
  split at moved
  · rename_i serving
    obtain rfl := Option.some.inj moved
    have before := sound.parentAt
    rw [serving] at before
    have begun : c.down.sent ≠ [] := before
    have carrying := sound.down.write cap (.request request) fault
      fun body _ fits => by
        rw [frameRoom_later begun]
        exact fits
    obtain ⟨ended, received, grown⟩ := @Flow.write_frame codec cap (.request request) fault c.down
    have head : ∀ m, (c.down.write codec cap (.request request) fault).2.sent.head? = some m →
        m = .configureFrameLimit cap := by
      intro m head
      obtain ⟨later, same⟩ := grown
      rw [← same, List.head?_append_of_ne_nil _ begun] at head
      exact sound.first m head
    have written := sound.wroteDown .serving (by rw [serving]; decide) carrying ended
      received head (by decide) fun empty => begun (List.prefix_nil.mp (empty ▸ grown))
    rwa [← serving] at written
  · cases moved

theorem step_sound (low : minFrameBytes ≤ cap) (high : cap ≤ maxFrameBytesHardCap)
    (first : SmallFirst codec workerVersion cap) (action : ConnectionAction)
    (sound : c.Sound codec cap) (moved : c.step codec workerVersion cap action = some d) :
    d.Sound codec cap := by
  cases action with
  | childStarts fault => exact childStarts_sound first sound moved
  | childReads => exact childReads_sound low high sound moved
  | childWrites message fault => exact childWrites_sound sound moved
  | childExits => exact Option.some.inj moved ▸ sound.childEnded
  | parentReads => exact parentReads_sound low high sound moved
  | parentAnnounces fault => exact parentAnnounces_sound first sound moved
  | parentWrites request fault => exact parentWrites_sound sound moved
  | parentStops => exact Option.some.inj moved ▸ sound.parentStopped

def childReadCap (c : Connection) : Nat :=
  match c.child with
  | .serving => c.childCap
  | _ => defaultMaxFrameBytes

/-- Both directions deliver what was sent, both ends have one cap once the child serves, and an end
that stops reading has had everything. -/
structure Faithful (codec : FrameCodec) (cap : Nat) (c : Connection) : Prop where
  up : c.up.Delivers codec cap
  down : c.child ≠ .ended → c.down.Delivers codec c.childReadCap
  agreed : c.child = .serving → c.childCap = cap
  parentLost : ∀ e, c.parentLost = some e →
    e = unexpectedEof ∧ c.up.received = c.up.sent ∧ c.child = .ended
  childLost : ∀ e, c.childLost = some e →
    e = unexpectedEof ∧ c.down.received = c.down.sent ∧ c.parent = .stopped

theorem Sound.faithful (low : minFrameBytes ≤ cap) (high : cap ≤ maxFrameBytesHardCap)
    (sound : c.Sound codec cap) : c.Faithful codec cap where
  up := sound.up.delivers (frameRoom_le low _) (Nat.lt_of_le_of_lt high (by decide))
  down := by
    intro alive
    have at' := sound.childAt
    unfold childReadCap
    cases stage : c.child with
    | ended => exact absurd stage alive
    | serving =>
      rw [stage] at at'
      obtain ⟨-, -, same⟩ := at'
      dsimp only
      rw [same]
      exact sound.down.delivers (frameRoom_le low _) (Nat.lt_of_le_of_lt high (by decide))
    | starting =>
      rw [stage] at at'
      dsimp only
      refine sound.down.delivers ?_ (by decide)
      rw [at'.2.1]
      exact (by decide : minFrameBytes ≤ defaultMaxFrameBytes)
    | limiting =>
      rw [stage] at at'
      dsimp only
      refine sound.down.delivers ?_ (by decide)
      rw [at'.2]
      exact (by decide : minFrameBytes ≤ defaultMaxFrameBytes)
  agreed := by
    intro serving
    have at' := sound.childAt
    rw [serving] at at'
    exact at'.2.2
  parentLost := sound.parentLost
  childLost := sound.childLost

/-- In every run of a connection, with the pipes breaking wherever they do, each end receives just
the messages that the other has handed over, in their order; no read fails but at the end of a pipe
that has been read to its end. -/
theorem every_frame_arrives (codec : FrameCodec) (workerVersion : String) (asked : Option Nat)
    (first : SmallFirst codec workerVersion (frameCap asked)) {actions : List ConnectionAction}
    (reached : run (step codec workerVersion (frameCap asked)) new actions = some c) :
    c.Faithful codec (frameCap asked) := by
  obtain ⟨low, high⟩ := frameCap_bounds asked
  have sound : c.Sound codec (frameCap asked) :=
    invariant (fun _ action _ sound moved => step_sound low high first action sound moved)
      new_sound reached
  exact sound.faithful low high

end Connection

def FrameCodec.ofTable (table : List (Message × List UInt8))
    (distinct : (table.map Prod.snd).Nodup) : FrameCodec where
  toVec message := ((table.find? fun row => row.1 == message).map Prod.snd).elim (.error "") .ok
  fromSlice body := ((table.find? fun row => row.2 == body).map Prod.fst).elim (.error "")
    fun message => .ok (protocolVersion, message)
  fromSlice_toVec := by
    intro message body encoded
    cases found : table.find? (fun row => row.1 == message) with
    | none =>
      rw [found] at encoded
      cases encoded
    | some row =>
      rw [found] at encoded
      obtain rfl := Except.ok.inj encoded
      have named := List.find?_some found
      obtain rfl : row.1 = message := beq_iff_eq.mp named
      have member := List.mem_of_find?_eq_some found
      have back : table.find? (fun other => other.2 == row.2) = some row := by
        cases again : table.find? (fun other => other.2 == row.2) with
        | none => exact absurd (List.find?_eq_none.mp again row member) (by simp)
        | some other =>
          have named := List.find?_some again
          have same : other.2 = row.2 := beq_iff_eq.mp named
          rw [List.inj_on_of_nodup_map distinct (List.mem_of_find?_eq_some again) member same]
      rw [back]
      rfl

theorem FrameCodec.length_ofTable {table : List (Message × List UInt8)}
    {distinct : (table.map Prod.snd).Nodup} {limit : Nat}
    (small : ∀ row ∈ table, row.2.length ≤ limit) {message : Message} {body : List UInt8}
    (encoded : (ofTable table distinct).toVec message = .ok body) : body.length ≤ limit := by
  have listed : ((table.find? fun row => row.1 == message).map Prod.snd).elim (.error "") .ok =
      Except.ok body := encoded
  cases found : table.find? (fun row => row.1 == message) with
  | none =>
    rw [found] at listed
    cases listed
  | some row =>
    rw [found] at listed
    obtain rfl := Except.ok.inj listed
    exact small row (List.mem_of_find?_eq_some found)

def frameText (message : String) : List UInt8 :=
  ("\x7b\"version\":10,\"message\":" ++ message ++ "\x7d").toList.map fun c => UInt8.ofNat c.toNat

def greetingTable : List (Message × List UInt8) :=
  [(.handshake "0.9.2" protocolVersion, frameText ("\x7b\"type\":\"handshake\",\"body\":" ++
      "\x7b\"worker_version\":\"0.9.2\",\"protocol_version\":10\x7d\x7d")),
    (.configureFrameLimit minFrameBytes, frameText
      "\x7b\"type\":\"configure_frame_limit\",\"body\":\x7b\"max_frame_bytes\":65536\x7d\x7d"),
    (.request .health, frameText
      "\x7b\"type\":\"request\",\"body\":\x7b\"op\":\"health\"\x7d\x7d"),
    (.response .healthOk, frameText
      "\x7b\"type\":\"response\",\"body\":\x7b\"status\":\"health_ok\"\x7d\x7d")]

def greetingCodec : FrameCodec := .ofTable greetingTable (by decide +kernel)

def tornAnswer : List ConnectionAction :=
  [.childStarts none, .parentReads, .parentAnnounces none, .childReads, .parentWrites .health none,
    .childReads, .childWrites (.response .healthOk) (some ⟨20, "broken pipe"⟩), .childExits,
    .parentReads]

namespace Connection

theorem torn_answer_is_not_read :
    ∃ c, run (step greetingCodec "0.9.2" (frameCap (some 1))) new tornAnswer = some c ∧
      c.Faithful greetingCodec (frameCap (some 1)) ∧
      c.up.received = [.handshake "0.9.2" protocolVersion] ∧
      c.parentLost = some unexpectedEof := by
  have small : ∀ row ∈ greetingTable, row.2.length ≤ minFrameBytes := by decide +kernel
  have ends : (run (step greetingCodec "0.9.2" (frameCap (some 1))) new tornAnswer).any (fun c =>
      c.up.received == [.handshake "0.9.2" protocolVersion] &&
        c.parentLost == some unexpectedEof) = true := by
    decide +kernel
  obtain ⟨c, reached, ends⟩ := (Option.any_eq_true _ _).mp ends
  rw [Bool.and_eq_true, beq_iff_eq, beq_iff_eq] at ends
  refine ⟨c, reached, every_frame_arrives greetingCodec "0.9.2" (some 1) ⟨?_, ?_⟩ reached, ends⟩
  · exact fun _ encoded => FrameCodec.length_ofTable small encoded
  · exact fun _ encoded => FrameCodec.length_ofTable small encoded

end Connection

end LeanRs
