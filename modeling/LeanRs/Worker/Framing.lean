import LeanRs.Child.ServeLoop
import LeanRs.General.LengthPrefix

/-! Frames as bytes: what `write_frame` leaves in a pipe, what `read_frame` takes out of it, and
that the frames are read as they were written, up to where the pipe broke. -/
namespace LeanRs

open LengthPrefix Procedures Procedure

def minFrameBytes : Nat := 65536

def maxFrameBytesHardCap : Nat := 268435456

/-- The serialiser: a message as the body of a frame of the current version, and a body as the
version and the message of a frame. -/
structure FrameCodec where
  toVec : Message → Except String (List UInt8)
  fromSlice : List UInt8 → Except String (Nat × Message)
  fromSlice_toVec : ∀ message body, toVec message = .ok body →
    fromSlice body = .ok (protocolVersion, message)

/-- A pipe between the two processes. Once it has broken, nothing more can be written. -/
structure BytePipe extends Stream where
  broken : Option String

/-- Where a pipe breaks under a write, in bytes of the frame, and what the system says then. -/
structure Break where
  taken : Nat
  text : String

namespace BytePipe

def push (bytes : List UInt8) (fault : Option Break) (p : BytePipe) :
    Except ProtocolError Unit × BytePipe :=
  match p.broken, fault with
  | some text, _ => (.error (.io text), p)
  | none, none => (.ok (), { p with bytes := p.bytes ++ bytes })
  | none, some ⟨taken, text⟩ =>
    (.error (.io text), { p with bytes := p.bytes ++ bytes.take taken, broken := some text })

/-- `write_frame`: nothing is written of a message that cannot be serialised or is over the cap. -/
def writeFrame (codec : FrameCodec) (cap : Nat) (message : Message) (fault : Option Break)
    (p : BytePipe) : Except ProtocolError Unit × BytePipe :=
  match codec.toVec message with
  | .error text => (.error (.json text), p)
  | .ok body =>
    if 2 ^ 32 ≤ body.length then (.error (.frameTooLarge (2 ^ 32 - 1) cap), p)
    else if cap < body.length then (.error (.frameTooLarge body.length cap), p)
    else p.push (frame 4 body) fault

def carriesWhole (codec : FrameCodec) (cap : Nat) (message : Message) (fault : Option Break)
    (p : BytePipe) : Bool :=
  match codec.toVec message with
  | .error _ => false
  | .ok body =>
    body.length < 2 ^ 32 && body.length ≤ cap && p.broken.isNone &&
      fault.all fun break' => 4 + body.length ≤ break'.taken

def upTo (wanted : Nat) (fault : Option Break) (p : BytePipe) : Except String Unit :=
  match p.broken, fault with
  | some text, _ => .error text
  | none, none => .ok ()
  | none, some ⟨taken, text⟩ => if wanted ≤ taken then .ok () else .error text

def answers (codec : FrameCodec) (message : Message) (fault : Option Break) (p : BytePipe) :
    FrameAnswers where
  body := (codec.toVec message).map List.length
  writeLength := p.upTo 4 fault
  writeBody := p.upTo (4 + ((codec.toVec message).toOption.map List.length).getD 0) fault
  flush := (p.broken.or (fault.map Break.text)).elim (.ok ()) .error

theorem handOver_body {cap length : Nat} {a : FrameAnswers} (body : a.body = .ok length) :
    handOver cap a =
      if 2 ^ 32 ≤ length then .error (.frameTooLarge (2 ^ 32 - 1) cap)
      else if cap < length then .error (.frameTooLarge length cap)
      else a.writeLength.mapError ProtocolError.io >>= fun _ =>
        a.writeBody.mapError ProtocolError.io := by
  have read : (a.body.mapError ProtocolError.json) = .ok length := by
    rw [body]
    rfl
  unfold handOver
  rw [read]
  simp only [bind, Except.bind]
  by_cases huge : 2 ^ 32 ≤ length
  · simp only [if_pos huge]
    rfl
  · by_cases large : cap < length
    · simp only [if_neg huge, if_pos large]
      rfl
    · simp only [if_neg huge, if_neg large]

variable (codec : FrameCodec) (cap : Nat) (message : Message) (fault : Option Break) (p : BytePipe)

theorem writeFrame_eq :
    (p.writeFrame codec cap message fault).1 =
      LeanRs.writeFrame cap (p.answers codec message fault) := by
  cases encoded : codec.toVec message with
  | error text => simp only [writeFrame, LeanRs.writeFrame, handOver, answers, encoded]; rfl
  | ok body =>
    have length : (p.answers codec message fault).body = .ok body.length := by
      rw [answers, encoded]
      rfl
    rw [LeanRs.writeFrame, handOver_body length, writeFrame, encoded]
    dsimp only
    split
    · rfl
    · split
      · rfl
      · simp only [push, answers, upTo, encoded]
        cases p.broken with
        | some text => rfl
        | none =>
          cases fault with
          | none => rfl
          | some break' =>
            dsimp only
            split
            · split <;> rfl
            · rfl

theorem carriesWhole_eq :
    p.carriesWhole codec cap message fault =
      (handOver cap (p.answers codec message fault)).isOk := by
  cases encoded : codec.toVec message with
  | error text => simp only [carriesWhole, handOver, answers, encoded]; rfl
  | ok body =>
    have length : (p.answers codec message fault).body = .ok body.length := by
      rw [answers, encoded]
      rfl
    rw [handOver_body length, carriesWhole, encoded]
    dsimp only
    by_cases huge : 2 ^ 32 ≤ body.length
    · rw [if_pos huge, decide_eq_false (Nat.not_lt_of_le huge)]
      rfl
    · rw [if_neg huge, decide_eq_true (Nat.lt_of_not_ge huge)]
      by_cases large : cap < body.length
      · rw [if_pos large, decide_eq_false (Nat.not_le_of_lt large)]
        rfl
      · rw [if_neg large, decide_eq_true (Nat.le_of_not_lt large)]
        simp only [answers, upTo, encoded]
        cases p.broken with
        | some text => rfl
        | none =>
          cases fault with
          | none => rfl
          | some break' =>
            by_cases whole : 4 + body.length ≤ break'.taken
            · have begun : 4 ≤ break'.taken := Nat.le_trans (Nat.le_add_right _ _) whole
              simp [Except.toOption, whole, begun]
              rfl
            · by_cases begun : 4 ≤ break'.taken <;> simp [Except.toOption, whole, begun] <;> rfl

theorem writeFrame_cases :
    (p.carriesWhole codec cap message fault = false ∧
        ∃ err, p.writeFrame codec cap message fault = (.error err, p)) ∨
      ∃ body, codec.toVec message = .ok body ∧ body.length ≤ cap ∧ p.broken = none ∧
        ((p.carriesWhole codec cap message fault = true ∧
            ∃ result broken, p.writeFrame codec cap message fault =
              (result, { p with bytes := p.bytes ++ frame 4 body, broken := broken })) ∨
          p.carriesWhole codec cap message fault = false ∧
            ∃ err taken text, taken < 4 + body.length ∧ p.writeFrame codec cap message fault =
              (.error err,
                { p with
                  bytes := p.bytes ++ (frame 4 body).take taken
                  broken := some text })) := by
  cases encoded : codec.toVec message with
  | error text =>
    exact .inl ⟨by simp [carriesWhole, encoded], _, by simp [writeFrame, encoded]; rfl⟩
  | ok body =>
    by_cases huge : 2 ^ 32 ≤ body.length
    · have whole : p.carriesWhole codec cap message fault = false := by
        simp only [carriesWhole, encoded, decide_eq_false (Nat.not_lt_of_le huge), Bool.false_and]
      exact .inl ⟨whole, _, by simp only [writeFrame, encoded, if_pos huge]; rfl⟩
    · by_cases large : cap < body.length
      · have whole : p.carriesWhole codec cap message fault = false := by
          simp [carriesWhole, encoded, Nat.not_le_of_lt large]
        exact .inl ⟨whole, _, by simp only [writeFrame, encoded, if_neg huge, if_pos large]; rfl⟩
      · have fits : body.length ≤ cap := Nat.le_of_not_lt large
        have pushed : p.writeFrame codec cap message fault = p.push (frame 4 body) fault := by
          simp only [writeFrame, encoded, if_neg huge, if_neg large]
        rw [pushed]
        cases intact : p.broken with
        | some text =>
          exact .inl ⟨by simp [carriesWhole, encoded, intact], _, by simp [push, intact]; rfl⟩
        | none =>
          refine .inr ⟨body, rfl, fits, rfl, ?_⟩
          cases fault with
          | none =>
            refine .inl ⟨?_, .ok (), none, by simp [push, intact]⟩
            simp [carriesWhole, encoded, fits, intact]
            omega
          | some break' =>
            obtain ⟨taken, text⟩ := break'
            by_cases whole : 4 + body.length ≤ taken
            · have all : (frame 4 body).take taken = frame 4 body :=
                List.take_of_length_le (by rwa [length_frame])
              refine .inl ⟨?_, .error (.io text), some text, by simp [push, intact, all]⟩
              simp [carriesWhole, encoded, fits, intact, whole]
              omega
            · refine .inr ⟨by simp [carriesWhole, encoded, whole], .io text, taken, text,
                Nat.lt_of_not_ge whole, by simp [push, intact]⟩

end BytePipe

def unexpectedEof : ProtocolError := .io "failed to fill whole buffer"

def decodeFrame (codec : FrameCodec) (body : List UInt8) :
    Procedure Stream ProtocolError Message :=
  match codec.fromSlice body with
  | .error text => raise (.json text)
  | .ok (version, message) =>
    if version ≠ protocolVersion then raise (.versionMismatch protocolVersion version)
    else pure message

def readFrame (codec : FrameCodec) (cap : Nat) : Procedure Stream ProtocolError Message := do
  let lenBytes ← readExact unexpectedEof 4
  let len := ofBigEndian lenBytes
  if cap < len then raise (.frameTooLarge len cap)
  else do
    let bytes ← readExact unexpectedEof len
    decodeFrame codec bytes

section Reading

variable {codec : FrameCodec} {cap : Nat} {message : Message} {body rest : List UInt8}

theorem readFrame_length (fits : body.length ≤ cap) (small : cap < 2 ^ 32) (ended : Bool) :
    readFrame codec cap ⟨bigEndian 4 body.length ++ rest, ended⟩ =
      (readExact unexpectedEof body.length >>= decodeFrame codec) ⟨rest, ended⟩ := by
  have length : readExact unexpectedEof 4 ⟨bigEndian 4 body.length ++ rest, ended⟩ =
      .returned (bigEndian 4 body.length) ⟨rest, ended⟩ := by
    have exactly := readExact_append unexpectedEof (bigEndian 4 body.length) rest ended
    rwa [length_bigEndian] at exactly
  have same : ofBigEndian (bigEndian 4 body.length) = body.length :=
    ofBigEndian_bigEndian (Nat.lt_of_le_of_lt fits small)
  simp only [readFrame, bind_apply, length, Outcome.andThen_returned, same,
    Nat.not_lt_of_le fits, if_false]

theorem readFrame_whole (encoded : codec.toVec message = .ok body) (fits : body.length ≤ cap)
    (small : cap < 2 ^ 32) (ended : Bool) :
    readFrame codec cap ⟨frame 4 body ++ rest, ended⟩ = .returned message ⟨rest, ended⟩ := by
  rw [frame, List.append_assoc, readFrame_length fits small, bind_apply, readExact_append,
    Outcome.andThen_returned, decodeFrame, codec.fromSlice_toVec message body encoded]
  simp

theorem readFrame_torn {taken : Nat} (fits : body.length ≤ cap) (small : cap < 2 ^ 32)
    (torn : taken < 4 + body.length) :
    readFrame codec cap ⟨(frame 4 body).take taken, true⟩ = .raised unexpectedEof ⟨[], true⟩ ∧
      ∃ s, readFrame codec cap ⟨(frame 4 body).take taken, false⟩ = .waiting s := by
  obtain short | ⟨part, same, less⟩ := take_frame torn
  · refine ⟨?_, ⟨(frame 4 body).take taken, false⟩, ?_⟩
    · rw [readFrame, bind_apply, readExact_early _ short, Outcome.andThen_raised]
    · rw [readFrame, bind_apply, readExact_waiting _ short, Outcome.andThen_waiting]
  · rw [same]
    refine ⟨?_, ⟨part, false⟩, ?_⟩
    · rw [readFrame_length fits small, bind_apply, readExact_early _ less, Outcome.andThen_raised]
    · rw [readFrame_length fits small, bind_apply, readExact_waiting _ less,
        Outcome.andThen_waiting]

end Reading

/-- The bytes are those of the messages, each within the room of its place, and then, if the pipe
has broken, of a part of one more. -/
inductive Carries (codec : FrameCodec) (room : Nat → Nat) :
    Nat → List Message → List UInt8 → Bool → Prop where
  | clear (place : Nat) (broken : Bool) : Carries codec room place [] [] broken
  | torn (place : Nat) {message : Message} {body : List UInt8} {taken : Nat}
      (encoded : codec.toVec message = .ok body) (fits : body.length ≤ room place)
      (part : taken < 4 + body.length) :
      Carries codec room place [] ((frame 4 body).take taken) true
  | next {place : Nat} {message : Message} {rest : List Message} {body bytes : List UInt8}
      {broken : Bool} (encoded : codec.toVec message = .ok body) (fits : body.length ≤ room place)
      (after : Carries codec room (place + 1) rest bytes broken) :
      Carries codec room place (message :: rest) (frame 4 body ++ bytes) broken

namespace Carries

variable {codec : FrameCodec} {room : Nat → Nat} {place : Nat} {pending : List Message}
  {bytes body : List UInt8} {message : Message}

theorem append (carries : Carries codec room place pending bytes false)
    (encoded : codec.toVec message = .ok body) (fits : body.length ≤ room (place + pending.length))
    (broken : Bool) :
    Carries codec room place (pending ++ [message]) (bytes ++ frame 4 body) broken := by
  induction pending generalizing place bytes with
  | nil =>
    cases carries
    rw [← List.append_nil (frame 4 body)]
    exact .next encoded fits (.clear _ _)
  | cons first rest ih =>
    cases carries with
    | next encoded' fits' after =>
      rw [List.append_assoc]
      refine .next encoded' fits' (ih after ?_)
      rwa [List.length_cons, ← Nat.add_assoc, Nat.add_right_comm] at fits

theorem tear {taken : Nat} (carries : Carries codec room place pending bytes false)
    (encoded : codec.toVec message = .ok body) (fits : body.length ≤ room (place + pending.length))
    (part : taken < 4 + body.length) :
    Carries codec room place pending (bytes ++ (frame 4 body).take taken) true := by
  induction pending generalizing place bytes with
  | nil =>
    cases carries
    exact .torn place encoded fits part
  | cons first rest ih =>
    cases carries with
    | next encoded' fits' after =>
      rw [List.append_assoc]
      refine .next encoded' fits' (ih after ?_)
      rwa [List.length_cons, ← Nat.add_assoc, Nat.add_right_comm] at fits

theorem read_nothing {cap : Nat} {broken : Bool}
    (carries : Carries codec room place [] bytes broken)
    (opens : room place ≤ cap) (small : cap < 2 ^ 32) :
    readFrame codec cap ⟨bytes, true⟩ = .raised unexpectedEof ⟨[], true⟩ ∧
      ∃ s, readFrame codec cap ⟨bytes, false⟩ = .waiting s := by
  cases carries with
  | clear => exact ⟨rfl, ⟨[], false⟩, rfl⟩
  | torn _ _ fits part => exact readFrame_torn (Nat.le_trans fits opens) small part

theorem read_next {cap : Nat} {rest : List Message} {broken : Bool}
    (carries : Carries codec room place (message :: rest) bytes broken)
    (opens : room place ≤ cap) (small : cap < 2 ^ 32) (ended : Bool) :
    ∃ left, readFrame codec cap ⟨bytes, ended⟩ = .returned message ⟨left, ended⟩ ∧
      Carries codec room (place + 1) rest left broken := by
  cases carries with
  | next encoded fits after =>
    exact ⟨_, readFrame_whole encoded (Nat.le_trans fits opens) small ended, after⟩

end Carries

end LeanRs
