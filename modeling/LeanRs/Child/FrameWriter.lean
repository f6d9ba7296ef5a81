import LeanRs.General.Fallible
import LeanRs.Worker.Protocol
import Mathlib.Algebra.Order.Ring.Int

/-! Frames that the child writes down its output pipe. -/
namespace LeanRs

open Fallible

inductive ProtocolError where
  | io (err : String)
  | json (err : String)
  | frameTooLarge (len max : Nat)
  | versionMismatch (expected actual : Nat)
  deriving DecidableEq

def ProtocolError.display : ProtocolError → String
  | io err => "worker protocol I/O failed: " ++ err
  | json err => "worker protocol JSON decode failed: " ++ err
  | frameTooLarge len max =>
    "worker protocol frame too large: " ++ toString len ++ " bytes exceeds " ++ toString max
  | versionMismatch expected actual =>
    "worker protocol version mismatch: expected " ++ toString expected ++ ", received " ++
      toString actual

structure FrameAnswers where
  /-- The length of the serialised frame, or the text of the error. -/
  body : Except String Nat
  writeLength : Except String Unit
  writeBody : Except String Unit
  flush : Except String Unit

/-- `write_frame` up to its flush: the whole frame goes down the pipe, or an error says why not. -/
def handOver (maxFrameBytes : Nat) (a : FrameAnswers) : Except ProtocolError Unit := do
  let length ← a.body.mapError ProtocolError.json
  if 2 ^ 32 ≤ length then throw (.frameTooLarge (2 ^ 32 - 1) maxFrameBytes)
  if maxFrameBytes < length then throw (.frameTooLarge length maxFrameBytes)
  a.writeLength.mapError ProtocolError.io
  a.writeBody.mapError ProtocolError.io

def writeFrame (maxFrameBytes : Nat) (a : FrameAnswers) : Except ProtocolError Unit := do
  handOver maxFrameBytes a
  a.flush.mapError ProtocolError.io

theorem handOver_of_writeFrame {maxFrameBytes : Nat} {a : FrameAnswers}
    (written : writeFrame maxFrameBytes a = .ok ()) : handOver maxFrameBytes a = .ok () := by
  obtain ⟨_, handed, -⟩ := bind_ok.mp written
  exact handed

/-- How one call of `ProtocolWriter::write` fares behind the lock. A write that panics may have
handed the whole frame over before. -/
inductive FrameWriteAnswer where
  | returns (a : FrameAnswers)
  | panics (message : String) (reached : Bool)

/-- `ProtocolWriter`, with the frames that have reached the pipe since the request began. -/
structure ProtocolWriter where
  maxFrameBytes : Nat
  poisoned : Bool
  written : List Message

namespace ProtocolWriter

inductive Outcome where
  | returned (result : Except ProtocolError Unit)
  | panicked (message : String)

def push (w : ProtocolWriter) (reached : Bool) (message : Message) : ProtocolWriter :=
  if reached then { w with written := w.written ++ [message] } else w

def write (w : ProtocolWriter) (message : Message) (a : FrameWriteAnswer) :
    Outcome × ProtocolWriter :=
  if w.poisoned then (.returned (.error (.io "worker stdout mutex was poisoned")), w)
  else
    match a with
    | .returns a =>
      (.returned (writeFrame w.maxFrameBytes a),
        w.push (handOver w.maxFrameBytes a).isOk message)
    | .panics text reached => (.panicked text, { w.push reached message with poisoned := true })

theorem write_ok {w w' : ProtocolWriter} {message : Message} {a : FrameWriteAnswer}
    (wrote : w.write message a = (.returned (.ok ()), w')) :
    w'.written = w.written ++ [message] := by
  unfold write at wrote
  split at wrote
  · cases wrote
  · cases a with
    | panics => cases wrote
    | returns a =>
      obtain ⟨result, rfl⟩ := Prod.mk.inj wrote
      rw [handOver_of_writeFrame (Outcome.returned.inj result)]
      rfl

theorem write_written (w : ProtocolWriter) (message : Message) (a : FrameWriteAnswer) :
    (w.write message a).2.written = w.written ∨
      (w.write message a).2.written = w.written ++ [message] := by
  have pushed : ∀ reached, (w.push reached message).written = w.written ∨
      (w.push reached message).written = w.written ++ [message] := by
    intro reached
    cases reached with
    | false => exact Or.inl rfl
    | true => exact Or.inr rfl
  unfold write
  split
  · exact Or.inl rfl
  · cases a with
    | returns a => exact pushed _
    | panics text reached => exact pushed reached

end ProtocolWriter

end LeanRs
