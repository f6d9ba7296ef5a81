import LeanRs.Abi.RoundTrip
import LeanRs.Toolchain.Paths

/-! `decode_io`: what becomes of the result of an `IO` action, and how Lean lays such a result and
the errors in it out on the heap. -/
namespace LeanRs

open Procedures RefCounting Procedure

inductive LeanExceptionKind where
  | alreadyExists
  | otherError
  | resourceBusy
  | resourceVanished
  | unsupportedOperation
  | hardwareFault
  | unsatisfiedConstraints
  | illegalOperation
  | protocolError
  | timeExpired
  | interrupted
  | noFileOrDirectory
  | invalidArgument
  | permissionDenied
  | resourceExhausted
  | inappropriateType
  | noSuchThing
  | unexpectedEof
  | userError
  | other
  deriving DecidableEq

theorem utf8ByteSize_prefixWithin (room : Nat) (cs : List Char) :
    (String.ofList (prefixWithin room cs)).utf8ByteSize ≤ room := by
  induction cs generalizing room with
  | nil => exact Nat.zero_le room
  | cons c rest ih =>
    rw [prefixWithin]
    split
    · have fits := ih (room - c.utf8Size)
      rw [String.ofList_cons, String.utf8ByteSize_append, String.utf8ByteSize_singleton]
      omega
    · exact Nat.zero_le room

theorem utf8ByteSize_boundMessage (text : String) :
    (boundMessage text).utf8ByteSize ≤ leanErrorMessageLimit := by
  unfold boundMessage
  split
  · assumption
  · exact utf8ByteSize_prefixWithin _ _

structure LeanException where
  kind : LeanExceptionKind
  message : String
  bounded : message.utf8ByteSize ≤ leanErrorMessageLimit
  deriving DecidableEq

def leanException (kind : LeanExceptionKind) (message : String) : LeanException :=
  ⟨kind, boundMessage message, utf8ByteSize_boundMessage message⟩

def leanPtrTag : Ref → HeapProc Nat
  | .scalar _ => raise .dangling
  | .addr a => do
    let view ← lookAt (.addr a)
    pure view.objTag

def leanIoResultIsOk (r : Ref) : HeapProc Bool := do
  let tag ← leanPtrTag r
  pure (tag == 0)

def ctorGet0 (r : Ref) : HeapProc Ref := do
  match ← lookAt r with
  | .ctor _ (payload :: _) _ => pure payload
  | _ => raise .dangling

def leanIoResultTakeValue (cold : Nat → LeanHeap → Option LeanHeap) (r : Ref) : HeapProc Ref := do
  let v ← ctorGet0 r
  leanInc v
  leanDec cold r
  pure v

def kindTable : List LeanExceptionKind :=
  [.alreadyExists, .otherError, .resourceBusy, .resourceVanished, .unsupportedOperation,
    .hardwareFault, .unsatisfiedConstraints, .illegalOperation, .protocolError, .timeExpired,
    .interrupted, .noFileOrDirectory, .invalidArgument, .permissionDenied, .resourceExhausted,
    .inappropriateType, .noSuchThing, .unexpectedEof, .userError]

def fromUtf8Lossy (bytes : ByteArray) : String := String.ofList (PathBuf.lossyChars bytes.toList)

/-- The count of slots is in the header of a constructor only. -/
def readLastStringField (ctor : Ref) : HeapProc (Option String) := do
  match ← lookAt ctor with
  | .ctor _ fields _ =>
    match fields.getLast? with
    | none => pure none
    | some last => do
      match ← lookAt last with
      | .string bytes => pure (some (fromUtf8Lossy bytes))
      | _ => pure none
  | _ => raise .dangling

def classifyIoError (err : Ref) : HeapProc (LeanExceptionKind × String) :=
  match err with
  | .scalar _ => pure (.other, "<Lean IO error: scalar-encoded constructor>")
  | .addr a => do
    let ctor ← leanPtrTag (.addr a)
    let kind := kindTable[ctor]?.getD .other
    let message ← readLastStringField (.addr a)
    pure (kind, message.getD ("<Lean IO error: constructor tag " ++ toString ctor ++ ">"))

/-- `decode_io`. The error is read while the result is still held. -/
def decodeIo (rt : Runtime) (result : Ref) : HeapProc (Except LeanException Ref) := do
  if ← leanIoResultIsOk result then
    let value ← leanIoResultTakeValue rt.decRefCold result
    pure (.ok value)
  else
    let err ← ctorGet0 result
    let (kind, message) ← classifyIoError err
    leanDec rt.decRefCold result
    pure (.error (leanException kind message))

inductive IoError where
  | alreadyExists (filename : Option String) (osCode : UInt32) (details : String)
  | otherError (osCode : UInt32) (details : String)
  | resourceBusy (osCode : UInt32) (details : String)
  | resourceVanished (osCode : UInt32) (details : String)
  | unsupportedOperation (osCode : UInt32) (details : String)
  | hardwareFault (osCode : UInt32) (details : String)
  | unsatisfiedConstraints (osCode : UInt32) (details : String)
  | illegalOperation (osCode : UInt32) (details : String)
  | protocolError (osCode : UInt32) (details : String)
  | timeExpired (osCode : UInt32) (details : String)
  | interrupted (filename : String) (osCode : UInt32) (details : String)
  | noFileOrDirectory (filename : String) (osCode : UInt32) (details : String)
  | invalidArgument (filename : Option String) (osCode : UInt32) (details : String)
  | permissionDenied (filename : Option String) (osCode : UInt32) (details : String)
  | resourceExhausted (filename : Option String) (osCode : UInt32) (details : String)
  | inappropriateType (filename : Option String) (osCode : UInt32) (details : String)
  | noSuchThing (filename : Option String) (osCode : UInt32) (details : String)
  | unexpectedEof
  | userError (msg : String)
  deriving DecidableEq

inductive IoField where
  | text (s : String)
  | optionalText (s : Option String)

structure IoLayout where
  index : Nat
  objects : List IoField
  scalars : List UInt8

namespace IoError

def codeBytes (osCode : UInt32) : List UInt8 := LittleEndian.toBytes 4 osCode.toNat

def bare (index : Nat) (osCode : UInt32) (details : String) : IoLayout :=
  ⟨index, [.text details], codeBytes osCode⟩

def named (index : Nat) (filename : String) (osCode : UInt32) (details : String) : IoLayout :=
  ⟨index, [.text filename, .text details], codeBytes osCode⟩

def maybeNamed (index : Nat) (filename : Option String) (osCode : UInt32) (details : String) :
    IoLayout :=
  ⟨index, [.optionalText filename, .text details], codeBytes osCode⟩

def layout : IoError → IoLayout
  | alreadyExists filename osCode details => maybeNamed 0 filename osCode details
  | otherError osCode details => bare 1 osCode details
  | resourceBusy osCode details => bare 2 osCode details
  | resourceVanished osCode details => bare 3 osCode details
  | unsupportedOperation osCode details => bare 4 osCode details
  | hardwareFault osCode details => bare 5 osCode details
  | unsatisfiedConstraints osCode details => bare 6 osCode details
  | illegalOperation osCode details => bare 7 osCode details
  | protocolError osCode details => bare 8 osCode details
  | timeExpired osCode details => bare 9 osCode details
  | interrupted filename osCode details => named 10 filename osCode details
  | noFileOrDirectory filename osCode details => named 11 filename osCode details
  | invalidArgument filename osCode details => maybeNamed 12 filename osCode details
  | permissionDenied filename osCode details => maybeNamed 13 filename osCode details
  | resourceExhausted filename osCode details => maybeNamed 14 filename osCode details
  | inappropriateType filename osCode details => maybeNamed 15 filename osCode details
  | noSuchThing filename osCode details => maybeNamed 16 filename osCode details
  | unexpectedEof => ⟨17, [], []⟩
  | userError msg => ⟨18, [.text msg], []⟩

/-- The kind that the documentation of `LeanExceptionKind` gives each constructor. -/
def kind : IoError → LeanExceptionKind
  | alreadyExists .. => .alreadyExists
  | otherError .. => .otherError
  | resourceBusy .. => .resourceBusy
  | resourceVanished .. => .resourceVanished
  | unsupportedOperation .. => .unsupportedOperation
  | hardwareFault .. => .hardwareFault
  | unsatisfiedConstraints .. => .unsatisfiedConstraints
  | illegalOperation .. => .illegalOperation
  | protocolError .. => .protocolError
  | timeExpired .. => .timeExpired
  | interrupted .. => .interrupted
  | noFileOrDirectory .. => .noFileOrDirectory
  | invalidArgument .. => .invalidArgument
  | permissionDenied .. => .permissionDenied
  | resourceExhausted .. => .resourceExhausted
  | inappropriateType .. => .inappropriateType
  | noSuchThing .. => .noSuchThing
  | unexpectedEof => .unexpectedEof
  | userError .. => .userError

def details? : IoError → Option String
  | alreadyExists _ _ details | otherError _ details | resourceBusy _ details
  | resourceVanished _ details | unsupportedOperation _ details | hardwareFault _ details
  | unsatisfiedConstraints _ details | illegalOperation _ details | protocolError _ details
  | timeExpired _ details | interrupted _ _ details | noFileOrDirectory _ _ details
  | invalidArgument _ _ details | permissionDenied _ _ details | resourceExhausted _ _ details
  | inappropriateType _ _ details | noSuchThing _ _ details => some details
  | unexpectedEof => none
  | userError msg => some msg

end IoError

inductive IoResult where
  | ok (value : Ref)
  | error (failure : IoError)
  deriving DecidableEq

section Encoded

variable (h : LeanHeap)

def TextEncoded (h : LeanHeap) (r : Ref) (s : String) : Prop :=
  h.view r = some (.string s.toByteArray)

def IoField.Encoded (r : Ref) : IoField → Prop
  | text s => TextEncoded h r s
  | optionalText s => OptionEncoded TextEncoded h r s

/-- A constructor without fields is a scalar, and one with fields is an object. -/
def IoLayout.Encoded (r : Ref) (layout : IoLayout) : Prop :=
  if layout.objects = [] ∧ layout.scalars = [] then h.view r = some (.scalar layout.index)
  else ∃ slots, h.view r = some (.ctor layout.index slots layout.scalars) ∧
    List.Forall₂ (IoField.Encoded h) slots layout.objects

/-- What follows the payload, the state of the world or nothing, is left open. -/
def IoResult.Encoded (a : Nat) : IoResult → Prop
  | ok value => ∃ rest, h.view (.addr a) = some (.ctor 0 (value :: rest) [])
  | error failure => ∃ payload rest, h.view (.addr a) = some (.ctor 1 (payload :: rest) []) ∧
      failure.layout.Encoded h payload

end Encoded

end LeanRs
