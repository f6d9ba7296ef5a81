import LeanRs.Abi.Object

/-! `into_lean` and `try_from_lean` on whole objects. Each generic decoder is one function of the
decoders of its parts. -/
namespace LeanRs

namespace LeanObj

/-- `lean_box_uint64`, `lean_box_usize` and `lean_box_float` alike. -/
def boxed (n : UInt64) : LeanObj := .ctor 0 [] (LittleEndian.toBytes 8 n.toNat)

def ofOption : Option LeanObj → LeanObj
  | none => .scalar 0
  | some inner => .ctor 1 [inner] []

def ofExcept : Except LeanObj LeanObj → LeanObj
  | .error inner => .ctor 0 [inner] []
  | .ok inner => .ctor 1 [inner] []

def ofPair (first second : LeanObj) : LeanObj := .ctor 0 [first, second] []

end LeanObj

def BaseType.intoLeanObj : (type : BaseType) → type.Value → LeanObj
  | unit, _ => .scalar 0
  | bool, b => .scalar b.toNat
  | u8, n => .scalar n.toNat
  | u16, n => .scalar n.toNat
  | u32, n => .scalar n.toNat
  | i8, n => .scalar n.toUInt8.toNat
  | i16, n => .scalar n.toUInt16.toNat
  | i32, n => .scalar n.toUInt32.toNat
  | u64, n => .boxed n
  | usize, n => .boxed n
  | i64, n => .boxed n.toUInt64
  | isize, n => .boxed n.toUInt64
  | char, ch => .scalar ch.toNat
  | f64, bits => .boxed bits
  | string, text => .string text.toByteArray

def RustType.intoLeanObj : (type : RustType) → type.Value LeanObj → LeanObj
  | base type, v => type.intoLeanObj v
  | option inner, v => .ofOption (v.map inner.intoLeanObj)
  | result ok err, v => .ofExcept ((v.map ok.intoLeanObj).mapError err.intoLeanObj)
  | vec element, v => .array (v.map element.intoLeanObj)
  | pair first second, v => .ofPair (first.intoLeanObj v.1) (second.intoLeanObj v.2)
  | triple first second third, v =>
    .ofPair (first.intoLeanObj v.1) (.ofPair (second.intoLeanObj v.2.1) (third.intoLeanObj v.2.2))
  | obj, v => v

abbrev Decoder (V : Type) := LeanObj → Except DecodeError V

section Decoders

variable {V W : Type} (f : Decoder V) (g : Decoder W)

def decodeOption : Decoder (Option V) := fun o =>
  match optionSlot o.view with
  | .error failure => .error (.conversion failure)
  | .ok none => .ok none
  | .ok (some slot) => (f slot).map some

def decodeResult : Decoder (Except W V) := fun o =>
  match exceptSlot o.view with
  | .error failure => .error (.conversion failure)
  | .ok (.error slot) => (g slot).map .error
  | .ok (.ok slot) => (f slot).map .ok

def decodeEach : List LeanObj → Except DecodeError (List V)
  | [] => .ok []
  | slot :: rest =>
    match f slot with
    | .error e => .error e
    | .ok v => (decodeEach rest).map (v :: ·)

def decodeVec : Decoder (List V) := fun o =>
  match arraySlots o.view with
  | .error failure => .error (.conversion failure)
  | .ok slots => decodeEach f slots

def decodePair : Decoder (V × W) := fun o =>
  match pairSlots o.view with
  | .error failure => .error (.conversion failure)
  | .ok (first, second) =>
    match f first with
    | .error e => .error e
    | .ok v => (g second).map (v, ·)

end Decoders

def RustType.tryFromLean (bits : LeanObj → UInt64) : (type : RustType) →
    Decoder (type.Value LeanObj)
  | base type => fun o => type.read bits o.view
  | option inner => decodeOption (inner.tryFromLean bits)
  | result ok err => decodeResult (ok.tryFromLean bits) (err.tryFromLean bits)
  | vec element => decodeVec (element.tryFromLean bits)
  | pair first second => decodePair (first.tryFromLean bits) (second.tryFromLean bits)
  | triple first second third => decodePair (first.tryFromLean bits)
      (decodePair (second.tryFromLean bits) (third.tryFromLean bits))
  | obj => fun o => .ok o

end LeanRs
