import LeanRs.Toolchain.Loader

/-! The Rust types that cross into Lean, the C type each has in an exported signature, and the
failures that the runtime crate reports. -/
namespace LeanRs

inductive HostStage where
  | runtimeInit
  | conversion
  | callbackPanic
  | link
  | load
  | internal
  | resource
  deriving DecidableEq

/-- The codes that go with loading, looking up and converting. -/
inductive LeanDiagnosticCode where
  | linking
  | moduleInit
  | symbolLookup
  | abiConversion
  deriving DecidableEq

structure HostFailure where
  stage : HostStage
  code : LeanDiagnosticCode
  message : String
  deriving DecidableEq

def leanErrorMessageLimit : Nat := 4096

def boundMessage (text : String) : String :=
  if text.utf8ByteSize ≤ leanErrorMessageLimit then text
  else String.ofList (prefixWithin leanErrorMessageLimit text.toList)

namespace HostFailure

def linking (message : String) : HostFailure := ⟨.link, .linking, boundMessage message⟩

def moduleInit (message : String) : HostFailure := ⟨.load, .moduleInit, boundMessage message⟩

def symbolLookup (message : String) : HostFailure := ⟨.link, .symbolLookup, boundMessage message⟩

def abiConversion (message : String) : HostFailure :=
  ⟨.conversion, .abiConversion, boundMessage message⟩

end HostFailure

inductive BaseType where
  | unit
  | bool
  | u8
  | u16
  | u32
  | i8
  | i16
  | i32
  | u64
  | usize
  | i64
  | isize
  | char
  | f64
  | string
  deriving DecidableEq

/-- `obj` is a handle that is passed on unread: `Obj`, and what only wraps one. -/
inductive RustType where
  | base (type : BaseType)
  | option (inner : RustType)
  | result (ok err : RustType)
  | vec (element : RustType)
  | pair (first second : RustType)
  | triple (first second third : RustType)
  | obj
  deriving DecidableEq

def BaseType.cRepr : BaseType → LeanExportAbiRepr
  | .bool | .u8 => .u8
  | .u16 => .u16
  | .u32 | .char => .u32
  | .i8 => .i8
  | .i16 => .i16
  | .i32 => .i32
  | .u64 => .u64
  | .usize => .usize
  | .i64 => .i64
  | .isize => .isize
  | .f64 => .f64
  | .unit | .string => .leanObject

def RustType.cRepr : RustType → LeanExportAbiRepr
  | .base type => type.cRepr
  | .option _ | .result _ _ | .vec _ | .pair _ _ | .triple _ _ _ | .obj => .leanObject

end LeanRs
