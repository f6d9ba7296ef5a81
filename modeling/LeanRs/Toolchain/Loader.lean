import LeanRs.General.Json
import LeanRs.Worker.Protocol

/-! The facts that the build step records about a capability and the loader relies on: export
signatures, dependency dylibs, and the findings of a loader check. -/
namespace LeanRs

open Json

/-- The identity of the toolchain that something was built with. -/
structure ToolchainFingerprint where
  leanVersion : String
  resolvedVersion : String
  headerSha256 : String
  fixtureSha256 : String
  hostTriple : String
  deriving DecidableEq

inductive LeanExportSymbolKind where
  | function
  | «global»
  deriving DecidableEq

inductive LeanExportAbiRepr where
  | leanObject
  | u8
  | u16
  | u32
  | u64
  | usize
  | i8
  | i16
  | i32
  | i64
  | isize
  | f64
  deriving DecidableEq

inductive LeanExportOwnership where
  | none
  | owned
  deriving DecidableEq

inductive LeanExportResultConvention where
  | pure
  | ioResult
  deriving DecidableEq

namespace LeanExportSymbolKind

def asStr : LeanExportSymbolKind → String
  | function => "function"
  | «global» => "global"

def fromStr (value : String) : Option LeanExportSymbolKind :=
  if value = "function" then some function
  else if value = "global" then some «global»
  else Option.none

@[simp] theorem fromStr_asStr (kind : LeanExportSymbolKind) : fromStr kind.asStr = some kind := by
  cases kind <;> decide

theorem asStr_ne (kind : LeanExportSymbolKind) : kind.asStr ≠ "" := by
  cases kind <;> decide

end LeanExportSymbolKind

namespace LeanExportAbiRepr

def asStr : LeanExportAbiRepr → String
  | leanObject => "lean_object"
  | u8 => "u8"
  | u16 => "u16"
  | u32 => "u32"
  | u64 => "u64"
  | usize => "usize"
  | i8 => "i8"
  | i16 => "i16"
  | i32 => "i32"
  | i64 => "i64"
  | isize => "isize"
  | f64 => "f64"

def fromStr (value : String) : Option LeanExportAbiRepr :=
  if value = "lean_object" then some leanObject
  else if value = "u8" then some u8
  else if value = "u16" then some u16
  else if value = "u32" then some u32
  else if value = "u64" then some u64
  else if value = "usize" then some usize
  else if value = "i8" then some i8
  else if value = "i16" then some i16
  else if value = "i32" then some i32
  else if value = "i64" then some i64
  else if value = "isize" then some isize
  else if value = "f64" then some f64
  else Option.none

@[simp] theorem fromStr_asStr (repr : LeanExportAbiRepr) : fromStr repr.asStr = some repr := by
  cases repr <;> decide

theorem asStr_ne (repr : LeanExportAbiRepr) : repr.asStr ≠ "" := by
  cases repr <;> decide

end LeanExportAbiRepr

namespace LeanExportOwnership

def asStr : LeanExportOwnership → String
  | none => "none"
  | owned => "owned"

def fromStr (value : String) : Option LeanExportOwnership :=
  if value = "none" then some none
  else if value = "owned" then some owned
  else Option.none

@[simp] theorem fromStr_asStr (ownership : LeanExportOwnership) :
    fromStr ownership.asStr = some ownership := by
  cases ownership <;> decide

theorem asStr_ne (ownership : LeanExportOwnership) : ownership.asStr ≠ "" := by
  cases ownership <;> decide

end LeanExportOwnership

namespace LeanExportResultConvention

def asStr : LeanExportResultConvention → String
  | pure => "pure"
  | ioResult => "io_result"

def fromStr (value : String) : Option LeanExportResultConvention :=
  if value = "pure" then some pure
  else if value = "io_result" then some ioResult
  else Option.none

@[simp] theorem fromStr_asStr (convention : LeanExportResultConvention) :
    fromStr convention.asStr = some convention := by
  cases convention <;> decide

theorem asStr_ne (convention : LeanExportResultConvention) : convention.asStr ≠ "" := by
  cases convention <;> decide

end LeanExportResultConvention

structure LeanExportArgAbi where
  repr : LeanExportAbiRepr
  ownership : LeanExportOwnership
  deriving DecidableEq

def LeanExportArgAbi.toJson (arg : LeanExportArgAbi) : Value :=
  .object [("repr", .string arg.repr.asStr), ("ownership", .string arg.ownership.asStr)]

structure LeanExportReturnAbi where
  repr : LeanExportAbiRepr
  ownership : LeanExportOwnership
  convention : LeanExportResultConvention
  deriving DecidableEq

def LeanExportReturnAbi.toJson (result : LeanExportReturnAbi) : Value :=
  .object [("repr", .string result.repr.asStr), ("ownership", .string result.ownership.asStr),
    ("convention", .string result.convention.asStr)]

/-- Only `function` and `global` build one, so a global has no arguments. -/
structure LeanExportSignature where
  symbol : String
  kind : LeanExportSymbolKind
  args : List LeanExportArgAbi
  result : LeanExportReturnAbi
  globalArgs : kind = .global → args = []
  deriving DecidableEq

namespace LeanExportSignature

def function (symbol : String) (args : List LeanExportArgAbi) (result : LeanExportReturnAbi) :
    LeanExportSignature where
  symbol := symbol
  kind := .function
  args := args
  result := result
  globalArgs := fun h => nomatch h

def «global» (symbol : String) (result : LeanExportReturnAbi) : LeanExportSignature where
  symbol := symbol
  kind := .global
  args := []
  result := result
  globalArgs _ := rfl

def toJson (signature : LeanExportSignature) : Value :=
  .object [("symbol", .string signature.symbol), ("kind", .string signature.kind.asStr),
    ("args", .array (signature.args.map LeanExportArgAbi.toJson)),
    ("return", signature.result.toJson)]

end LeanExportSignature

inductive LeanLoaderDiagnosticCode where
  | missingManifest
  | malformedManifest
  | unsupportedManifestSchema
  | missingPrimaryDylib
  | missingTransitiveDependency
  | unsupportedArchitecture
  | unsupportedToolchainFingerprint
  | staleManifest
  | missingInitializer
  | missingImportedSymbol
  deriving DecidableEq

inductive LeanLoaderSeverity where
  | info
  | warning
  | error
  deriving DecidableEq

def loaderDiagnosticTextLimit : Nat := 4 * 1024

/-- The longest prefix of whole characters that fits in a number of bytes. -/
def prefixWithin : Nat → List Char → List Char
  | _, [] => []
  | room, c :: rest =>
    if c.utf8Size ≤ room then c :: prefixWithin (room - c.utf8Size) rest else []

def boundLoaderText (text : String) : String :=
  if text.utf8ByteSize ≤ loaderDiagnosticTextLimit then text
  else String.ofList (prefixWithin loaderDiagnosticTextLimit text.toList)

structure LeanLoaderCheck where
  code : LeanLoaderDiagnosticCode
  severity : LeanLoaderSeverity
  subject : String
  message : String
  repairHint : String
  deriving DecidableEq

def LeanLoaderCheck.blocking (code : LeanLoaderDiagnosticCode)
    (subject message repairHint : String) : LeanLoaderCheck where
  code := code
  severity := .error
  subject := boundLoaderText subject
  message := boundLoaderText message
  repairHint := boundLoaderText repairHint

structure LeanLoaderReport where
  manifestPath : Option PathBuf
  checks : List LeanLoaderCheck
  deriving DecidableEq

namespace LeanLoaderReport

def errors (report : LeanLoaderReport) : List LeanLoaderCheck :=
  report.checks.filter fun check => check.severity == .error

def isOk (report : LeanLoaderReport) : Bool := report.errors.isEmpty

end LeanLoaderReport

structure LeanModuleInitializer where
  package : String
  module : String
  deriving DecidableEq

structure LeanLibraryDependency where
  path : PathBuf
  exportsSymbolsForDependents : Bool := false
  initializer : Option LeanModuleInitializer := none
  deriving DecidableEq

end LeanRs
