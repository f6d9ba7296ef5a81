import LeanRs.Abi.Types
import LeanRs.Toolchain.ManifestValidation

/-! Looking up an export that a capability manifest describes, and calling the handle. A lookup
compares three accounts of a symbol: what the caller asks for, what the manifest says and whether
the dylib lists the symbol as data. -/
namespace LeanRs

/-- `R` is a type that is returned directly or the marker `LeanIo<T>`. -/
inductive ReturnType where
  | pure (value : RustType)
  | leanIo (value : RustType)
  deriving DecidableEq

def ownershipForRepr (repr : LeanExportAbiRepr) : LeanExportOwnership :=
  if repr = .leanObject then .owned else .none

def exportAbiArgFor (arg : RustType) : LeanExportArgAbi :=
  ⟨arg.cRepr, ownershipForRepr arg.cRepr⟩

def exportAbiArgs (args : List RustType) : List LeanExportArgAbi := args.map exportAbiArgFor

namespace ReturnType

def expectsIoResult : ReturnType → Bool
  | pure _ => false
  | leanIo _ => true

def cRepr : ReturnType → LeanExportAbiRepr
  | pure value => value.cRepr
  | leanIo _ => .leanObject

def exportAbiReturn : ReturnType → LeanExportReturnAbi
  | pure value => ⟨value.cRepr, ownershipForRepr value.cRepr, .pure⟩
  | leanIo _ => ⟨.leanObject, .owned, .ioResult⟩

@[simp] theorem exportAbiReturn_repr (result : ReturnType) :
    result.exportAbiReturn.repr = result.cRepr := by
  cases result <;> rfl

@[simp] theorem exportAbiReturn_io (result : ReturnType) :
    result.exportAbiReturn.convention = .ioResult ↔ result.expectsIoResult = true := by
  cases result <;> simp [exportAbiReturn, expectsIoResult]

end ReturnType

theorem exportAbiArgs_repr (args : List RustType) :
    (exportAbiArgs args).map LeanExportArgAbi.repr = args.map RustType.cRepr := by
  simp [exportAbiArgs, exportAbiArgFor, Function.comp_def]

/-- What a symbol of a loaded dylib is. A slot holds a `lean_object` pointer or the scalar that
its representation names. -/
inductive DylibSymbol where
  | function (args : List LeanExportAbiRepr) (result : LeanExportAbiRepr)
      (convention : LeanExportResultConvention)
  | slot (repr : LeanExportAbiRepr)
  deriving DecidableEq

def DylibSymbol.isData : DylibSymbol → Bool
  | function _ _ _ => false
  | slot _ => true

/-- An opened dylib. `listed` are the names in the symbol table of the file: a stripped file lists
fewer names than the dynamic loader resolves. -/
structure LeanLibrary where
  path : PathBuf
  symbol : String → Option DylibSymbol
  listed : String → Bool

namespace LeanLibrary

def inGlobals (library : LeanLibrary) (name : String) : Bool :=
  library.listed name && (library.symbol name).any DylibSymbol.isData

/-- `resolve_function_symbol` and `resolve_global_symbol` fail alike, with the loader's text. -/
def resolveSymbol (library : LeanLibrary) (loaderError kind name : String) :
    Except HostFailure String :=
  match library.symbol name with
  | some _ => .ok name
  | none => .error (.symbolLookup ("unknown " ++ kind ++ " symbol '" ++ name ++ "' in '" ++
      library.path.pathString ++ "': " ++ loaderError))

end LeanLibrary

def LeanExportSignature.describes (signature : LeanExportSignature) : DylibSymbol :=
  match signature.kind with
  | .function => .function (signature.args.map LeanExportArgAbi.repr) signature.result.repr
      signature.result.convention
  | .global => .slot signature.result.repr

def LeanLibrary.DescribedBy (library : LeanLibrary) (exports : List LeanExportSignature) : Prop :=
  ∀ signature ∈ exports, library.symbol signature.symbol = some signature.describes

inductive CallableTarget where
  | function (symbol : String)
  | global (symbol : String)
  deriving DecidableEq

structure LeanExported where
  target : CallableTarget
  args : List RustType
  result : ReturnType
  deriving DecidableEq

inductive Access where
  /-- The address is called as a C function; the result is unwrapped when `io`. -/
  | invoke (symbol : String) (args : List LeanExportAbiRepr) (result : LeanExportAbiRepr)
      (io : Bool)
  /-- The word at the address is taken for a `lean_object` pointer, its count is raised and the
  pointer is reinterpreted. -/
  | readPointer (symbol : String) (reinterpreted : LeanExportAbiRepr)
  deriving DecidableEq

def LeanExported.call (handle : LeanExported) : Access :=
  match handle.target with
  | .function symbol => .invoke symbol (handle.args.map RustType.cRepr) handle.result.cRepr
      handle.result.expectsIoResult
  | .global symbol => .readPointer symbol handle.result.cRepr

def Access.Sound (library : LeanLibrary) : Access → Prop
  | .invoke symbol args result io => ∃ convention,
      library.symbol symbol = some (.function args result convention) ∧
        (io = true ↔ convention = .ioResult)
  | .readPointer symbol reinterpreted =>
      library.symbol symbol = some (.slot .leanObject) ∧ reinterpreted = .leanObject

def exportedUnchecked (library : LeanLibrary) (loaderError name : String) (args : List RustType)
    (result : ReturnType) : Except HostFailure LeanExported :=
  if library.inGlobals name then
    if 0 < args.length then
      .error (.symbolLookup ("exported symbol '" ++ name ++ "' in '" ++ library.path.pathString ++
        "' is a Lean nullary-constant global, not a function; look it up with " ++
        "`exported_unchecked::<(), R>(name)` instead (lookup arity is " ++
        toString args.length ++ ")"))
    else if result.expectsIoResult then
      .error (.symbolLookup ("exported symbol '" ++ name ++ "' in '" ++ library.path.pathString ++
        "' is a Lean nullary-constant global; `LeanIo<_>` does not apply " ++
        "(Lean does not compile globals as IO-returning)"))
    else
      (library.resolveSymbol loaderError "global" name).map fun symbol =>
        ⟨.global symbol, args, result⟩
  else
    (library.resolveSymbol loaderError "exported" name).map fun symbol =>
      ⟨.function symbol, args, result⟩

inductive LeanCheckedExportError where
  | missingSignatureMetadata (symbol : String)
  | signatureMismatch (symbol : String) (expected manifest : LeanExportSignature)
  | symbolKindMismatch (symbol : String) (manifest actual : LeanExportSymbolKind)
  | missingSymbol (symbol : String) (source : HostFailure)
  | module (source : HostFailure)
  deriving DecidableEq

/-- An opened capability. `initialized` answers each later call of the module initializer. -/
structure LeanCapability where
  library : LeanLibrary
  exportSignatures : List LeanExportSignature
  initialized : Except HostFailure Unit

namespace LeanCapability

/-- The signatures are collected into a map, so the last of one name stands. -/
def signatureFor (capability : LeanCapability) (name : String) : Option LeanExportSignature :=
  capability.exportSignatures.reverse.find? fun signature => signature.symbol == name

/-- A global that is asked for with arguments or as `IO` is expected to be a function, which no
global matches. -/
def expectedSignature (kind : LeanExportSymbolKind) (name : String) (args : List RustType)
    (result : ReturnType) : LeanExportSignature :=
  match kind with
  | .function => .function name (exportAbiArgs args) result.exportAbiReturn
  | .global =>
    if args.length = 0 ∧ result.expectsIoResult = false then .global name result.exportAbiReturn
    else .function name (exportAbiArgs args) result.exportAbiReturn

def actualKind (library : LeanLibrary) (name : String) : LeanExportSymbolKind :=
  if library.inGlobals name then .global else .function

def exported (capability : LeanCapability) (loaderError name : String) (args : List RustType)
    (result : ReturnType) : Except LeanCheckedExportError LeanExported :=
  match capability.signatureFor name with
  | none => .error (.missingSignatureMetadata name)
  | some manifest =>
    let expected := expectedSignature manifest.kind name args result
    if expected ≠ manifest then .error (.signatureMismatch name expected manifest)
    else if manifest.kind ≠ actualKind capability.library name then
      .error (.symbolKindMismatch name manifest.kind (actualKind capability.library name))
    else
      match capability.initialized with
      | .error source => .error (.module source)
      | .ok _ => (exportedUnchecked capability.library loaderError name args result).mapError
          (.missingSymbol name)

end LeanCapability

end LeanRs
