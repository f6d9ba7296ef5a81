import LeanRs.Toolchain.Loader

/-! How a capability manifest is read back: every field that is checked, in the order in which the
first failure is reported. -/
namespace LeanRs

open Json

structure CapabilityManifest where
  primaryDylib : PathBuf
  package : String
  module : String
  dependencies : List LeanLibraryDependency
  leanVersion : Option String
  resolvedLeanVersion : Option String
  leanHeaderSha256 : Option String
  exports : List LeanExportSignature
  deriving DecidableEq

/-- What a manifest path leads to, with the texts of the errors that the system reports. -/
inductive ManifestFile where
  | missing (err : String)
  | unreadable (err : String)
  | notJson (err : String)
  | json (v : Value)

def capabilityManifestSchemaVersion : Nat := 2

namespace CapabilityManifest

def rebuild : String := "rebuild the Lean capability through CargoLeanCapability"

def malformed (subject message hint : String) : LeanLoaderCheck :=
  .blocking .malformedManifest subject message hint

section Fields

variable (path : PathBuf)

def nonempty? (v : Value) (field : String) : Option String :=
  (v.get? field).bind fun found => found.asStr?.filter fun s => s != ""

def requiredString (v : Value) (field : String) : Except LeanLoaderCheck String :=
  match nonempty? v field with
  | some s => .ok s
  | none => .error (malformed path.pathString ("Lean capability manifest '" ++ path.pathString ++
      "' is missing non-empty string field `" ++ field ++ "`") rebuild)

def requiredU64 (v : Value) (field : String) : Except LeanLoaderCheck Nat :=
  match (v.get? field).bind Value.asU64? with
  | some n => .ok n
  | none => .error (malformed path.pathString ("Lean capability manifest '" ++ path.pathString ++
      "' is missing unsigned integer field `" ++ field ++ "`") rebuild)

def parseExportKind (v : Value) : Except LeanLoaderCheck LeanExportSymbolKind := do
  let kind ← requiredString path v "kind"
  match LeanExportSymbolKind.fromStr kind with
  | some parsed => .ok parsed
  | none => .error (malformed kind
      "Lean capability manifest export `kind` must be `function` or `global`" rebuild)

def parseExportRepr (v : Value) : Except LeanLoaderCheck LeanExportAbiRepr := do
  let repr ← requiredString path v "repr"
  match LeanExportAbiRepr.fromStr repr with
  | some parsed => .ok parsed
  | none => .error (malformed repr "Lean capability manifest ABI `repr` is not supported"
      "use a supported Lean export ABI representation")

def parseExportOwnership (v : Value) : Except LeanLoaderCheck LeanExportOwnership := do
  let ownership ← requiredString path v "ownership"
  match LeanExportOwnership.fromStr ownership with
  | some parsed => .ok parsed
  | none => .error (malformed ownership
      "Lean capability manifest ABI `ownership` must be `none` or `owned`" rebuild)

def parseExportResultConvention (v : Value) :
    Except LeanLoaderCheck LeanExportResultConvention := do
  let convention ← requiredString path v "convention"
  match LeanExportResultConvention.fromStr convention with
  | some parsed => .ok parsed
  | none => .error (malformed convention
      "Lean capability manifest return `convention` must be `pure` or `io_result`" rebuild)

def expectedOwnership (repr : LeanExportAbiRepr) : LeanExportOwnership :=
  if repr = .leanObject then .owned else .none

def validateOwnership (repr : LeanExportAbiRepr) (ownership : LeanExportOwnership) :
    Except LeanLoaderCheck Unit :=
  if ownership = expectedOwnership repr then .ok ()
  else .error (malformed path.pathString ("Lean capability manifest ABI ownership `" ++
    ownership.asStr ++ "` does not match representation `" ++ repr.asStr ++ "`")
    "use `owned` for `lean_object` slots and `none` for scalar slots")

def exportArgFromManifest (v : Value) : Except LeanLoaderCheck LeanExportArgAbi := do
  let repr ← parseExportRepr path v
  let ownership ← parseExportOwnership path v
  validateOwnership path repr ownership
  .ok ⟨repr, ownership⟩

def exportArgsFromManifest (v : Value) : Except LeanLoaderCheck (List LeanExportArgAbi) :=
  match v.get? "args" with
  | none => .error (malformed path.pathString
      "Lean capability manifest export is missing required array field `args`" rebuild)
  | some rawArgs =>
    match rawArgs.asArray? with
    | none => .error (malformed path.pathString
        "Lean capability manifest export field `args` must be an array" rebuild)
    | some args => args.mapM (exportArgFromManifest path)

/-- `IO` results are wrapper objects that the caller owns. -/
def validateConvention (result : LeanExportReturnAbi) : Except LeanLoaderCheck Unit :=
  if result.convention = .ioResult ∧
      (result.repr ≠ .leanObject ∨ result.ownership ≠ .owned) then
    .error (malformed path.pathString
      "Lean capability manifest IO result must use owned `lean_object` return ABI"
      ("record IO exports with `repr: lean_object`, `ownership: owned`, and " ++
        "`convention: io_result`"))
  else .ok ()

def exportReturnFromManifest (v : Value) : Except LeanLoaderCheck LeanExportReturnAbi :=
  match v.get? "return" with
  | none => .error (malformed path.pathString
      "Lean capability manifest export is missing required object field `return`" rebuild)
  | some rawReturn => do
    let repr ← parseExportRepr path rawReturn
    let ownership ← parseExportOwnership path rawReturn
    validateOwnership path repr ownership
    let convention ← parseExportResultConvention path rawReturn
    validateConvention path ⟨repr, ownership, convention⟩
    .ok ⟨repr, ownership, convention⟩

def validateGlobal (symbol : String) (kind : LeanExportSymbolKind) (args : List LeanExportArgAbi)
    (result : LeanExportReturnAbi) : Except LeanLoaderCheck Unit :=
  if kind = .global ∧ args ≠ [] then
    .error (malformed symbol
      "Lean capability manifest describes a global export with function arguments"
      "record globals with an empty `args` array")
  else if kind = .global ∧ result.convention = .ioResult then
    .error (malformed symbol "Lean capability manifest describes a global export as an IO result"
      "record globals with a pure return convention")
  else .ok ()

def signatureOf (symbol : String) (kind : LeanExportSymbolKind) (args : List LeanExportArgAbi)
    (result : LeanExportReturnAbi) : LeanExportSignature :=
  match kind with
  | .function => .function symbol args result
  | .global => .global symbol result

/-- The loop over the entries of `exports`, with the symbols already seen. -/
def exportsFrom (seen : List String) :
    List Value → Except LeanLoaderCheck (List LeanExportSignature)
  | [] => .ok []
  | v :: rest => do
    let symbol ← requiredString path v "symbol"
    if symbol ∈ seen then
      .error (malformed symbol
        "Lean capability manifest contains duplicate export signature metadata"
        "emit at most one signature entry for each exported symbol")
    else do
      let kind ← parseExportKind path v
      let args ← exportArgsFromManifest path v
      let result ← exportReturnFromManifest path v
      validateGlobal symbol kind args result
      let signatures ← exportsFrom (symbol :: seen) rest
      .ok (signatureOf symbol kind args result :: signatures)

def exportsFromManifest (v : Value) : Except LeanLoaderCheck (List LeanExportSignature) :=
  match v.get? "exports" with
  | none => .error (malformed path.pathString ("Lean capability manifest '" ++ path.pathString ++
      "' is missing required array field `exports`") rebuild)
  | some rawExports =>
    match rawExports.asArray? with
    | none => .error (malformed path.pathString ("Lean capability manifest '" ++
        path.pathString ++ "' field `exports` must be an array") rebuild)
    | some entries => exportsFrom path [] entries

def initializerFromManifest (v : Value) : Except LeanLoaderCheck LeanModuleInitializer := do
  let package ← requiredString path v "package"
  let module ← requiredString path v "module"
  .ok ⟨package, module⟩

def dependencyFromManifest (v : Value) : Except LeanLoaderCheck LeanLibraryDependency := do
  let dylib ← requiredString path v "dylib_path"
  let exported := ((v.get? "export_symbols_for_dependents").bind Value.asBool?).getD false
  match v.get? "initializer" with
  | none => .ok ⟨.ofString dylib, exported, none⟩
  | some raw => do
    let initializer ← initializerFromManifest path raw
    .ok ⟨.ofString dylib, exported, some initializer⟩

def dependenciesFromManifest (v : Value) :
    Except LeanLoaderCheck (List LeanLibraryDependency) :=
  match v.get? "dependencies" with
  | none => .ok []
  | some rawDependencies =>
    match rawDependencies.asArray? with
    | none => .error (malformed path.pathString ("Lean capability manifest '" ++
        path.pathString ++ "' field `dependencies` must be an array") rebuild)
    | some entries => entries.mapM (dependencyFromManifest path)

def requiredSchema (v : Value) : Except LeanLoaderCheck Unit := do
  let schemaVersion ← requiredU64 path v "schema_version"
  if schemaVersion = capabilityManifestSchemaVersion then .ok ()
  else .error (.blocking .unsupportedManifestSchema path.pathString
    ("unsupported Lean capability manifest schema " ++ toString schemaVersion ++
      "; supported schema is " ++ toString capabilityManifestSchemaVersion)
    "rebuild the Lean capability with the same lean-rs version as the runtime crate")

end Fields

/-- A fingerprint field, or its older place at the top level. -/
def fingerprintString (v : Value) (field legacy : String) : Option String :=
  (nonempty? ((v.get? "toolchain_fingerprint").getD .null) field).or (nonempty? v legacy)

def readValue (path : PathBuf) (v : Value) : Except LeanLoaderCheck CapabilityManifest := do
  requiredSchema path v
  let primaryDylib ← requiredString path v "primary_dylib"
  let package ← requiredString path v "package"
  let module ← requiredString path v "module"
  let dependencies ← dependenciesFromManifest path v
  let exports ← exportsFromManifest path v
  .ok {
    primaryDylib := .ofString primaryDylib
    package := package
    module := module
    dependencies := dependencies
    leanVersion := fingerprintString v "lean_version" "lean_version"
    resolvedLeanVersion := fingerprintString v "resolved_version" "resolved_lean_version"
    leanHeaderSha256 := fingerprintString v "header_sha256" "lean_header_sha256"
    exports := exports }

def read (path : PathBuf) : ManifestFile → Except LeanLoaderCheck CapabilityManifest
  | .missing err => .error (.blocking .missingManifest path.pathString
      ("failed to read Lean capability manifest '" ++ path.pathString ++ "': " ++ err)
      (rebuild ++ " and ensure the manifest file is packaged"))
  | .unreadable err => .error (malformed path.pathString
      ("failed to read Lean capability manifest '" ++ path.pathString ++ "': " ++ err)
      (rebuild ++ " and ensure the manifest file is packaged"))
  | .notJson err => .error (malformed path.pathString
      ("Lean capability manifest '" ++ path.pathString ++ "' is not valid JSON: " ++ err) rebuild)
  | .json v => readValue path v

end CapabilityManifest

end LeanRs
