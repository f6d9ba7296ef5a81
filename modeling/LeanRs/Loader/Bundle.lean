import LeanRs.Loader.Preflight

/-! Opening what a manifest describes: every dependency in order, each initialized if the manifest
asks for it, then the primary dylib and its module. -/
namespace LeanRs

inductive LoadCause where
  | named (code : LeanLoaderDiagnosticCode)
  | other
  deriving DecidableEq

structure LoadFailure where
  cause : LoadCause
  source : HostFailure
  deriving DecidableEq

/-- What the platform does beyond what the files say: refusing a file that is in order, the text
it gives, and how a module initializer ends. -/
structure LoaderAnswers where
  refuses : PathBuf → Option String
  loaderText : String
  initializerEnds : PathBuf → Except HostFailure Unit

section Loading

variable (host : LoaderHost) (files : PathBuf → ArtifactFile) (answers : LoaderAnswers)

/-- `LeanLibrary::open` and `LeanLibrary::open_globally`, apart from what becomes visible. -/
def LeanLibrary.openDylib (path : PathBuf) : Except LoadFailure ObjectFile :=
  let text := path.pathString
  let refused (err : String) : HostFailure :=
    .moduleInit ("failed to open Lean library '" ++ text ++ "': " ++ err)
  match files path with
  | .missing err | .unreadable err => .error ⟨.named .missingPrimaryDylib,
      .moduleInit ("failed to read Lean library '" ++ text ++ "': " ++ err)⟩
  | .unparsable err => .error ⟨.named .unsupportedArchitecture,
      .moduleInit ("failed to parse object file '" ++ text ++ "': " ++ err)⟩
  | .object file =>
    if architectureMatchesHost host file.architecture then
      match answers.refuses path with
      | none => .ok file
      | some err => .error ⟨.other, refused err⟩
    else .error ⟨.named .unsupportedArchitecture, refused answers.loaderText⟩

def LeanLibrary.initializeModule (path : PathBuf) (info : ArtifactInfo) (package module : String) :
    Except LoadFailure Unit :=
  match InitializerName.fromLakeNames host.debugChar package module with
  | .error err => .error ⟨.named .malformedManifest, err⟩
  | .ok name =>
    if name.symbol ∈ info.definedSymbols ∨ name.legacySymbol ∈ info.definedSymbols then
      (answers.initializerEnds path).mapError fun err => ⟨.other, err⟩
    else .error ⟨.named .missingInitializer, .linking ("missing initializer symbol in '" ++
      path.pathString ++ "': tried '" ++ name.symbol ++ "' and '" ++ name.legacySymbol ++ "': " ++
      answers.loaderText)⟩

def initializeDependency (dependency : LeanLibraryDependency) (info : ArtifactInfo) :
    Except LoadFailure Unit :=
  match dependency.initializer with
  | none => .ok ()
  | some initializer => LeanLibrary.initializeModule host answers dependency.path info
      initializer.package initializer.module

/-- The dependencies of a bundle. The result is what has become visible to later dylibs. -/
def openDependencies (visible : List String) :
    List LeanLibraryDependency → Except LoadFailure (List String)
  | [] => .ok visible
  | dependency :: rest => do
    let file ← LeanLibrary.openDylib host files answers dependency.path
    initializeDependency host answers dependency file.info
    openDependencies
      (if dependency.exportsSymbolsForDependents then visible ++ file.info.definedSymbols
        else visible)
      rest

/-- Opened with `RTLD_LAZY`, the primary dylib has its eager imports looked up among what is
visible. A function that is missing is noticed when it is called, which ends the process. -/
def resolveImports (path : PathBuf) (file : ObjectFile) (visible : List String) :
    Except LoadFailure Unit :=
  match file.eagerImports.find? fun symbol =>
      isLeanDependencySymbol symbol && !decide (symbol ∈ visible) with
  | none => .ok ()
  | some symbol => .error ⟨.named .missingImportedSymbol, .moduleInit
      ("failed to open Lean library '" ++ path.pathString ++ "': " ++ answers.loaderText ++
        symbol)⟩

/-- `LeanLibraryBundle::open` and the initialization of the primary module, as
`from_build_manifest` runs them. -/
def openManifest (manifest : CapabilityManifest) : Except LoadFailure Unit := do
  let visible ← openDependencies host files answers [] manifest.dependencies
  let file ← LeanLibrary.openDylib host files answers manifest.primaryDylib
  resolveImports answers manifest.primaryDylib file visible
  LeanLibrary.initializeModule host answers manifest.primaryDylib file.info manifest.package
    manifest.module

end Loading

end LeanRs
