import LeanRs.Abi.Types
import LeanRs.Toolchain.ManifestValidation

/-! What is checked before the dylibs of a manifest are opened: the fingerprint and the age of the
manifest, then the files themselves. -/
namespace LeanRs

def isIdentStart (ch : Char) : Bool := ch == '_' || ch.isAlpha

def isIdentContinue (ch : Char) : Bool := ch == '_' || ch.isAlphanum

def splitDots : List Char → List (List Char)
  | [] => [[]]
  | ch :: rest =>
    if ch = '.' then [] :: splitDots rest
    else match splitDots rest with
      | [] => [[ch]]
      | component :: others => (ch :: component) :: others

def pushMangled (component : List Char) : List Char :=
  component.flatMap fun ch => if ch = '_' then ['_', '_'] else [ch]

def validateComponent (debugChar : Char → String) (kind : String) (component : List Char) :
    Except HostFailure Unit :=
  match component with
  | [] => .error (.linking ("invalid " ++ kind ++ ": empty component"))
  | first :: rest =>
    if isIdentStart first then
      match rest.find? fun ch => !isIdentContinue ch with
      | none => .ok ()
      | some ch => .error (.linking ("invalid " ++ kind ++ " '" ++ String.ofList component ++
          "': character " ++ debugChar ch ++ " is not in [A-Za-z0-9_]"))
    else .error (.linking ("invalid " ++ kind ++ " '" ++ String.ofList component ++
      "': first character must be ASCII letter or underscore"))

/-- The symbols that a module initializer may have: the modern one, and the one without the
package that older toolchains emit. -/
structure InitializerName where
  symbol : String
  legacySymbol : String
  display : String
  deriving DecidableEq

def InitializerName.fromLakeNames (debugChar : Char → String) (package module : String) :
    Except HostFailure InitializerName := do
  validateComponent debugChar "package name" package.toList
  let components := splitDots module.toList
  components.forM (validateComponent debugChar "module component")
  let mangled := List.intercalate ['_'] (components.map pushMangled)
  .ok {
    symbol := "initialize_" ++ String.ofList (pushMangled package.toList ++ '_' :: mangled)
    legacySymbol := "initialize_" ++ String.ofList mangled
    display := package ++ "::" ++ module }

inductive Architecture where
  | x86_64
  | aarch64
  | arm
  | i386
  | other (name : String)
  deriving DecidableEq

def Architecture.debug : Architecture → String
  | x86_64 => "X86_64"
  | aarch64 => "Aarch64"
  | arm => "Arm"
  | i386 => "I386"
  | other name => name

/-- A symbol table entry; the name is absent when it cannot be read. An import that is not eager is
a function that the dynamic loader looks up at its first call. -/
structure ObjectSymbol where
  name : Option String
  undefined : Bool
  isGlobal : Bool
  eager : Bool := false
  deriving DecidableEq

structure ObjectFile where
  architecture : Architecture
  stripUnderscore : Bool
  symbols : List ObjectSymbol
  dynamicSymbols : List ObjectSymbol
  deriving DecidableEq

inductive ArtifactFile where
  | missing (err : String)
  | unreadable (err : String)
  | unparsable (err : String)
  | object (file : ObjectFile)
  deriving DecidableEq

structure ArtifactInfo where
  definedSymbols : List String
  undefinedSymbols : List String
  deriving DecidableEq

def normaliseSymbolName (name : String) (stripUnderscore : Bool) : String :=
  if stripUnderscore then
    match name.toList with
    | '_' :: rest => String.ofList rest
    | _ => name
  else name

namespace ObjectFile

def names (file : ObjectFile) (keep : ObjectSymbol → Bool) : List String :=
  ((file.symbols ++ file.dynamicSymbols).filter keep).filterMap fun symbol =>
    (symbol.name.map (normaliseSymbolName · file.stripUnderscore)).filter (· != "")

def info (file : ObjectFile) : ArtifactInfo where
  definedSymbols := file.names fun symbol => !symbol.undefined && symbol.isGlobal
  undefinedSymbols := file.names ObjectSymbol.undefined

def imports (file : ObjectFile) : List String := file.info.undefinedSymbols

/-- The imports that the dynamic loader looks up when it opens the file. -/
def eagerImports (file : ObjectFile) : List String :=
  file.names fun symbol => symbol.undefined && symbol.eager

end ObjectFile

/-- The process that loads: its own architecture, and how it renders a character. -/
structure LoaderHost where
  arch : String
  debugChar : Char → String

def architectureMatchesHost (host : LoaderHost) : Architecture → Bool
  | .x86_64 => host.arch == "x86_64"
  | .aarch64 => host.arch == "aarch64"
  | .arm => host.arch == "arm"
  | .i386 => host.arch == "x86"
  | .other _ => false

inductive ArtifactRole where
  | primary
  | dependency
  deriving DecidableEq

def ArtifactRole.missingCode : ArtifactRole → LeanLoaderDiagnosticCode
  | primary => .missingPrimaryDylib
  | dependency => .missingTransitiveDependency

def ArtifactRole.repair : ArtifactRole → String
  | primary =>
    "rebuild the Lean capability through CargoLeanCapability and package the primary dylib"
  | dependency =>
    "rebuild the Lean capability through CargoLeanCapability and package every manifest dependency"

section Checks

variable (host : LoaderHost) (files : PathBuf → ArtifactFile)

def inspectArtifact (path : PathBuf) (role : ArtifactRole) : Except LeanLoaderCheck ArtifactInfo :=
  let text := path.pathString
  match files path with
  | .missing err => .error (.blocking role.missingCode text
      ("failed to read Lean dylib '" ++ text ++ "': " ++ err) role.repair)
  | .unreadable err => .error (.blocking .unsupportedArchitecture text
      ("failed to read Lean dylib '" ++ text ++ "': " ++ err) role.repair)
  | .unparsable err => .error (.blocking .unsupportedArchitecture text
      ("Lean dylib '" ++ text ++ "' is not a supported native object for this platform: " ++ err)
      "rebuild the Lean capability for the current target architecture")
  | .object file =>
    if architectureMatchesHost host file.architecture then .ok file.info
    else .error (.blocking .unsupportedArchitecture text
      ("Lean dylib '" ++ text ++ "' has architecture " ++ file.architecture.debug ++
        ", but this process is " ++ host.arch)
      "rebuild the Lean capability for the current target architecture")

def checkInitializer (manifest : CapabilityManifest) (primary : ArtifactInfo) :
    List LeanLoaderCheck :=
  let subject := manifest.package ++ "/" ++ manifest.module
  match InitializerName.fromLakeNames host.debugChar manifest.package manifest.module with
  | .error err => [.blocking .malformedManifest subject err.message
      "rebuild the manifest with valid Lake package and module names"]
  | .ok initializer =>
    if initializer.symbol ∈ primary.definedSymbols ∨
        initializer.legacySymbol ∈ primary.definedSymbols then []
    else [.blocking .missingInitializer subject
      ("primary dylib '" ++ manifest.primaryDylib.pathString ++ "' does not export initializer '" ++
        initializer.symbol ++ "' or '" ++ initializer.legacySymbol ++ "'")
      "check the package/module names and rebuild the Lean capability shared target"]

def startsWith (start text : String) : Bool := start.toList.isPrefixOf text.toList

def isLeanDependencySymbol (symbol : String) : Bool :=
  startsWith "LeanRs" symbol || startsWith "lean_rs_" symbol ||
    startsWith "initialize_LeanRs" symbol

/-- The first import that no dependency defines is reported and the rest are not looked at. The
set is walked in the order of the file here; the code's set has no fixed order. -/
def checkImportedSymbols (manifest : CapabilityManifest) (primary : ArtifactInfo)
    (dependencyExports : List String) : List LeanLoaderCheck :=
  match primary.undefinedSymbols.find? fun symbol =>
      isLeanDependencySymbol symbol && !decide (symbol ∈ dependencyExports) with
  | none => []
  | some symbol => [.blocking .missingImportedSymbol symbol
      ("primary dylib '" ++ manifest.primaryDylib.pathString ++ "' imports Lean symbol '" ++
        symbol ++ "' that is not provided by the manifest dependencies")
      ("rebuild the Lean capability through CargoLeanCapability so dependency dylibs are " ++
        "recorded in the manifest")]

end Checks

structure RuntimeBuild where
  leanHeaderDigest : String
  leanResolvedVersion : String
  supportedFor : String → Bool

/-- A manifest without a digest is checked by its versions. -/
def checkFingerprint (runtime : RuntimeBuild) (manifest : CapabilityManifest) :
    List LeanLoaderCheck :=
  let rebuildHint :=
    "rebuild the Lean capability so the manifest records a Lean header digest"
  match manifest.leanHeaderSha256 with
  | some digest =>
    if digest = runtime.leanHeaderDigest then []
    else [.blocking .unsupportedToolchainFingerprint digest
      ("manifest Lean header digest " ++ digest ++ " does not match this process digest " ++
        runtime.leanHeaderDigest)
      "rebuild the Lean capability with the same Lean ABI used by this Rust binary"]
  | none =>
    match manifest.leanVersion.filter fun version => !runtime.supportedFor version with
    | some version => [.blocking .unsupportedToolchainFingerprint version
        ("legacy manifest was built with unsupported Lean toolchain " ++ version) rebuildHint]
    | none =>
      match manifest.resolvedLeanVersion.filter fun r => r != runtime.leanResolvedVersion with
      | none => []
      | some resolved => [.blocking .unsupportedToolchainFingerprint resolved
          ("legacy manifest resolved Lean version " ++ resolved ++
            " does not match this process resolved version " ++ runtime.leanResolvedVersion)
          rebuildHint]

/-- `modified` is the modification time of a path, if it can be read. -/
def checkStaleness (modified : PathBuf → Option Nat) (manifestPath : PathBuf)
    (manifest : CapabilityManifest) : List LeanLoaderCheck :=
  match modified manifestPath, modified manifest.primaryDylib with
  | some manifestModified, some primaryModified =>
    if primaryModified > manifestModified then
      [.blocking .staleManifest manifestPath.pathString
        ("manifest '" ++ manifestPath.pathString ++ "' is older than primary dylib '" ++
          manifest.primaryDylib.pathString ++ "'")
        ("rebuild the Lean capability through CargoLeanCapability so the manifest matches the " ++
          "dylib")]
    else []
  | _, _ => []

structure PreflightAnswers where
  manifestPath : Except String PathBuf
  manifestFile : ManifestFile
  modified : PathBuf → Option Nat

section Preflight

variable (runtime : RuntimeBuild) (host : LoaderHost) (files : PathBuf → ArtifactFile)

/-- Every dependency is inspected; the exports of all of them are collected and the failures are
reported. -/
def inspectDependencies : List LeanLibraryDependency → List String × List LeanLoaderCheck
  | [] => ([], [])
  | dependency :: rest =>
    let (exported, checks) := inspectDependencies rest
    match inspectArtifact host files dependency.path .dependency with
    | .ok info => (info.definedSymbols ++ exported, checks)
    | .error check => (exported, check :: checks)

def checkArtifacts (manifest : CapabilityManifest) : List LeanLoaderCheck :=
  let (dependencyExports, checks) := inspectDependencies host files manifest.dependencies
  checks ++ match inspectArtifact host files manifest.primaryDylib .primary with
    | .ok info => checkInitializer host manifest info ++
        checkImportedSymbols manifest info dependencyExports
    | .error check => [check]

def LeanRuntimePreflight.check (answers : PreflightAnswers) : LeanLoaderReport :=
  match answers.manifestPath with
  | .error err => ⟨none, [.blocking .missingManifest "manifest" err
      ("rebuild the Lean capability through CargoLeanCapability and embed the manifest env var")]⟩
  | .ok path =>
    match CapabilityManifest.read path answers.manifestFile with
    | .error check => ⟨some path, [check]⟩
    | .ok manifest => ⟨some path, checkFingerprint runtime manifest ++
        checkStaleness answers.modified path manifest ++ checkArtifacts host files manifest⟩

end Preflight

end LeanRs
