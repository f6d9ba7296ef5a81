import LeanRs.Toolchain.Lake
import LeanRs.Toolchain.ManifestValidation

/-! The last step of a capability build: the manifest that the loader reads. -/
namespace LeanRs

open Json

structure SupportedToolchain where
  versions : List String
  headerDigest : String
  deriving DecidableEq

structure ToolchainInfo where
  sysroot : PathBuf
  leanBinary : Option PathBuf
  headerPath : PathBuf
  version : String
  /-- How the source of the discovery prints. -/
  source : String
  deriving DecidableEq

structure CargoLeanCapability where
  projectRoot : PathBuf
  targetName : String
  package : Option String := none
  module : Option String := none
  manifestEnvVar : Option String := none
  exportSignatures : List LeanExportSignature := []
  dependencies : List LeanLibraryDependency := []

structure FinishAnswers where
  formats : Formats
  canonicalize : PathBuf → Except String PathBuf
  lakefile : Option Lakefile
  manifest : FileRead
  outputs : OutputAnswers
  current : ToolchainFingerprint
  supported : List SupportedToolchain
  header : FileRead
  /-- `capability_search_dirs`; no reader looks at them. -/
  searchDirs : List PathBuf
  createDir : Except String Unit
  write : Except String Unit

/-- The state of `screaming_snake`: what is written, and whether a separator or a lower-case
letter or digit came last. -/
structure SnakeState where
  out : List Char := []
  prevWasSep : Bool := true
  prevWasLowerOrDigit : Bool := false

def SnakeState.push (s : SnakeState) (ch : Char) : SnakeState :=
  if ch.isAlphanum then
    { out := s.out ++
        (if ch.isUpper && s.prevWasLowerOrDigit && !s.prevWasSep then ['_'] else []) ++ [ch.toUpper]
      prevWasSep := false
      prevWasLowerOrDigit := ch.isLower || ch.isDigit }
  else
    { out := if s.prevWasSep then s.out else s.out ++ ['_'] }

def screamingSnake (input : String) : String :=
  let out := ((input.toList.foldl SnakeState.push {}).out.reverse.dropWhile (· == '_')).reverse
  if out = [] then "CAPABILITY" else String.ofList out

def capabilityManifestEnvVar (targetName : String) : String :=
  "LEAN_RS_CAPABILITY_" ++ screamingSnake targetName ++ "_MANIFEST"

section Toolchain

variable (a : FinishAnswers) (projectRoot : PathBuf) (targetName : String)

def supportedWindow : String :=
  ", ".intercalate (a.supported.map fun toolchain =>
    "[" ++ ", ".intercalate (toolchain.versions.map fun v => "\"" ++ v ++ "\"") ++ "]")

def sha256ManifestInput (path : PathBuf) : Except LinkDiagnostics String :=
  match a.header with
  | .bytes contents => .ok (a.formats.sha256Hex contents)
  | .notFound err | .failed err => .error (unresolved projectRoot targetName
      ("could not read selected Lean header " ++ path.pathString ++ " (" ++ err ++ ")"))

def manifestToolchainFingerprint :
    Option ToolchainInfo → Except LinkDiagnostics ToolchainFingerprint
  | none => .ok a.current
  | some info => do
    let headerSha256 ← sha256ManifestInput a projectRoot targetName info.headerPath
    match a.supported.find? fun toolchain => toolchain.headerDigest == headerSha256 with
    | none => .error (.unsupportedToolchain info.version (supportedWindow a))
    | some entry => .ok {
        leanVersion := info.version
        resolvedVersion :=
          if entry.versions.contains info.version then info.version
          else entry.versions.head?.getD "unknown"
        headerSha256 := headerSha256
        fixtureSha256 := a.current.fixtureSha256
        hostTriple := a.current.hostTriple }

end Toolchain

def stableDependencyName (path : PathBuf) : String :=
  ((path.fileStem?.bind PathBuf.toStr?).filter fun stem => stem != "").getD "lean_dependency"

def LeanModuleInitializer.toJson (initializer : LeanModuleInitializer) : Value :=
  .object [("package", .string initializer.package), ("module", .string initializer.module)]

/-- `lean_library_dependency_to_json`. An initializer that is not there is written as null. -/
def LeanLibraryDependency.toJson (dependency : LeanLibraryDependency) : Value :=
  .object [
    ("name", .string (match dependency.initializer with
      | some initializer => initializer.package
      | none => stableDependencyName dependency.path)),
    ("dylib_path", .string dependency.path.pathString),
    ("export_symbols_for_dependents", .bool dependency.exportsSymbolsForDependents),
    ("initializer", .ofOption LeanModuleInitializer.toJson dependency.initializer)]

/-- The dependency that a manifest entry of the interop shims stands for. -/
def interopShims (dylib : PathBuf) : LeanLibraryDependency where
  path := dylib
  exportsSymbolsForDependents := true
  initializer := some ⟨"lean_rs_interop_shims", "LeanRsInterop"⟩

def interopShimsJson (dylib : PathBuf) : Value :=
  .object [
    ("name", .string "lean_rs_interop_shims"),
    ("dylib_path", .string dylib.pathString),
    ("export_symbols_for_dependents", .bool true),
    ("initializer", .object [("package", .string "lean_rs_interop_shims"),
      ("module", .string "LeanRsInterop")])]

section Dependencies

variable (a : FinishAnswers) (projectRoot : PathBuf) (targetName : String)

/-- The directory of a package of the Lake manifest, if it is the one that is looked for. -/
def interopDir? (package : Value) : Option String :=
  match (package.get? "name").bind Value.asStr? with
  | some name =>
    if name = "lean_rs_interop_shims" then (package.get? "dir").bind Value.asStr? else none
  | none => none

def interopDylibs : List Value → Except LinkDiagnostics (List PathBuf)
  | [] => .ok []
  | package :: rest =>
    match interopDir? package with
    | none => interopDylibs rest
    | some dir =>
      match a.canonicalize (projectRoot.joinStr dir) with
      | .error err => .error (unresolved projectRoot targetName
          ("could not canonicalize dependency root " ++ (projectRoot.joinStr dir).pathString ++
            " (" ++ err ++ ")"))
      | .ok dependencyRoot => do
        let dylibs ← interopDylibs rest
        .ok (resolveDylibPath a.outputs dependencyRoot "lean_rs_interop_shims" "LeanRsInterop" ::
          dylibs)

def capabilityDependencies : Except LinkDiagnostics (List PathBuf) :=
  match a.manifest with
  | .notFound _ => .ok []
  | .failed err => .error (unresolved projectRoot targetName
      ("could not read " ++ (manifestPath projectRoot).pathString ++ " (" ++ err ++ ")"))
  | .bytes contents =>
    match a.formats.json contents with
    | .error err => .error (unresolved projectRoot targetName
        ((manifestPath projectRoot).pathString ++ " is not valid JSON (" ++ err ++ ")"))
    | .ok manifest =>
      interopDylibs a projectRoot targetName
        (((manifest.get? "packages").bind Value.asArray?).getD [])

end Dependencies

structure ManifestFacts where
  dylibPath : PathBuf
  package : String
  module : String
  fingerprint : ToolchainFingerprint
  interop : List PathBuf
  dependencies : List LeanLibraryDependency
  exportSignatures : List LeanExportSignature

def ManifestFacts.manifest (facts : ManifestFacts) : CapabilityManifest where
  primaryDylib := facts.dylibPath
  package := facts.package
  module := facts.module
  dependencies := facts.interop.map interopShims ++ facts.dependencies
  leanVersion := some facts.fingerprint.leanVersion
  resolvedLeanVersion := some facts.fingerprint.resolvedVersion
  leanHeaderSha256 := some facts.fingerprint.headerSha256
  exports := facts.exportSignatures

def ToolchainInfo.toJson (info : ToolchainInfo) : Value :=
  .object [("source", .string info.source), ("sysroot", .string info.sysroot.pathString),
    ("version", .string info.version),
    ("lean_binary", .ofOption (fun path => .string path.pathString) info.leanBinary)]

def ToolchainFingerprint.toJson (fingerprint : ToolchainFingerprint) : Value :=
  .object [("lean_version", .string fingerprint.leanVersion),
    ("resolved_version", .string fingerprint.resolvedVersion),
    ("header_sha256", .string fingerprint.headerSha256),
    ("fixture_sha256", .string fingerprint.fixtureSha256),
    ("host_triple", .string fingerprint.hostTriple)]

def ManifestFacts.document (facts : ManifestFacts) (targetName manifestEnvVar : String)
    (selected : Option ToolchainInfo) (searchDirs : List PathBuf) : Value :=
  .object [
    ("schema_version", .posInt capabilityManifestSchemaVersion),
    ("target_name", .string targetName),
    ("package", .string facts.package),
    ("module", .string facts.module),
    ("primary_dylib", .string facts.dylibPath.pathString),
    ("manifest_env_var", .string manifestEnvVar),
    ("lean_version", .string facts.fingerprint.leanVersion),
    ("resolved_lean_version", .string facts.fingerprint.resolvedVersion),
    ("lean_header_sha256", .string facts.fingerprint.headerSha256),
    ("toolchain_fingerprint", facts.fingerprint.toJson),
    ("build_toolchain", .ofOption ToolchainInfo.toJson selected),
    ("search_dirs", .array (searchDirs.map fun path => .string path.pathString)),
    ("dependencies", .array (facts.interop.map interopShimsJson ++
      facts.dependencies.map LeanLibraryDependency.toJson)),
    ("exports", .array (facts.exportSignatures.map LeanExportSignature.toJson))]

namespace CargoLeanCapability

variable (spec : CargoLeanCapability) (dylibPath : PathBuf) (selected : Option ToolchainInfo)
  (a : FinishAnswers)

/-- The package that was named, or the one that the project declares. -/
def packageName (projectRoot : PathBuf) : Except LinkDiagnostics String :=
  match spec.package with
  | some package => .ok package
  | none => inferPackageName a.formats projectRoot spec.targetName a.lakefile a.manifest

def facts (projectRoot : PathBuf) : Except LinkDiagnostics ManifestFacts := do
  let package ← spec.packageName a projectRoot
  let interop ← capabilityDependencies a projectRoot spec.targetName
  let fingerprint ← manifestToolchainFingerprint a projectRoot spec.targetName selected
  .ok {
    dylibPath := dylibPath
    package := package
    module := spec.module.getD spec.targetName
    fingerprint := fingerprint
    interop := interop
    dependencies := spec.dependencies
    exportSignatures := spec.exportSignatures }

/-- `finish`: the facts and the document that is then in the manifest file. -/
def finish : Except LinkDiagnostics (ManifestFacts × Value) :=
  match a.canonicalize spec.projectRoot with
  | .error err => .error (unresolved spec.projectRoot spec.targetName
      ("could not canonicalize project root " ++ spec.projectRoot.pathString ++ " (" ++ err ++
        ")"))
  | .ok projectRoot => do
    let facts ← spec.facts dylibPath selected a projectRoot
    match a.createDir with
    | .error err => .error (unresolved projectRoot spec.targetName
        ("could not create manifest directory (" ++ err ++ ")"))
    | .ok () =>
      match a.write with
      | .error err => .error (unresolved projectRoot spec.targetName
          ("could not atomically write Lean capability manifest (" ++ err ++ ")"))
      | .ok () => .ok (facts, facts.document spec.targetName
          (spec.manifestEnvVar.getD (capabilityManifestEnvVar spec.targetName)) selected
          a.searchDirs)

end CargoLeanCapability

/-- A machine on which nothing fails, with a project that has no Lake manifest. -/
def FinishAnswers.smooth : FinishAnswers where
  formats := ⟨fun _ => .error "", fun _ => .error "", fun _ => ""⟩
  canonicalize := .ok
  lakefile := none
  manifest := .notFound ""
  outputs := ⟨fun _ => false, false⟩
  current := ⟨"4.29.1", "4.29.1", "aa", "00", "x86_64-unknown-linux-gnu"⟩
  supported := []
  header := .notFound ""
  searchDirs := []
  createDir := .ok ()
  write := .ok ()

end LeanRs
