import LeanRs.General.Fallible
import LeanRs.Toolchain.LakeCache
import Mathlib.Data.List.Infix
import Mathlib.Logic.Function.Basic

/-! Source packages: a payload of Lean sources is copied into a cache entry, together with files
that are generated for it, and a later call takes the entry as it is if it still matches. -/
namespace LeanRs

open Json

structure GeneratedSourceFile where
  relativePath : PathBuf
  contents : List UInt8
  deriving DecidableEq

inductive SourcePackageManifestPolicy where
  | zeroPackages
  | allowPackages
  deriving DecidableEq

structure SourcePackageMaterializationRequest where
  sourceRoot : PathBuf
  cacheRoot : PathBuf
  packageName : String
  materializedPackageName : String
  libraryName : String
  sourceDigest : String
  sourceRevision : String
  crateName : String
  crateVersion : String
  toolchainLabel : String
  includePaths : List PathBuf
  generatedFiles : List GeneratedSourceFile
  sentinelFiles : List PathBuf
  manifestPolicy : SourcePackageManifestPolicy
  deriving DecidableEq

structure SourcePackageProvenance where
  schemaVersion : Nat
  packageName : String
  materializedPackageName : String
  libraryName : String
  sourceDigest : String
  sourceRevision : String
  crateName : String
  crateVersion : String
  toolchainLabel : String
  generatedToolchainFile : Bool
  deriving DecidableEq

structure MaterializedSourcePackage where
  projectRoot : PathBuf
  provenance : SourcePackageProvenance
  deriving DecidableEq

/-- What a call fails with, but for the text of the system's own error. -/
inductive SourcePackageError where
  | io (action : String) (path : PathBuf)
  | json (action : String) (path : PathBuf) (source : String)
  | invalidPayload (message : String)
  deriving DecidableEq

/-- The reader of JSON, and the two directions of the provenance sidecar. -/
structure SourceFormats where
  json : List UInt8 → Except String Value
  encodeSidecar : SourcePackageProvenance → Except String (List UInt8)
  decodeSidecar : List UInt8 → Except String SourcePackageProvenance

namespace PathBuf

/-- Without what stands for no component at the end, on the reversed bytes. -/
def trimEnd : List UInt8 → List UInt8
  | 47 :: rest => trimEnd rest
  | 46 :: 47 :: rest => trimEnd rest
  | bytes => bytes

def parent (p : PathBuf) : PathBuf :=
  let front := (trimEnd ((trimEnd p.bytes.reverse).dropWhile (· != 47))).reverse
  ⟨if front = [] ∧ p.hasRoot then [47] else front⟩

end PathBuf

/-- How a path ends. After a slash or a dot only a directory can be there. -/
inductive PathEnd where
  | name
  | slash
  | dot
  deriving DecidableEq

structure Place where
  names : RelPath
  ending : PathEnd
  deriving DecidableEq

def PathBuf.place? (p : PathBuf) : Option Place :=
  if 0 ∈ p.bytes then none
  else
    let parts := (PathBuf.segments p.bytes).reverse
    let ending : PathEnd :=
      if (parts.dropWhile (· == [])).head? = some [46] then .dot
      else if parts.head? = some [] then .slash
      else .name
    some ⟨p.components.filter (· != [46]), ending⟩

inductive Inode where
  | dir
  | file (contents : List UInt8)
  deriving DecidableEq

/-- What is found below the root of an entry. The root itself is the empty path. -/
abbrev EntryTree := RelPath → Option Inode

namespace EntryTree

def absent : EntryTree := fun _ => none

def emptyDir : EntryTree := fun path => if path = [] then some .dir else none

variable (tree : EntryTree)

def isDirectory (path : RelPath) : Bool := tree path == some .dir

def contents? (path : RelPath) : Option (List UInt8) :=
  match tree path with
  | some (.file contents) => some contents
  | _ => none

def fileAt? (path : PathBuf) : Option (List UInt8) :=
  path.place?.bind fun place =>
    if place.ending = .name then tree.contents? place.names else none

def isFile (path : PathBuf) : Bool := (tree.fileAt? path).isSome

/-- `fs::create_dir_all`: every name on the way is a directory, or becomes one. -/
def createDirAll? (path : RelPath) : Option EntryTree :=
  if path.inits.any fun above => (tree.contents? above).isSome then none
  else some fun q => if q ∈ path.inits then some .dir else tree q

end EntryTree

section Files

variable (root : PathBuf) (tree : EntryTree) (path : PathBuf) (action : String)

def readFile : Except SourcePackageError (List UInt8) :=
  match tree.fileAt? path with
  | some contents => .ok contents
  | none => .error (.io action (root.join path))

def readToString : Except SourcePackageError String :=
  match (tree.fileAt? path).bind fun contents => (PathBuf.mk contents).toStr? with
  | some text => .ok text
  | none => .error (.io action (root.join path))

/-- The last step cannot be taken for a name that is a dot. -/
def createDir : Except SourcePackageError EntryTree :=
  match path.place? with
  | none => .error (.io action (root.join path))
  | some place =>
    match tree.createDirAll? place.names with
    | none => .error (.io action (root.join path))
    | some tree' =>
      if place.ending = .dot ∧ !tree.isDirectory place.names then
        .error (.io action (root.join path))
      else .ok tree'

def putFile (parentAction : String) (contents : List UInt8) :
    Except SourcePackageError EntryTree :=
  match path.place? with
  | none => .error (.io parentAction (root.join path).parent)
  | some place =>
    match tree.createDirAll? place.names.dropLast with
    | none => .error (.io parentAction (root.join path).parent)
    | some tree' =>
      if place.ending = .name ∧ place.names ≠ [] ∧ !tree'.isDirectory place.names then
        .ok (Function.update tree' place.names (some (.file contents)))
      else .error (.io action (root.join path))

def writeFile (contents : List UInt8) : Except SourcePackageError EntryTree :=
  putFile root tree path action "create source package output parent directory" contents

end Files

mutual

inductive PayloadNode where
  | file (contents : List UInt8)
  | dir (entries : PayloadEntries)
  /-- A symbolic link, or no regular file. -/
  | other
  /-- The system refuses an operation on it. -/
  | refused (action : String)

/-- The entries of a directory, in the order in which the system lists them. -/
inductive PayloadEntries where
  | nil
  | cons (name : FileName) (node : PayloadNode) (rest : PayloadEntries)

end

section Copy

variable (destRoot : PathBuf)

mutual

def copyPathRecursive (source dest : PathBuf) (tree : EntryTree) :
    PayloadNode → Except SourcePackageError EntryTree
  | .file contents => putFile destRoot tree dest "copy source package payload file"
      "create source package payload parent directory" contents
  | .dir entries => do
    let tree ← createDir destRoot tree dest "create source package payload directory"
    copyEntries source dest tree entries
  | .other => .error (.invalidPayload
      ("source package payload path is not a regular file or directory: " ++ source.pathString))
  | .refused action => .error (.io action source)

def copyEntries (source dest : PathBuf) (tree : EntryTree) :
    PayloadEntries → Except SourcePackageError EntryTree
  | .nil => .ok tree
  | .cons name node rest => do
    let tree ← copyPathRecursive (source.join ⟨name⟩) (dest.join ⟨name⟩) tree node
    copyEntries source dest tree rest

end

end Copy

/-- What the system finds at the paths of the payload, and how a call's temporary directory is
called. -/
structure SourceAnswers where
  payload : PathBuf → Option PayloadNode
  processId : Nat
  uniqueNanos : Nat

namespace SourcePackageMaterializationRequest

variable (input : SourcePackageMaterializationRequest)

def copyPayload (payload : PathBuf → Option PayloadNode) (destRoot : PathBuf)
    (tree : EntryTree) : Except SourcePackageError EntryTree :=
  input.includePaths.foldlM (fun tree path =>
    match payload (input.sourceRoot.join path) with
    | none => .error (.invalidPayload ("include path " ++ path.pathString ++
        " does not exist under " ++ input.sourceRoot.pathString))
    | some node =>
      copyPathRecursive destRoot (input.sourceRoot.join path) path tree node) tree

def digestChar (c : Char) : Bool := c.isAlphanum || c == '.' || c == '-' || c == '_'

def invalid (message : String) : Except SourcePackageError Unit :=
  .error (.invalidPayload message)

def validateRelativePath (path : PathBuf) : Except SourcePackageError Unit :=
  if path.bytes = [] ∨ path.hasRoot then
    invalid ("source package path must be relative: " ++ path.pathString)
  else if [46, 46] ∈ path.components then
    invalid ("source package path must stay inside the source root: " ++ path.pathString)
  else .ok ()

def namedFields : List (String × String) :=
  [("package name", input.packageName),
    ("materialized package name", input.materializedPackageName),
    ("library name", input.libraryName), ("source revision", input.sourceRevision),
    ("crate name", input.crateName), ("crate version", input.crateVersion),
    ("toolchain label", input.toolchainLabel)]

def validateRequest : Except SourcePackageError Unit := do
  if input.sourceDigest = "" then invalid "source digest must be non-empty" else pure ()
  if input.sourceDigest.toList.all digestChar then pure ()
  else invalid "source digest must be a single cache-safe path component"
  input.namedFields.forM fun field =>
    if field.2 = "" then invalid (field.1 ++ " must be non-empty") else .ok ()
  if input.includePaths = [] then invalid "at least one include path is required" else pure ()
  (input.includePaths ++ input.sentinelFiles ++
    input.generatedFiles.map GeneratedSourceFile.relativePath).forM validateRelativePath

def provenance : SourcePackageProvenance where
  schemaVersion := 1
  packageName := input.packageName
  materializedPackageName := input.materializedPackageName
  libraryName := input.libraryName
  sourceDigest := input.sourceDigest
  sourceRevision := input.sourceRevision
  crateName := input.crateName
  crateVersion := input.crateVersion
  toolchainLabel := input.toolchainLabel
  generatedToolchainFile := true

def sanitizeToolchainLabel (label : String) : String :=
  String.ofList (label.toList.map fun c => if digestChar c then c else '_')

def digestRoot : PathBuf := input.cacheRoot.joinStr input.sourceDigest

def entryRoot : PathBuf :=
  input.digestRoot.joinStr (sanitizeToolchainLabel input.toolchainLabel)

def tempRoot (answers : SourceAnswers) : PathBuf :=
  input.digestRoot.joinStr (".source-package-" ++ answers.processId.repr ++ "-" ++
    answers.uniqueNanos.repr)

end SourcePackageMaterializationRequest

def sidecarFileName : PathBuf := .ofString "source-package.json"

def toolchainFileName : PathBuf := .ofString "lean-toolchain"

def manifestFileName : PathBuf := .ofString "lake-manifest.json"

def trim (text : String) : String := String.ofList (trimChars text.toList)

section Match

variable (formats : SourceFormats) (root : PathBuf) (tree : EntryTree)

def validateLakeManifest (policy : SourcePackageManifestPolicy) :
    Except SourcePackageError Unit :=
  match readFile root tree manifestFileName "read source package lake-manifest.json" with
  | .error err => .error err
  | .ok bytes =>
    match formats.json bytes with
    | .error err => .error (.json "decode source package lake-manifest.json"
        (root.join manifestFileName) err)
    | .ok manifest =>
      match (manifest.get? "packages").bind Value.asArray? with
      | none => .error (.invalidPayload
          "lake-manifest.json must contain an array `packages`")
      | some packages =>
        if policy = .zeroPackages ∧ packages ≠ [] then
          .error (.invalidPayload
            "lake-manifest.json must remain zero-dependency (`packages: []`)")
        else .ok ()

def generatedMatch : List GeneratedSourceFile → Except SourcePackageError Bool
  | [] => .ok true
  | generated :: rest =>
    match readFile root tree generated.relativePath "read generated source package file" with
    | .error err => .error err
    | .ok bytes => if bytes ≠ generated.contents then .ok false else generatedMatch rest

/-- `entry_matches` of an entry whose sidecar is the expected one. -/
def contentsMatch (input : SourcePackageMaterializationRequest) :
    Except SourcePackageError Bool :=
  match readToString root tree toolchainFileName
    "read generated source package lean-toolchain" with
  | .error err => .error err
  | .ok toolchain =>
    if trim toolchain ≠ input.toolchainLabel then .ok false
    else
      match generatedMatch root tree input.generatedFiles with
      | .ok true =>
        match validateLakeManifest formats root tree input.manifestPolicy with
        | .error err => .error err
        | .ok () => .ok true
      | other => other

def entryMatches (input : SourcePackageMaterializationRequest)
    (expected : SourcePackageProvenance) : Except SourcePackageError Bool :=
  if !tree.isDirectory [] then .ok false
  else if !(input.sentinelFiles ++ [manifestFileName, toolchainFileName,
      sidecarFileName]).all tree.isFile then .ok false
  else
    match readFile root tree sidecarFileName "read source package provenance sidecar" with
    | .error err => .error err
    | .ok bytes =>
      match formats.decodeSidecar bytes with
      | .error _ => .ok false
      | .ok provenance =>
        if provenance ≠ expected then .ok false
        else contentsMatch formats root tree input

end Match

/-- What a call has returned, the entry after it, and whether the entry was built anew. -/
structure Materialized where
  package : MaterializedSourcePackage
  entry : EntryTree
  rebuilt : Bool

namespace SourcePackageMaterializationRequest

variable (formats : SourceFormats) (answers : SourceAnswers)
variable (input : SourcePackageMaterializationRequest)

def toolchainContents : List UInt8 := (PathBuf.ofString (input.toolchainLabel ++ "\n")).bytes

def writeGenerated (root : PathBuf) (tree : EntryTree) : Except SourcePackageError EntryTree :=
  input.generatedFiles.foldlM (fun tree generated => writeFile root tree generated.relativePath
    "write generated source package file" generated.contents) tree

def writeSidecar (root : PathBuf) (tree : EntryTree) (provenance : SourcePackageProvenance) :
    Except SourcePackageError EntryTree :=
  match formats.encodeSidecar provenance with
  | .error err => .error (.json "encode source package provenance sidecar"
      (root.join sidecarFileName) err)
  | .ok bytes =>
    writeFile root tree sidecarFileName "write source package provenance sidecar" bytes

def buildEntry (provenance : SourcePackageProvenance) : Except SourcePackageError EntryTree := do
  let temp := input.tempRoot answers
  let copied ← input.copyPayload answers.payload temp .emptyDir
  let generated ← input.writeGenerated temp copied
  let labelled ← writeFile temp generated toolchainFileName
    "write generated source package lean-toolchain" input.toolchainContents
  let recorded ← writeSidecar formats temp labelled provenance
  validateLakeManifest formats temp recorded input.manifestPolicy
  input.sentinelFiles.forM fun sentinel =>
    if recorded.isFile sentinel then .ok ()
    else .error (.invalidPayload
      ("materialized source package missing sentinel file " ++ sentinel.pathString))
  .ok recorded

/-- The entry is built anew. A root that ends in a dot cannot be removed, and nothing can be moved
to one that ends in two. -/
def rebuild (provenance : SourcePackageProvenance) : Except SourcePackageError EntryTree :=
  if sanitizeToolchainLabel input.toolchainLabel = "." then
    .error (.io "remove stale source package cache entry" input.entryRoot)
  else
    match input.buildEntry formats answers provenance with
    | .error err => .error err
    | .ok built =>
      if sanitizeToolchainLabel input.toolchainLabel = ".." then
        .error (.io "install source package cache entry" input.entryRoot)
      else .ok built

def ensureMaterializedLocked (provenance : SourcePackageProvenance) (prior : EntryTree) :
    Except SourcePackageError Materialized :=
  match entryMatches formats input.entryRoot prior input provenance with
  | .error err => .error err
  | .ok true => .ok ⟨⟨input.entryRoot, provenance⟩, prior, false⟩
  | .ok false =>
    match input.rebuild formats answers provenance with
    | .error err => .error err
    | .ok built => .ok ⟨⟨input.entryRoot, provenance⟩, built, true⟩

/-- `materialize_source_package`, by the only caller that holds the entry. -/
def materialize (prior : EntryTree) : Except SourcePackageError Materialized :=
  match input.validateRequest with
  | .error err => .error err
  | .ok () => input.ensureMaterializedLocked formats answers input.provenance prior

end SourcePackageMaterializationRequest

end LeanRs
