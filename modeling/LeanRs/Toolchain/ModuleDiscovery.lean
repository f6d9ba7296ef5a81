import LeanRs.General.KeyTable
import LeanRs.Pool.Planning
import LeanRs.Toolchain.LakeCache
import LeanRs.Toolchain.LakefileScan

/-! Module discovery in a Lake project: the walk below the selected roots, the names that are made
of the paths it meets, and the table in which they are collected. -/
namespace LeanRs

/-- What a name in a directory leads to. The entries of a directory are in the order in which the
system lists them. -/
inductive SourceNode where
  | file
  | dir (entries : List (FileName × SourceNode))
  /-- A directory that cannot be listed. -/
  | closedDir (source : String)
  /-- An entry of which the system gives no metadata. -/
  | lost (source : String)

namespace SourceNode

def at? : SourceNode → RelPath → Option SourceNode
  | node, [] => some node
  | .dir entries, name :: rest =>
    match entries.lookup name with
    | some node => node.at? rest
    | none => none
  | _, _ :: _ => none

def isFile : SourceNode → Bool
  | .file => true
  | _ => false

def isDir : SourceNode → Bool
  | .dir _ | .closedDir _ => true
  | _ => false

end SourceNode

structure ProjectDir where
  entries : List (FileName × SourceNode)
  distinct : ∀ path listed, (SourceNode.dir entries).at? path = some (.dir listed) →
    (listed.map Prod.fst).Nodup

namespace ProjectDir

def at? (tree : ProjectDir) (path : RelPath) : Option SourceNode :=
  (SourceNode.dir tree.entries).at? path

end ProjectDir

structure LeanModuleDescriptor where
  module : String
  /-- The path, below the project root. -/
  path : RelPath
  sourceRoot : String
  deriving DecidableEq

inductive LeanModuleDiscoveryDiagnostic where
  | missingLakeRoot (requestedRoot : PathBuf)
  | missingModuleRoot (moduleRoot : String)
  | invalidModuleName (module reason : String)
  | unsupportedToolchain (active supportedWindow : String)
  | io (path : RelPath) (message source : String)
  deriving DecidableEq

structure LeanLakeProjectModules where
  declaredLeanLibs : List String
  moduleRoots : List String
  selectedRoots : List String
  modules : List LeanModuleDescriptor
  fingerprint : LeanModuleSetFingerprint

namespace CharClasses

variable (classes : CharClasses)

def checkComponents (module : String) :
    List (List Char) → Except LeanModuleDiscoveryDiagnostic Unit
  | [] => .ok ()
  | [] :: _ => .error (.invalidModuleName module "module name contains an empty component")
  | (first :: chars) :: components =>
    if !classes.startsComponent first then
      .error (.invalidModuleName module
        "module components must begin with a letter or underscore")
    else if chars.any fun c => !classes.continuesComponent c then
      .error (.invalidModuleName module
        "module components may contain only letters, digits, underscores, or apostrophes")
    else checkComponents module components

def checkModuleName (module : String) : Except LeanModuleDiscoveryDiagnostic Unit :=
  if module.toList.isEmpty then .error (.invalidModuleName module "module name is empty")
  else classes.checkComponents module (module.toList.splitOn '.')

end CharClasses

def FileName.setExtension (name extension : FileName) : FileName :=
  match name.extension? with
  | some old => name.take (name.length - old.length) ++ extension
  | none => name ++ 46 :: extension

def leanExtension : FileName := .ofString "lean"

def moduleToDir (module : String) : RelPath :=
  (module.toList.splitOn '.').map fun part => .ofString (String.ofList part)

def moduleToFile (module : String) : RelPath :=
  (moduleToDir module).dropLast ++
    ((moduleToDir module).getLast?.map (·.setExtension leanExtension)).toList

def stripSuffix? (ending text : List Char) : Option (List Char) :=
  if ending.isSuffixOf text then some (text.take (text.length - ending.length)) else none

def stem (text : List Char) : List Char := (stripSuffix? ".lean".toList text).getD text

def moduleFromPath (path : RelPath) : String :=
  let parts := path.map PathBuf.lossyChars
  String.ofList (['.'].intercalate (parts.dropLast ++ (parts.getLast?.map stem).toList))

abbrev ModuleTable := List (String × LeanModuleDescriptor)

def ModuleTable.insert (modules : ModuleTable) (d : LeanModuleDescriptor) : ModuleTable :=
  KeyTable.upsert d.module d (fun _ => d) modules

section Walk

variable (classes : CharClasses) (sourceRoot : String)

def collectFile (path : RelPath) (modules : ModuleTable) :
    Except LeanModuleDiscoveryDiagnostic ModuleTable := do
  let module := moduleFromPath path
  classes.checkModuleName module
  .ok (modules.insert { module, path, sourceRoot })

mutual

def collectEntry (path : RelPath) (modules : ModuleTable) :
    SourceNode → Except LeanModuleDiscoveryDiagnostic ModuleTable
  | .lost source => .error (.io path "could not stat Lean source path" source)
  | .closedDir source => .error (.io path "could not read Lean source directory" source)
  | .dir entries => collectSources path modules entries
  | .file =>
    if path.getLast?.bind FileName.extension? = some leanExtension then
      collectFile classes sourceRoot path modules
    else .ok modules

def collectSources (dir : RelPath) (modules : ModuleTable) :
    List (FileName × SourceNode) → Except LeanModuleDiscoveryDiagnostic ModuleTable
  | [] => .ok modules
  | (name, node) :: rest => do
    let modules ← collectEntry (dir ++ [name]) modules node
    collectSources dir modules rest

end

end Walk

section Discovery

variable (classes : CharClasses) (tree : ProjectDir)

def moduleRootExists (moduleRoot : String) : Bool :=
  (tree.at? (moduleToFile moduleRoot)).any SourceNode.isFile ||
    (tree.at? (moduleToDir moduleRoot)).any SourceNode.isDir

def enumerateRoot (modules : ModuleTable) (sourceRoot : String) :
    Except LeanModuleDiscoveryDiagnostic ModuleTable :=
  let modules :=
    if (tree.at? (moduleToFile sourceRoot)).any SourceNode.isFile then
      modules.insert { module := sourceRoot, path := moduleToFile sourceRoot, sourceRoot }
    else modules
  match tree.at? (moduleToDir sourceRoot) with
  | some (.dir entries) =>
    collectSources classes sourceRoot (moduleToDir sourceRoot) modules entries
  | some (.closedDir source) =>
    .error (.io (moduleToDir sourceRoot) "could not read Lean source directory" source)
  | _ => .ok modules

def enumerateSources (selectedRoots : List String) :
    Except LeanModuleDiscoveryDiagnostic (List LeanModuleDescriptor) := do
  let modules ← selectedRoots.foldlM (enumerateRoot classes tree) []
  .ok (modules.map Prod.snd)

end Discovery

structure DiscoveryAnswers where
  toolchain : ToolchainFingerprint
  /-- The active toolchain and the supported window, if the one is outside the other. -/
  unsupported : Option (String × String)
  /-- `normalize_existing` and `lake_root_for`. -/
  located : Except LeanModuleDiscoveryDiagnostic Unit
  lakefile : Lakefile
  lakefileSha256 : Except LeanModuleDiscoveryDiagnostic String
  manifestSha256 : Option (Except LeanModuleDiscoveryDiagnostic String)
  modifiedNs : RelPath → Except LeanModuleDiscoveryDiagnostic Nat

section Roots

variable (formats : Formats) (classes : CharClasses) (tree : ProjectDir) (a : DiscoveryAnswers)

def sortDedup (names : List String) : List String :=
  (names.mergeSort fun x y => (compare x y).isLE).eraseReps

def readLakefileRoots : Except LeanModuleDiscoveryDiagnostic (List String) :=
  let path : RelPath := [.ofString a.lakefile.fileName]
  if a.lakefile.isToml then
    match a.lakefile.contents with
    | .error err => .error (.io path "could not read Lake TOML file" err)
    | .ok text =>
      match formats.toml text with
      | .error err => .error (.io path "could not parse Lake TOML file" err)
      | .ok parsed => .ok parsed.leanLibs
  else match a.lakefile.contents with
    | .error err => .error (.io path "could not read Lake file" err)
    | .ok text => .ok (Modules.discoverLeanLakefileRoots text)

def topLevelRoots : List String :=
  tree.entries.filterMap fun entry =>
    if entry.1.extension? = some leanExtension then
      (PathBuf.mk (entry.1.take (entry.1.length - leanExtension.length - 1))).toStr?
    else none

def discoverModuleRoots : Except LeanModuleDiscoveryDiagnostic (List String × List String) := do
  let read ← readLakefileRoots formats a
  let declared := sortDedup read
  declared.forM classes.checkModuleName
  if declared.isEmpty then
    let fallback := sortDedup (topLevelRoots tree)
    fallback.forM classes.checkModuleName
    .ok (declared, fallback)
  else .ok (declared, declared)

def fingerprintSourceSet (modules : List LeanModuleDescriptor) :
    Except LeanModuleDiscoveryDiagnostic LeanModuleSetFingerprint := do
  let lakefileSha256 ← a.lakefileSha256
  let manifestSha256 ← match a.manifestSha256 with
    | some digest => digest.map some
    | none => .ok none
  let times ← modules.mapM fun d => a.modifiedNs d.path
  .ok { toolchain := a.toolchain, lakefileSha256, manifestSha256,
        sourceCount := UInt64.ofNat modules.length, sourceMaxMtimeNs := times.foldl max 0 }

def checkRoot (root : String) : Except LeanModuleDiscoveryDiagnostic Unit := do
  classes.checkModuleName root
  if moduleRootExists tree root then .ok () else .error (.missingModuleRoot root)

def discoverLakeModules (selected : Option (List String)) :
    Except LeanModuleDiscoveryDiagnostic LeanLakeProjectModules :=
  match a.unsupported with
  | some (active, supportedWindow) => .error (.unsupportedToolchain active supportedWindow)
  | none => do
    a.located
    let roots ← discoverModuleRoots formats classes tree a
    let selectedRoots := selected.getD roots.2
    selectedRoots.forM (checkRoot classes tree)
    let modules ← enumerateSources classes tree selectedRoots
    let fingerprint ← fingerprintSourceSet a modules
    .ok { declaredLeanLibs := roots.1, moduleRoots := roots.2, selectedRoots, modules,
          fingerprint }

end Roots

end LeanRs
