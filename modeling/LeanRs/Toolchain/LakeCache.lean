import LeanRs.General.Runs
import LeanRs.General.Stamps
import LeanRs.Toolchain.Lake
import Mathlib.Data.List.Nodup

/-! The cache in front of Lake: what is scanned of a project, the key that sums it up, and when a
shared library is returned without running Lake. -/
namespace LeanRs

abbrev FileName := List UInt8

abbrev RelPath := List FileName

def FileName.ofString (text : String) : FileName := (PathBuf.ofString text).bytes

structure SourceFile where
  content : List UInt8
  /-- Nanoseconds after the epoch. -/
  modified : Int
  deriving DecidableEq

/-- The files below the root. A directory is there as far as a file is in it. -/
structure ProjectTree where
  files : List (RelPath × SourceFile)
  distinct : (files.map Prod.fst).Nodup

namespace ProjectTree

variable (tree : ProjectTree)

def file? (path : RelPath) : Option SourceFile := tree.files.lookup path

def topFile? (name : String) : Option SourceFile := tree.file? [.ofString name]

/-- `fs::read`, where the system may refuse to read a file. -/
def read (refuses : RelPath → Option String) (name : String) : FileRead :=
  match refuses [.ofString name] with
  | some err => .failed err
  | none =>
    match tree.topFile? name with
    | none => .notFound "No such file or directory (os error 2)"
    | some file => .bytes file.content

def readToString (refuses : RelPath → Option String) (name : String) (file : SourceFile) :
    Except String String :=
  match refuses [.ofString name] with
  | some err => .error err
  | none =>
    match (PathBuf.mk file.content).toStr? with
    | some text => .ok text
    | none => .error "stream did not contain valid UTF-8"

def existingLakefile (refuses : RelPath → Option String) : Option Lakefile :=
  match tree.topFile? "lakefile.toml" with
  | some file => some ⟨true, readToString refuses "lakefile.toml" file⟩
  | none => (tree.topFile? "lakefile.lean").map fun file =>
    ⟨false, readToString refuses "lakefile.lean" file⟩

end ProjectTree

/-- `Path::extension`: what stands after the last dot, if anything stands before it. -/
def FileName.extension? (name : FileName) : Option FileName :=
  let before := ((name.reverse.dropWhile (· != 46)).drop 1).reverse
  if before = [] then none else some (name.reverse.takeWhile (· != 46)).reverse

def lakeDir : FileName := .ofString ".lake"

/-- Whether the descent from the root, which passes over everything called `.lake`, comes to the
file and collects it. -/
def collects : RelPath → Bool
  | [] => false
  | [name] => name != lakeDir && name.extension? == some (.ofString "lean")
  | dir :: rest => dir != lakeDir && collects rest

def namedSources : List RelPath :=
  ["lakefile.lean", "lakefile.toml", "lean-toolchain"].map fun name => [.ofString name]

structure SourceSet where
  paths : List RelPath
  maxMtimeNs : Nat

namespace ProjectTree

variable (tree : ProjectTree)

def collectLeanSources : List RelPath := (tree.files.map Prod.fst).filter collects

def mtimeNs (path : RelPath) : Nat :=
  match tree.file? path with
  | none => 0
  | some file => file.modified.toNat

/-- `scan_source_set`, but for the order of the paths. -/
def scanSourceSet : SourceSet :=
  let paths := (tree.collectLeanSources ++
    namedSources.filter fun path => (tree.file? path).isSome).dedup
  ⟨paths, paths.foldl (fun latest path => max latest (tree.mtimeNs path)) 0⟩

end ProjectTree

structure LakeBuildOptions where
  leanSysroot : Option PathBuf := none
  leanNumThreads : Option Nat := none
  deriving DecidableEq

def LakeBuildOptions.sysroot (options : LakeBuildOptions) : String :=
  match options.leanSysroot with
  | none => "ambient"
  | some path => path.toStr?.getD "<non-utf8-sysroot>"

def cacheKey (targetName packageName manifestDigest : String) (sourceSet : SourceSet)
    (options : LakeBuildOptions) : String :=
  "target=" ++ targetName ++ "\npackage=" ++ packageName ++ "\nmanifest=" ++ manifestDigest ++
    "\nsource_count=" ++ sourceSet.paths.length.repr ++ "\nsource_max_mtime_ns=" ++
    sourceSet.maxMtimeNs.repr ++ "\nlean_sysroot=" ++ options.sysroot ++ "\n"

/-- The name of the cache file, in the cache directory of the project. -/
def cacheName (targetName : String) : String := sanitizeTargetName targetName ++ ".cache"

inductive Change where
  /-- A file is created or edited. -/
  | write (path : RelPath) (file : SourceFile)
  /-- A file or a directory goes. -/
  | delete (path : RelPath)
  /-- A file or a directory moves, and replaces what is there. -/
  | rename (src dst : RelPath)

def relocate (src dst path : RelPath) : RelPath := dst ++ path.drop src.length

namespace ProjectTree

variable (tree : ProjectTree)

theorem distinct_filter (keep : RelPath × SourceFile → Bool) :
    ((tree.files.filter keep).map Prod.fst).Nodup :=
  tree.distinct.sublist (List.filter_sublist.map _)

def write (path : RelPath) (file : SourceFile) : ProjectTree where
  files := (path, file) :: tree.files.filter fun f => f.1 != path
  distinct := by
    refine List.nodup_cons.mpr ⟨fun member => ?_, tree.distinct_filter _⟩
    obtain ⟨f, member, same⟩ := List.mem_map.mp member
    have other := (List.mem_filter.mp member).2
    exact absurd same (by simpa using other)

def delete (path : RelPath) : ProjectTree where
  files := tree.files.filter fun f => !path.isPrefixOf f.1
  distinct := tree.distinct_filter _

def moved (src dst : RelPath) : List (RelPath × SourceFile) :=
  (tree.files.filter fun f => src.isPrefixOf f.1).map fun f => (relocate src dst f.1, f.2)

theorem moved_distinct (src dst : RelPath) : ((tree.moved src dst).map Prod.fst).Nodup := by
  have paths : (tree.moved src dst).map Prod.fst =
      ((tree.files.filter fun f => src.isPrefixOf f.1).map Prod.fst).map (relocate src dst) := by
    unfold moved
    rw [List.map_map, List.map_map]
    rfl
  rw [paths]
  apply List.Nodup.map_on ?_ (tree.distinct_filter _)
  intro p first q second same
  obtain ⟨f, inside, rfl⟩ := List.mem_map.mp first
  obtain ⟨g, inside', rfl⟩ := List.mem_map.mp second
  obtain ⟨u, below⟩ := List.isPrefixOf_iff_prefix.mp (List.mem_filter.mp inside).2
  obtain ⟨v, below'⟩ := List.isPrefixOf_iff_prefix.mp (List.mem_filter.mp inside').2
  rw [← below, ← below'] at same ⊢
  unfold relocate at same
  rw [List.drop_left, List.drop_left] at same
  rw [List.append_cancel_left same]

def rename (src dst : RelPath) : ProjectTree where
  files := tree.moved src dst ++
    tree.files.filter fun f => !src.isPrefixOf f.1 && !dst.isPrefixOf f.1
  distinct := by
    rw [List.map_append]
    apply List.nodup_append'.mpr
    refine ⟨tree.moved_distinct src dst, tree.distinct_filter _, fun p new old => ?_⟩
    obtain ⟨f, member, rfl⟩ := List.mem_map.mp new
    obtain ⟨g, -, rfl⟩ := List.mem_map.mp member
    obtain ⟨h, kept, same⟩ := List.mem_map.mp old
    have apart := (List.mem_filter.mp kept).2
    rw [same] at apart
    have below : dst.isPrefixOf (relocate src dst g.1) = true :=
      List.isPrefixOf_iff_prefix.mpr (List.prefix_append _ _)
    simp [below] at apart

end ProjectTree

def Change.apply (tree : ProjectTree) : Change → ProjectTree
  | .write path file => tree.write path file
  | .delete path => tree.delete path
  | .rename src dst => tree.rename src dst

structure Worktree where
  tree : ProjectTree
  clock : Int

/-- What is written is stamped with a time that is later than all before. -/
def Worktree.step (w : Worktree) (change : Change) : Option Worktree :=
  match change with
  | .write _ file =>
    if w.clock < file.modified then some ⟨change.apply w.tree, file.modified⟩ else none
  | _ => some ⟨change.apply w.tree, w.clock⟩

structure LakeRun where
  success : Bool
  status : String
  stdout : List UInt8
  stderr : List UInt8

def collapseBlanks (cs : List Char) : String :=
  " ".intercalate (((cs.splitOnP isWhiteSpace).filter fun word => !word.isEmpty).map String.ofList)

def commandDetail (stdout stderr : List UInt8) : String :=
  let shown (bytes : List UInt8) := (PathBuf.mk bytes).pathString
  let raw := if stdout = [] then shown stderr
    else if stderr = [] then shown stdout
    else shown stderr ++ " | " ++ shown stdout
  let collapsed := collapseBlanks raw.toList
  if collapsed = "" then "no output"
  else if 1024 < collapsed.utf8ByteSize then String.ofList (collapsed.toList.take 1024) ++ "..."
  else collapsed

/-- How the cache file is written. A failed write leaves it alone, or empty. -/
inductive CacheWrite where
  | written
  | noDirectory (err : String)
  | failed (err : String) (truncated : Bool)

/-- What a call meets. While Lake runs, it and others change files. -/
structure BuildAnswers where
  canonicalize : Except String PathBuf
  refuses : RelPath → Option String
  scan : Option String
  outputs : OutputAnswers
  cacheRefused : Bool
  lake : Except String LakeRun
  during : List Change
  refusesAfter : RelPath → Option String
  outputsAfter : OutputAnswers
  cacheWrite : CacheWrite

structure LakeBuild where
  targetName : String
  packageName : String
  manifest : Option (List UInt8)
  tree : ProjectTree
  options : LakeBuildOptions

structure Prepared where
  projectRoot : PathBuf
  packageName : String
  manifest : Option (List UInt8)
  sourceSet : SourceSet

section Build

variable (formats : Formats) (projectRoot : PathBuf) (targetName : String)
  (options : LakeBuildOptions)

def manifestDigest (manifest : Option (List UInt8)) : String :=
  match manifest with
  | some manifestBytes => formats.sha256Hex manifestBytes
  | none => "missing"

/-- The manifest and the package name. Without a manifest the lakefile has the name. -/
def readManifest (tree : ProjectTree) (lakefile : Lakefile) (refuses : RelPath → Option String)
    (root : PathBuf) : Except LinkDiagnostics (Option (List UInt8) × String) :=
  match tree.read refuses "lake-manifest.json" with
  | .bytes manifestBytes =>
    (packageNameFromManifest formats root targetName (manifestPath root) manifestBytes).map
      fun name => (some manifestBytes, name)
  | .notFound _ =>
    (packageNameFromLakefile formats root targetName lakefile).map fun name => (none, name)
  | .failed err => .error (unresolved root targetName
      ("could not read " ++ (manifestPath root).pathString ++ " (" ++ err ++ ")"))

def prepareBuild (tree : ProjectTree) (a : BuildAnswers) : Except LinkDiagnostics Prepared :=
  match a.canonicalize with
  | .error err => .error (unresolved projectRoot targetName
      ("could not canonicalize project root " ++ projectRoot.pathString ++ " (" ++ err ++ ")"))
  | .ok root => do
    let lakefile ← requireLakefile root targetName (tree.existingLakefile a.refuses)
    let declared ← targetDeclaredInLakefile formats root targetName lakefile
    if !declared then .error (.lakeTargetMissing root targetName)
    else do
      let (manifest, packageName) ← readManifest formats targetName tree lakefile a.refuses root
      match a.scan with
      | some reason => .error (unresolved root targetName reason)
      | none => .ok ⟨root, packageName, manifest, tree.scanSourceSet⟩

/-- The manifest and the package name after Lake has run. A manifest that cannot be read changes
nothing. -/
def readFinalManifest (before : Prepared) (tree : ProjectTree) (a : BuildAnswers) :
    Except LinkDiagnostics (Option (List UInt8) × String) :=
  match tree.read a.refusesAfter "lake-manifest.json" with
  | .bytes manifestBytes =>
    (packageNameFromManifest formats before.projectRoot targetName
      (manifestPath before.projectRoot) manifestBytes).map fun name => (some manifestBytes, name)
  | _ => .ok (before.manifest, before.packageName)

def resolveBuilt (before : Prepared) (tree tree' : ProjectTree) (a : BuildAnswers) :
    Except LinkDiagnostics (PathBuf × LakeBuild) := do
  let (manifest, packageName) ← readFinalManifest formats targetName before tree' a
  let dylib := resolveDylibPath a.outputsAfter before.projectRoot packageName targetName
  if !a.outputsAfter.isFile dylib then
    .error (unresolved before.projectRoot targetName
      ("expected shared library at " ++ dylib.pathString))
  else .ok (dylib, ⟨targetName, packageName, manifest, tree, options⟩)

end Build

structure LakeProject where
  worktree : Worktree
  cache : String → Option String

namespace LakeProject

variable (formats : Formats) (projectRoot : PathBuf) (targetName : String)
  (options : LakeBuildOptions) (project : LakeProject) (a : BuildAnswers)

def setCache (name : String) (text : Option String) : LakeProject :=
  { project with cache := fun other => if other = name then text else project.cache other }

def cacheDir (root : PathBuf) : PathBuf := (root.joinStr ".lake").joinStr "lean-rs-build-cache"

def storeKey (root dylib : PathBuf) (built : LakeBuild) (key : String) :
    Except LinkDiagnostics (PathBuf × Option LakeBuild) × LakeProject :=
  match a.cacheWrite with
  | .written => (.ok (dylib, some built), project.setCache (cacheName targetName) (some key))
  | .noDirectory err => (.error (unresolved root targetName
      ("could not create cache directory " ++ (cacheDir root).pathString ++ " (" ++ err ++ ")")),
      project)
  | .failed err truncated => (.error (unresolved root targetName
      ("could not write cache file " ++
        ((cacheDir root).joinStr (cacheName targetName)).pathString ++ " (" ++ err ++ ")")),
      if truncated then project.setCache (cacheName targetName) (some "") else project)

/-- `build_lake_target`: the shared library, and what was built if Lake was run. `after` is what the
files have become when Lake has ended. -/
def buildLakeTarget (after : Worktree) :
    Except LinkDiagnostics (PathBuf × Option LakeBuild) × LakeProject :=
  match prepareBuild formats projectRoot targetName project.worktree.tree a with
  | .error err => (.error err, project)
  | .ok before =>
    let dylib := resolveDylibPath a.outputs before.projectRoot before.packageName targetName
    let initialCacheKey := cacheKey targetName before.packageName
      (manifestDigest formats before.manifest) before.sourceSet options
    if a.outputs.isFile dylib && !a.cacheRefused &&
        project.cache (cacheName targetName) == some initialCacheKey then
      (.ok (dylib, none), project)
    else
      match a.lake with
      | .error err => (.error (.lakeUnavailable before.projectRoot targetName err), project)
      | .ok run =>
        let changed : LakeProject := { project with worktree := after }
        if !run.success then
          (.error (.lakeBuildFailed before.projectRoot targetName run.status
            (commandDetail run.stdout run.stderr)), changed)
        else
          match resolveBuilt formats targetName options before project.worktree.tree after.tree
            a with
          | .error err => (.error err, changed)
          | .ok (dylib, built) => changed.storeKey targetName a before.projectRoot dylib built
              (cacheKey targetName built.packageName (manifestDigest formats built.manifest)
                before.sourceSet options)

end LakeProject

end LeanRs
