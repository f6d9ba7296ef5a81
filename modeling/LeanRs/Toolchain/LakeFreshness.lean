import LeanRs.General.Fallible
import LeanRs.General.Text
import LeanRs.Toolchain.LakeCache
import Mathlib.Data.List.Dedup
import Mathlib.Order.Basic

/-! What a hit of the build cache says: since the last build of the target nothing that it was built
from has changed, unless a file was moved in. -/
namespace LeanRs

open Fallible Stamps Text

def scanned (path : RelPath) : Bool := collects path || namedSources.contains path

def modified (f : RelPath × SourceFile) : Int := f.2.modified

namespace ProjectTree

variable (tree : ProjectTree)

def sources : List (RelPath × SourceFile) := tree.files.filter fun f => scanned f.1

variable {tree}

theorem file?_eq_some {path : RelPath} {file : SourceFile} :
    tree.file? path = some file ↔ (path, file) ∈ tree.files := by
  obtain ⟨files, distinct⟩ := tree
  unfold file?
  dsimp only
  induction files with
  | nil => simp
  | cons f rest ih =>
    obtain ⟨other, later⟩ := List.nodup_cons.mp distinct
    obtain ⟨name, entry⟩ := f
    rw [List.mem_cons, ← ih later, Prod.mk.injEq]
    by_cases same : path = name
    · subst same
      have missing : rest.lookup path ≠ some file := fun found =>
        other (List.mem_map.mpr ⟨(path, file), (ih later).mp found, rfl⟩)
      simp only [List.lookup_cons_self, Option.some.injEq, true_and, missing, or_false]
      exact eq_comm
    · have skipped : (path == name) = false := beq_false_of_ne same
      simp only [List.lookup_cons, skipped, same, false_and, false_or]

theorem file?_isSome {path : RelPath} :
    (tree.file? path).isSome = true ↔ path ∈ tree.files.map Prod.fst := by
  rw [Option.isSome_iff_exists, List.mem_map]
  constructor
  · rintro ⟨file, found⟩
    exact ⟨(path, file), file?_eq_some.mp found, rfl⟩
  · rintro ⟨⟨path, file⟩, member, rfl⟩
    exact ⟨file, file?_eq_some.mpr member⟩

theorem mtimeNs_of_mem {f : RelPath × SourceFile} (member : f ∈ tree.files) :
    tree.mtimeNs f.1 = (modified f).toNat := by
  unfold mtimeNs
  rw [file?_eq_some.mpr (member : (f.1, f.2) ∈ tree.files)]
  rfl

theorem mem_sources {f : RelPath × SourceFile} :
    f ∈ tree.sources ↔ f ∈ tree.files ∧ scanned f.1 = true := List.mem_filter

theorem sources_distinct : tree.sources.Nodup := (tree.distinct_filter _).of_map _

theorem mem_scan_paths {path : RelPath} :
    path ∈ tree.scanSourceSet.paths ↔ path ∈ tree.sources.map Prod.fst := by
  have merged : path ∈ tree.scanSourceSet.paths ↔
      path ∈ tree.files.map Prod.fst ∧ scanned path = true := by
    show path ∈ List.dedup _ ↔ _
    rw [List.mem_dedup, List.mem_append, collectLeanSources, List.mem_filter, List.mem_filter,
      file?_isSome, scanned, Bool.or_eq_true, List.contains_iff_mem]
    tauto
  rw [merged, List.mem_map, List.mem_map]
  constructor
  · rintro ⟨⟨f, member, rfl⟩, chosen⟩
    exact ⟨f, mem_sources.mpr ⟨member, chosen⟩, rfl⟩
  · rintro ⟨f, member, rfl⟩
    obtain ⟨member, chosen⟩ := mem_sources.mp member
    exact ⟨⟨f, member, rfl⟩, chosen⟩

theorem scan_paths (tree : ProjectTree) :
    tree.scanSourceSet.paths.Perm (tree.sources.map Prod.fst) := by
  apply (List.perm_ext_iff_of_nodup _ (tree.distinct_filter _)).mpr
  · exact fun path => mem_scan_paths
  · exact List.nodup_dedup _

theorem scan_length (tree : ProjectTree) :
    tree.scanSourceSet.paths.length = tree.sources.length := by
  rw [(scan_paths tree).length_eq, List.length_map]

theorem foldl_max_le_iff {A : Type} (f : A → Nat) (items : List A) (start n : Nat) :
    items.foldl (fun latest a => max latest (f a)) start ≤ n ↔
      start ≤ n ∧ ∀ a ∈ items, f a ≤ n := by
  induction items generalizing start with
  | nil => simp
  | cons a rest ih =>
    rw [List.foldl_cons, ih, List.forall_mem_cons, Nat.max_le, and_assoc]

theorem scan_newest (tree : ProjectTree) :
    tree.scanSourceSet.maxMtimeNs = newest modified tree.sources := by
  apply eq_of_forall_ge_iff
  intro n
  show List.foldl _ 0 tree.scanSourceSet.paths ≤ n ↔ _
  rw [foldl_max_le_iff, newest_le_iff]
  constructor
  · rintro ⟨-, bound⟩ f member
    have latest := bound f.1 (mem_scan_paths.mpr (List.mem_map_of_mem member))
    rwa [mtimeNs_of_mem (mem_sources.mp member).1] at latest
  · intro bound
    refine ⟨Nat.zero_le _, fun path member => ?_⟩
    obtain ⟨f, source, rfl⟩ := List.mem_map.mp (mem_scan_paths.mp member)
    rw [mtimeNs_of_mem (mem_sources.mp source).1]
    exact bound f source

end ProjectTree

/-- A sysroot that its line in the key gives away: it is text of one line, and not called as the
environment's own is. -/
def LakeBuildOptions.PlainSysroot (options : LakeBuildOptions) : Prop :=
  ∀ path ∈ options.leanSysroot, path.Utf8 ∧ path.pathString ≠ "ambient" ∧
    '\n' ∉ path.pathString.toList

theorem sysroot_some {options : LakeBuildOptions} {path : PathBuf}
    (given : options.leanSysroot = some path) (utf8 : path.Utf8) :
    options.sysroot = path.pathString := by
  unfold LakeBuildOptions.sysroot PathBuf.toStr?
  rw [given]
  dsimp only
  rw [if_pos utf8]
  rfl

theorem sysroot_none {options : LakeBuildOptions} (unset : options.leanSysroot = none) :
    options.sysroot = "ambient" := by
  unfold LakeBuildOptions.sysroot
  rw [unset]

theorem sysroot_line {options : LakeBuildOptions} (plain : options.PlainSysroot) :
    '\n' ∉ options.sysroot.toList := by
  cases given : options.leanSysroot with
  | none =>
    rw [sysroot_none given]
    decide
  | some path =>
    obtain ⟨utf8, -, line⟩ := plain path given
    rw [sysroot_some given utf8]
    exact line

theorem sysroot_injective {options options' : LakeBuildOptions} (plain : options.PlainSysroot)
    (plain' : options'.PlainSysroot) (same : options.sysroot = options'.sysroot) :
    options.leanSysroot = options'.leanSysroot := by
  cases given : options.leanSysroot with
  | none =>
    cases given' : options'.leanSysroot with
    | none => rfl
    | some path' =>
      obtain ⟨utf8', other, -⟩ := plain' path' given'
      rw [sysroot_none given, sysroot_some given' utf8'] at same
      exact absurd same.symm other
  | some path =>
    obtain ⟨utf8, other, -⟩ := plain path given
    rw [sysroot_some given utf8] at same
    cases given' : options'.leanSysroot with
    | none =>
      rw [sysroot_none given'] at same
      exact absurd same other
    | some path' =>
      have utf8' := (plain' path' given').1
      rw [sysroot_some given' utf8'] at same
      rw [← utf8, ← utf8', same]

theorem cacheKey_lines (targetName packageName digest : String) (set : SourceSet)
    (options : LakeBuildOptions) :
    (cacheKey targetName packageName digest set options).toList =
      ((((("target=".toList ++ targetName.toList ++ "\npackage=".toList ++ packageName.toList) ++
        '\n' :: ("manifest=".toList ++ digest.toList)) ++
        '\n' :: ("source_count=".toList ++ set.paths.length.repr.toList)) ++
        '\n' :: ("source_max_mtime_ns=".toList ++ set.maxMtimeNs.repr.toList)) ++
        '\n' :: ("lean_sysroot=".toList ++ options.sysroot.toList)) ++ ['\n'] := by
  unfold cacheKey
  simp only [String.toList_append, List.append_assoc, List.cons_append]
  rfl

theorem cacheKey_injective {targetName targetName' packageName packageName' digest digest' : String}
    {set set' : SourceSet} {options options' : LakeBuildOptions}
    (length : targetName.toList.length = targetName'.toList.length)
    (line : '\n' ∉ digest.toList) (line' : '\n' ∉ digest'.toList)
    (plain : options.PlainSysroot) (plain' : options'.PlainSysroot)
    (same : cacheKey targetName packageName digest set options =
      cacheKey targetName' packageName' digest' set' options') :
    targetName = targetName' ∧ packageName = packageName' ∧ digest = digest' ∧
      set.paths.length = set'.paths.length ∧ set.maxMtimeNs = set'.maxMtimeNs ∧
      options.leanSysroot = options'.leanSysroot := by
  have lines := congrArg String.toList same
  rw [cacheKey_lines, cacheKey_lines] at lines
  obtain ⟨lines, -⟩ := split_last List.not_mem_nil List.not_mem_nil lines
  obtain ⟨lines, sysroot⟩ := split_last
    (not_mem_labelled (by decide) (sysroot_line plain))
    (not_mem_labelled (by decide) (sysroot_line plain')) lines
  obtain ⟨lines, newest⟩ := split_last (not_mem_labelled (by decide) (not_mem_repr (by decide) _))
    (not_mem_labelled (by decide) (not_mem_repr (by decide) _)) lines
  obtain ⟨lines, count⟩ := split_last (not_mem_labelled (by decide) (not_mem_repr (by decide) _))
    (not_mem_labelled (by decide) (not_mem_repr (by decide) _)) lines
  obtain ⟨lines, manifest⟩ := split_last (not_mem_labelled (by decide) line)
    (not_mem_labelled (by decide) line') lines
  -- the target has one length in both, so that where its line ends is the same
  rw [List.append_assoc, List.append_assoc, List.append_assoc, List.append_assoc] at lines
  obtain ⟨target, lines⟩ := List.append_inj (List.append_cancel_left lines) length
  have package := List.append_cancel_left lines
  exact ⟨String.toList_injective target, String.toList_injective package,
    String.toList_injective (List.append_cancel_left manifest),
    repr_injective (List.append_cancel_left count),
    repr_injective (List.append_cancel_left newest),
    sysroot_injective plain plain' (String.toList_injective (List.append_cancel_left sysroot))⟩

theorem cacheName_length {targetName targetName' : String}
    (same : cacheName targetName = cacheName targetName') :
    targetName.toList.length = targetName'.toList.length := by
  have names := congrArg (fun name : String => name.toList.length) same
  simpa [cacheName, sanitizeTargetName] using names

def Change.MovesInNothing (w : Worktree) : Change → Prop
  | .rename src dst => ∀ f ∈ w.tree.moved src dst, scanned f.1 = false
  | _ => True

namespace Worktree

/-- Every source is as old as the clock says, and the clock has not started before the epoch. -/
structure Stamped (w : Worktree) : Prop where
  epoch : 0 ≤ w.clock
  elapsed : Elapsed modified w.clock w.tree.sources

/-- What has become of the sources: those that are there are old, or have been written since. -/
structure Later (w w' : Worktree) : Prop where
  clock : w.clock ≤ w'.clock
  since : Stamps.Since modified w.clock w.tree.sources w'.tree.sources

variable {w w' : Worktree}

theorem Later.refl (w : Worktree) : w.Later w := ⟨Int.le_refl _, Stamps.Since.refl _ _⟩

theorem Later.trans {u v w : Worktree} (first : u.Later v) (second : v.Later w) : u.Later w :=
  ⟨Int.le_trans first.clock second.clock, first.since.trans first.clock second.since⟩

theorem kept_source {keep : RelPath × SourceFile → Bool} {f : RelPath × SourceFile}
    (member : f ∈ w.tree.files.filter keep) (source : scanned f.1 = true) :
    f ∈ w.tree.sources := ProjectTree.mem_sources.mpr ⟨(List.mem_filter.mp member).1, source⟩

theorem step_later {change : Change} (allowed : change.MovesInNothing w) (stamped : w.Stamped)
    (moved : w.step change = some w') : w.Later w' ∧ w'.Stamped := by
  cases change with
  | write path file =>
    simp only [step] at moved
    split at moved
    · rename_i newer
      obtain rfl := Option.some.inj moved
      have sources : ∀ f ∈ (w.tree.write path file).sources,
          f ∈ w.tree.sources ∨ modified f = file.modified := by
        intro f member
        obtain ⟨member, source⟩ := ProjectTree.mem_sources.mp member
        obtain rfl | old := List.mem_cons.mp member
        · exact .inr rfl
        · exact .inl (kept_source old source)
      refine ⟨⟨Int.le_of_lt newer, fun f member => ?_⟩,
        ⟨Int.le_trans stamped.epoch (Int.le_of_lt newer), fun f member => ?_⟩⟩
      · obtain old | stamp := sources f member
        · exact .inl old
        · exact .inr (stamp ▸ newer : w.clock < modified f)
      · obtain old | stamp := sources f member
        · exact Int.le_trans (stamped.elapsed f old) (Int.le_of_lt newer)
        · exact Int.le_of_eq stamp
    · cases moved
  | delete path =>
    obtain rfl := Option.some.inj moved
    have sources : ∀ f ∈ (w.tree.delete path).sources, f ∈ w.tree.sources := by
      intro f member
      obtain ⟨member, source⟩ := ProjectTree.mem_sources.mp member
      exact kept_source member source
    exact ⟨⟨Int.le_refl _, fun f member => .inl (sources f member)⟩,
      ⟨stamped.epoch, fun f member => stamped.elapsed f (sources f member)⟩⟩
  | rename src dst =>
    obtain rfl := Option.some.inj moved
    have sources : ∀ f ∈ (w.tree.rename src dst).sources, f ∈ w.tree.sources := by
      intro f member
      obtain ⟨member, source⟩ := ProjectTree.mem_sources.mp member
      obtain new | old := List.mem_append.mp member
      · exact absurd source (Bool.eq_false_iff.mp (allowed f new))
      · exact kept_source old source
    exact ⟨⟨Int.le_refl _, fun f member => .inl (sources f member)⟩,
      ⟨stamped.epoch, fun f member => stamped.elapsed f (sources f member)⟩⟩

/-- The changes are made one after the other, and none of them moves a source in. -/
def MoveInNothing (w : Worktree) (changes : List Change) : Prop :=
  Runs.Guarded step (fun w change => change.MovesInNothing w) w changes

theorem run_later {changes : List Change} (allowed : w.MoveInNothing changes)
    (stamped : w.Stamped) (reached : Runs.run step w changes = some w') :
    w.Later w' ∧ w'.Stamped := by
  apply Runs.invariant_of_guarded (I := fun v => w.Later v ∧ v.Stamped) _
    ⟨Later.refl w, stamped⟩ allowed reached
  intro v change u held allowed moved
  obtain ⟨later, stamped⟩ := step_later allowed held.2 moved
  exact ⟨held.1.trans later, stamped⟩

end Worktree

def LakeBuild.key (formats : Formats) (built : LakeBuild) : String :=
  cacheKey built.targetName built.packageName (manifestDigest formats built.manifest)
    built.tree.scanSourceSet built.options

namespace LakeProject

variable {formats : Formats} {projectRoot : PathBuf} {targetName : String}
  {options : LakeBuildOptions} {project : LakeProject} {a : BuildAnswers} {after : Worktree}

/-- How a call can end: nothing has been done, Lake has been run in vain, or the build is recorded
under the key of what it was built from. -/
inductive Called (formats : Formats) (targetName : String) (options : LakeBuildOptions)
    (project : LakeProject) (after : Worktree) :
    Except LinkDiagnostics (PathBuf × Option LakeBuild) × LakeProject → Prop
  | idle (result) (nothing : ∀ dylib built, result ≠ .ok (dylib, some built)) :
    Called formats targetName options project after (result, project)
  | vain (err) : Called formats targetName options project after
      (.error err, { project with worktree := after })
  | lost (err) : Called formats targetName options project after
      (.error err, { project with worktree := after }.setCache (cacheName targetName) (some ""))
  | recorded (dylib) (built : LakeBuild) (target : built.targetName = targetName)
      (tree : built.tree = project.worktree.tree) (given : built.options = options) :
    Called formats targetName options project after (.ok (dylib, some built),
      { project with worktree := after }.setCache (cacheName targetName)
        (some (built.key formats)))

theorem resolveBuilt_ok {before : Prepared} {tree tree' : ProjectTree} {dylib : PathBuf}
    {built : LakeBuild}
    (resolved : resolveBuilt formats targetName options before tree tree' a =
      .ok (dylib, built)) :
    built.targetName = targetName ∧ built.tree = tree ∧ built.options = options := by
  obtain ⟨final, -, resolved⟩ := bind_ok.mp resolved
  dsimp only at resolved
  split at resolved
  · cases resolved
  · cases resolved
    exact ⟨rfl, rfl, rfl⟩

theorem prepareBuild_ok {tree : ProjectTree} {before : Prepared}
    (prepared : prepareBuild formats projectRoot targetName tree a = .ok before) :
    before.sourceSet = tree.scanSourceSet := by
  unfold prepareBuild at prepared
  cases root : a.canonicalize with
  | error err => rw [root] at prepared; cases prepared
  | ok root' =>
    rw [root] at prepared
    obtain ⟨lakefile, -, prepared⟩ := bind_ok.mp prepared
    obtain ⟨declared, -, prepared⟩ := bind_ok.mp prepared
    split at prepared
    · cases prepared
    · obtain ⟨manifest, -, prepared⟩ := bind_ok.mp prepared
      cases failed : a.scan with
      | some reason => rw [failed] at prepared; cases prepared
      | none =>
        rw [failed] at prepared
        cases prepared
        rfl

theorem buildLakeTarget_called :
    Called formats targetName options project after
      (project.buildLakeTarget formats projectRoot targetName options a after) := by
  unfold buildLakeTarget
  cases prepared : prepareBuild formats projectRoot targetName project.worktree.tree a with
  | error err => exact .idle _ fun _ _ => by simp
  | ok before =>
    dsimp only
    split
    · exact .idle _ fun _ _ => by simp
    · cases a.lake with
      | error err => exact .idle _ fun _ _ => by simp
      | ok run =>
        dsimp only
        split
        · exact .vain _
        · cases resolved : resolveBuilt formats targetName options before
            project.worktree.tree after.tree a with
          | error err => exact .vain _
          | ok out =>
            obtain ⟨dylib, built⟩ := out
            obtain ⟨target, tree, given⟩ := resolveBuilt_ok resolved
            have key : cacheKey targetName built.packageName
                (manifestDigest formats built.manifest) before.sourceSet options =
                  built.key formats := by
              rw [prepareBuild_ok prepared, LakeBuild.key, target, tree, given]
            dsimp only
            rw [key]
            unfold storeKey
            cases a.cacheWrite with
            | written => exact .recorded dylib built target tree given
            | noDirectory err => exact .vain _
            | failed err truncated =>
              cases truncated with
              | true => exact .lost _
              | false => exact .vain _

theorem buildLakeTarget_hit {dylib : PathBuf} {project' : LakeProject}
    (hit : project.buildLakeTarget formats projectRoot targetName options a after =
      (.ok (dylib, none), project')) :
    ∃ before, prepareBuild formats projectRoot targetName project.worktree.tree a = .ok before ∧
      project.cache (cacheName targetName) = some (cacheKey targetName before.packageName
        (manifestDigest formats before.manifest) project.worktree.tree.scanSourceSet options) := by
  unfold buildLakeTarget at hit
  cases prepared : prepareBuild formats projectRoot targetName project.worktree.tree a with
  | error err => rw [prepared] at hit; cases hit
  | ok before =>
    rw [prepared] at hit
    dsimp only at hit
    refine ⟨before, rfl, ?_⟩
    rw [← prepareBuild_ok prepared]
    split at hit
    · rename_i found
      exact eq_of_beq (Bool.and_eq_true_iff.mp found).2
    · cases started : a.lake with
      | error err => rw [started] at hit; cases hit
      | ok run =>
        rw [started] at hit
        dsimp only at hit
        split at hit
        · cases hit
        · cases resolved : resolveBuilt formats targetName options before
            project.worktree.tree after.tree a with
          | error err => rw [resolved] at hit; cases hit
          | ok out =>
            rw [resolved] at hit
            unfold storeKey at hit
            cases stored : a.cacheWrite <;> rw [stored] at hit <;> cases hit

end LakeProject

/-- A project, and what has been built of it and recorded, the latest first. -/
structure BuildHistory where
  project : LakeProject
  builds : List LakeBuild

inductive BuildEvent where
  | change (change : Change)
  | build (targetName : String) (options : LakeBuildOptions) (a : BuildAnswers)

namespace BuildHistory

variable (formats : Formats) (projectRoot : PathBuf)

def start (worktree : Worktree) : BuildHistory := ⟨⟨worktree, fun _ => none⟩, []⟩

def record (s : BuildHistory) :
    Except LinkDiagnostics (PathBuf × Option LakeBuild) × LakeProject → BuildHistory
  | (.ok (_, some built), project) => ⟨project, built :: s.builds⟩
  | (_, project) => ⟨project, s.builds⟩

def step (s : BuildHistory) : BuildEvent → Option BuildHistory
  | .change change => (s.project.worktree.step change).map fun worktree =>
    { s with project := { s.project with worktree := worktree } }
  | .build targetName options a =>
    (Runs.run Worktree.step s.project.worktree a.during).map fun after =>
      s.record (s.project.buildLakeTarget formats projectRoot targetName options a after)

def lastBuild (s : BuildHistory) (targetName : String) : Option LakeBuild :=
  s.builds.find? fun built => built.targetName == targetName

/-- What is asked of an event: no source is moved in, and a sysroot is plain text. -/
def Allowed (s : BuildHistory) : BuildEvent → Prop
  | .change change => change.MovesInNothing s.project.worktree
  | .build _ options a => options.PlainSysroot ∧ s.project.worktree.MoveInNothing a.during

/-- The last build of its target, and what has become of the sources since. -/
structure Current (s : BuildHistory) (built : LakeBuild) : Prop where
  last : s.lastBuild built.targetName = some built
  plain : built.options.PlainSysroot
  since : ∃ clock, (Worktree.mk built.tree clock).Stamped ∧
    (Worktree.mk built.tree clock).Later s.project.worktree

/-- A cache file that says anything says the key of the last build of some target. -/
structure Sound (s : BuildHistory) : Prop where
  stamped : s.project.worktree.Stamped
  cached : ∀ name text, s.project.cache name = some text → text = "" ∨
    ∃ built, text = built.key formats ∧ cacheName built.targetName = name ∧ s.Current built

variable {formats projectRoot} {s t : BuildHistory}

theorem start_sound {worktree : Worktree} (stamped : worktree.Stamped) :
    (start worktree).Sound formats := ⟨stamped, nofun⟩

theorem Sound.later (sound : s.Sound formats) {w : Worktree}
    (later : s.project.worktree.Later w) (stamped : w.Stamped) :
    ({ s with project := { s.project with worktree := w } } : BuildHistory).Sound formats := by
  refine ⟨stamped, fun name text found => ?_⟩
  obtain empty | ⟨built, key, named, current⟩ := sound.cached name text found
  · exact .inl empty
  · obtain ⟨clock, stamped', since⟩ := current.since
    exact .inr ⟨built, key, named, current.last, current.plain, clock, stamped',
      since.trans later⟩

theorem Sound.emptied (sound : s.Sound formats) (name : String) :
    ({ s with project := s.project.setCache name (some "") } : BuildHistory).Sound formats := by
  refine ⟨sound.stamped, fun other text found => ?_⟩
  simp only [LakeProject.setCache] at found
  split at found
  · exact .inl (Option.some.inj found).symm
  · obtain empty | ⟨built, key, named, current⟩ := sound.cached other text found
    · exact .inl empty
    · exact .inr ⟨built, key, named, current.last, current.plain, current.since⟩

theorem Sound.recorded (sound : s.Sound formats) {built : LakeBuild}
    (plain : built.options.PlainSysroot)
    (since : ∃ clock, (Worktree.mk built.tree clock).Stamped ∧
      (Worktree.mk built.tree clock).Later s.project.worktree) :
    (BuildHistory.mk (s.project.setCache (cacheName built.targetName)
      (some (built.key formats))) (built :: s.builds)).Sound formats := by
  refine ⟨sound.stamped, fun name text found => ?_⟩
  simp only [LakeProject.setCache] at found
  split at found
  · rename_i named
    refine .inr ⟨built, (Option.some.inj found).symm, named.symm, ?_, plain, since⟩
    exact List.find?_cons_of_pos (beq_self_eq_true _)
  · rename_i apart
    obtain empty | ⟨earlier, key, named, current⟩ := sound.cached name text found
    · exact .inl empty
    · refine .inr ⟨earlier, key, named, ?_, current.plain, current.since⟩
      have other : (built.targetName == earlier.targetName) = false := by
        apply beq_false_of_ne
        intro same
        exact apart (named ▸ congrArg cacheName same).symm
      show List.find? _ (built :: s.builds) = some earlier
      rw [List.find?_cons, other]
      exact current.last

theorem step_sound (event : BuildEvent) (sound : s.Sound formats) (allowed : s.Allowed event)
    (moved : s.step formats projectRoot event = some t) : t.Sound formats := by
  cases event with
  | change change =>
    obtain ⟨w, stepped, rfl⟩ := Option.map_eq_some_iff.mp moved
    obtain ⟨later, stamped⟩ := Worktree.step_later allowed sound.stamped stepped
    exact sound.later later stamped
  | build targetName options a =>
    obtain ⟨after, ran, rfl⟩ := Option.map_eq_some_iff.mp moved
    obtain ⟨plain, still⟩ := allowed
    obtain ⟨later, stamped⟩ := Worktree.run_later still sound.stamped ran
    have called : LakeProject.Called formats targetName options s.project after
        (s.project.buildLakeTarget formats projectRoot targetName options a after) :=
      LakeProject.buildLakeTarget_called
    have changed := sound.later later stamped
    generalize s.project.buildLakeTarget formats projectRoot targetName options a after = out
      at called
    cases called with
    | idle result nothing =>
      have same : s.record (result, s.project) = s := by
        unfold record
        split
        · rename_i outcome
          cases outcome
          exact absurd rfl (nothing _ _)
        · rename_i outcome
          cases outcome
          rfl
      rw [same]
      exact sound
    | vain err => exact changed
    | lost err => exact changed.emptied (cacheName targetName)
    | recorded dylib built target tree given =>
      subst target given
      refine changed.recorded plain ⟨s.project.worktree.clock, ?_⟩
      rw [tree]
      exact ⟨sound.stamped, later⟩

theorem run_sound {events : List BuildEvent} (sound : s.Sound formats)
    (allowed : Runs.Guarded (step formats projectRoot) Allowed s events)
    (reached : Runs.run (step formats projectRoot) s events = some t) : t.Sound formats :=
  Runs.invariant_of_guarded (fun _ event _ sound allowed moved =>
    step_sound event sound allowed moved) sound allowed reached

end BuildHistory

def Formats.HexDigests (formats : Formats) : Prop :=
  ∀ bytes, ∀ c ∈ (formats.sha256Hex bytes).toList, c ∈ "0123456789abcdef".toList

theorem digest_line {formats : Formats} (hex : formats.HexDigests)
    (manifest : Option (List UInt8)) : '\n' ∉ (manifestDigest formats manifest).toList := by
  cases manifest with
  | none => exact (by decide : '\n' ∉ "missing".toList)
  | some manifestBytes => exact fun member => absurd (hex manifestBytes _ member) (by decide)

theorem digest_ne_missing {formats : Formats} (hex : formats.HexDigests) (bytes : List UInt8) :
    formats.sha256Hex bytes ≠ "missing" := by
  intro missing
  have inside : 'm' ∈ (formats.sha256Hex bytes).toList := missing ▸ (by decide)
  exact absurd (hex bytes 'm' inside) (by decide)

theorem manifest_of_digest {formats : Formats} (hex : formats.HexDigests)
    {manifest manifest' : Option (List UInt8)}
    (same : manifestDigest formats manifest = manifestDigest formats manifest') :
    manifest = manifest' ∨ ∃ b b', manifest = some b ∧ manifest' = some b' ∧ b ≠ b' ∧
      formats.sha256Hex b = formats.sha256Hex b' := by
  cases manifest with
  | none =>
    cases manifest' with
    | none => exact .inl rfl
    | some b' => exact absurd same.symm (digest_ne_missing hex b')
  | some b =>
    cases manifest' with
    | none => exact absurd same (digest_ne_missing hex b)
    | some b' =>
      by_cases equal : b = b'
      · exact .inl (congrArg some equal)
      · exact .inr ⟨b, b', rfl, rfl, equal, same⟩

def smallProject : Worktree where
  tree :=
    { files := [([FileName.ofString "lakefile.lean"],
          ⟨FileName.ofString "package p\nlean_lib a", 1⟩),
        ([FileName.ofString "A.lean"], ⟨[], 2⟩)]
      distinct := by decide +kernel }
  clock := 2

theorem smallProject_stamped : smallProject.Stamped where
  epoch := by decide
  elapsed f member := by
    obtain ⟨member, -⟩ := ProjectTree.mem_sources.mp member
    obtain rfl | member := List.mem_cons.mp member
    · exact (by decide : (1 : Int) ≤ 2)
    · obtain rfl := List.mem_singleton.mp member
      exact Int.le_refl 2

def bareFormats : Formats := ⟨fun _ => .error "", fun _ => .error "", fun _ => ""⟩

theorem bareFormats_hex : bareFormats.HexDigests := fun _ _ member => absurd member List.not_mem_nil

def BuildAnswers.smooth : BuildAnswers where
  canonicalize := .ok ⟨[]⟩
  refuses _ := none
  scan := none
  outputs := ⟨fun _ => true, false⟩
  cacheRefused := false
  lake := .ok ⟨true, "", [], []⟩
  during := []
  refusesAfter _ := none
  outputsAfter := ⟨fun _ => true, false⟩
  cacheWrite := .written

theorem plain_default : LakeBuildOptions.PlainSysroot {} := nofun

def isHit (out : Except LinkDiagnostics (PathBuf × Option LakeBuild) × LakeProject) : Bool :=
  match out with
  | (.ok (_, none), _) => true
  | _ => false

theorem exists_of_isHit {out : Except LinkDiagnostics (PathBuf × Option LakeBuild) × LakeProject}
    (hit : isHit out = true) : ∃ dylib project, out = (.ok (dylib, none), project) := by
  obtain ⟨_ | ⟨dylib, _ | built⟩, project⟩ := out
  · cases hit
  · exact ⟨dylib, project, rfl⟩
  · cases hit

def builtOnce : List BuildEvent := [.build "a" {} .smooth]

theorem second_call_hits : ∃ s,
    Runs.run (BuildHistory.step bareFormats ⟨[]⟩) (.start smallProject) builtOnce = some s ∧
    isHit (s.project.buildLakeTarget bareFormats ⟨[]⟩ "a" {} .smooth s.project.worktree) :=
  ⟨_, rfl, by decide +kernel⟩

/-- A module is renamed after the build: as many files, none of them newer. -/
def renamedAfterBuild : List BuildEvent :=
  builtOnce ++ [.change (.rename [FileName.ofString "A.lean"] [FileName.ofString "B.lean"])]

def contents (tree : ProjectTree) : List (RelPath × List UInt8) :=
  tree.sources.map fun f => (f.1, f.2.content)

theorem ambient_sysroot_is_not_told_apart : ∃ s,
    Runs.run (BuildHistory.step bareFormats ⟨[]⟩) (.start smallProject) builtOnce = some s ∧
    isHit (s.project.buildLakeTarget bareFormats ⟨[]⟩ "a" ⟨some (.ofString "ambient"), none⟩
      .smooth s.project.worktree) :=
  ⟨_, rfl, by decide +kernel⟩

/-- Lake builds a further module, but the key cannot be written; then that module goes again. -/
def unrecordedBuild : List BuildEvent :=
  builtOnce ++ [.change (.write [FileName.ofString "C.lean"] ⟨[], 3⟩),
    .build "a" {} { BuildAnswers.smooth with cacheWrite := .failed "" false },
    .change (.delete [FileName.ofString "C.lean"])]

theorem unrecorded_build_is_not_seen : ∃ s,
    Runs.run (BuildHistory.step bareFormats ⟨[]⟩) (.start smallProject) unrecordedBuild = some s ∧
    isHit (s.project.buildLakeTarget bareFormats ⟨[]⟩ "a" {} .smooth s.project.worktree) :=
  (Option.any_eq_true _ _).mp (by decide +kernel)

end LeanRs
