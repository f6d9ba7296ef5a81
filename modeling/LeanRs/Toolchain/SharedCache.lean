import LeanRs.General.Runs
import LeanRs.Toolchain.SourcePackage
import Mathlib.Data.List.AList

/-! Calls that share a cache root: what each of them does to the directory of its digest, one file
system operation at a time, while the others take their steps. -/
namespace LeanRs

/-- What is done in the temporary directory, in one operation. -/
inductive BuildStep where
  | createDir (path : PathBuf) (action : String)
  | putFile (path : PathBuf) (action parentAction : String) (contents : List UInt8)
  | validate (policy : SourcePackageManifestPolicy)
  | sentinel (path : PathBuf)
  /-- The call stops before it touches the directory. -/
  | refuse (err : SourcePackageError)

def BuildStep.run (formats : SourceFormats) (root : PathBuf) (tree : EntryTree) :
    BuildStep → Except SourcePackageError EntryTree
  | .createDir path action => LeanRs.createDir root tree path action
  | .putFile path action parentAction contents =>
    LeanRs.putFile root tree path action parentAction contents
  | .validate policy => do
    validateLakeManifest formats root tree policy
    .ok tree
  | .sentinel path =>
    if tree.isFile path then .ok tree
    else .error (.invalidPayload
      ("materialized source package missing sentinel file " ++ path.pathString))
  | .refuse err => .error err

def runSteps (formats : SourceFormats) (root : PathBuf) (steps : List BuildStep)
    (tree : EntryTree) : Except SourcePackageError EntryTree :=
  steps.foldlM (BuildStep.run formats root) tree

mutual

def copyPathSteps (source dest : PathBuf) : PayloadNode → List BuildStep
  | .file contents => [.putFile dest "copy source package payload file"
      "create source package payload parent directory" contents]
  | .dir entries => .createDir dest "create source package payload directory" ::
      copyEntriesSteps source dest entries
  | .other => [.refuse (.invalidPayload
      ("source package payload path is not a regular file or directory: " ++ source.pathString))]
  | .refused action => [.refuse (.io action source)]

def copyEntriesSteps (source dest : PathBuf) : PayloadEntries → List BuildStep
  | .nil => []
  | .cons name node rest => copyPathSteps (source.join ⟨name⟩) (dest.join ⟨name⟩) node ++
      copyEntriesSteps source dest rest

end

namespace SourcePackageMaterializationRequest

variable (formats : SourceFormats) (answers : SourceAnswers)
variable (input : SourcePackageMaterializationRequest)

def includeSteps (path : PathBuf) : List BuildStep :=
  match answers.payload (input.sourceRoot.join path) with
  | none => [.refuse (.invalidPayload ("include path " ++ path.pathString ++
      " does not exist under " ++ input.sourceRoot.pathString))]
  | some node => copyPathSteps (input.sourceRoot.join path) path node

def sidecarSteps : List BuildStep :=
  match formats.encodeSidecar input.provenance with
  | .error err => [.refuse (.json "encode source package provenance sidecar"
      ((input.tempRoot answers).join sidecarFileName) err)]
  | .ok bytes => [.putFile sidecarFileName "write source package provenance sidecar"
      "create source package output parent directory" bytes]

def generatedStep (generated : GeneratedSourceFile) : BuildStep :=
  .putFile generated.relativePath "write generated source package file"
    "create source package output parent directory" generated.contents

/-- From the payload to the last sentinel, in the order of the code. -/
def buildSteps : List BuildStep :=
  input.includePaths.flatMap (input.includeSteps answers) ++
  input.generatedFiles.map generatedStep ++
  [.putFile toolchainFileName "write generated source package lean-toolchain"
    "create source package output parent directory" input.toolchainContents] ++
  input.sidecarSteps formats answers ++
  [.validate input.manifestPolicy] ++ input.sentinelFiles.map .sentinel

def entryName : String := sanitizeToolchainLabel input.toolchainLabel

def tempName : String :=
  ".source-package-" ++ answers.processId.repr ++ "-" ++ answers.uniqueNanos.repr

end SourcePackageMaterializationRequest

section BuildSteps

variable {formats : SourceFormats} {root : PathBuf}

theorem runSteps_nil (tree : EntryTree) : runSteps formats root [] tree = .ok tree := rfl

theorem runSteps_cons (step : BuildStep) (rest : List BuildStep) (tree : EntryTree) :
    runSteps formats root (step :: rest) tree =
      (step.run formats root tree >>= runSteps formats root rest) := rfl

theorem runSteps_append (first second : List BuildStep) (tree : EntryTree) :
    runSteps formats root (first ++ second) tree =
      (runSteps formats root first tree >>= runSteps formats root second) :=
  List.foldlM_append

theorem runSteps_singleton (step : BuildStep) (tree : EntryTree) :
    runSteps formats root [step] tree = step.run formats root tree := by
  rw [runSteps_cons]
  exact bind_pure _

mutual

theorem runSteps_copyPath (source dest : PathBuf) (node : PayloadNode) (tree : EntryTree) :
    runSteps formats root (copyPathSteps source dest node) tree =
      copyPathRecursive root source dest tree node := by
  cases node with
  | file contents =>
    rw [copyPathSteps, runSteps_singleton, copyPathRecursive]
    rfl
  | dir entries =>
    rw [copyPathSteps, runSteps_cons, copyPathRecursive]
    exact bind_congr fun made => runSteps_copyEntries source dest entries made
  | other =>
    rw [copyPathSteps, runSteps_singleton, copyPathRecursive]
    rfl
  | refused action =>
    rw [copyPathSteps, runSteps_singleton, copyPathRecursive]
    rfl

theorem runSteps_copyEntries (source dest : PathBuf) (entries : PayloadEntries)
    (tree : EntryTree) : runSteps formats root (copyEntriesSteps source dest entries) tree =
      copyEntries root source dest tree entries := by
  cases entries with
  | nil => rw [copyEntriesSteps, runSteps_nil, copyEntries]
  | cons name node rest =>
    rw [copyEntriesSteps, runSteps_append, runSteps_copyPath, copyEntries]
    exact bind_congr fun copied => runSteps_copyEntries source dest rest copied

end

variable (formats) (answers : SourceAnswers) (input : SourcePackageMaterializationRequest)

theorem runSteps_payload (root : PathBuf) (tree : EntryTree) :
    runSteps formats root (input.includePaths.flatMap (input.includeSteps answers)) tree =
      input.copyPayload answers.payload root tree := by
  unfold SourcePackageMaterializationRequest.copyPayload
  induction input.includePaths generalizing tree with
  | nil => rfl
  | cons path rest ih =>
    rw [List.flatMap_cons, runSteps_append, List.foldlM_cons]
    unfold SourcePackageMaterializationRequest.includeSteps at ih ⊢
    cases found : answers.payload (input.sourceRoot.join path) with
    | none =>
      dsimp only
      rw [runSteps_singleton]
      rfl
    | some node =>
      dsimp only
      rw [runSteps_copyPath]
      exact bind_congr fun copied => ih copied

theorem runSteps_generated (root : PathBuf) (tree : EntryTree) : runSteps formats root
      (input.generatedFiles.map SourcePackageMaterializationRequest.generatedStep) tree =
    input.writeGenerated root tree := by
  unfold SourcePackageMaterializationRequest.writeGenerated runSteps
  rw [List.foldlM_map]
  rfl

theorem runSteps_sidecar (tree : EntryTree) :
    runSteps formats (input.tempRoot answers) (input.sidecarSteps formats answers) tree =
      SourcePackageMaterializationRequest.writeSidecar formats (input.tempRoot answers) tree
        input.provenance := by
  unfold SourcePackageMaterializationRequest.sidecarSteps
    SourcePackageMaterializationRequest.writeSidecar
  cases formats.encodeSidecar input.provenance with
  | error err => rfl
  | ok bytes =>
    dsimp only
    rw [runSteps_singleton]
    rfl

theorem runSteps_sentinels (root : PathBuf) (sentinels : List PathBuf) (tree : EntryTree) :
    runSteps formats root (sentinels.map BuildStep.sentinel) tree =
      (sentinels.forM (fun sentinel => if tree.isFile sentinel then .ok () else
        .error (.invalidPayload ("materialized source package missing sentinel file " ++
          sentinel.pathString))) >>= fun _ => .ok tree) := by
  induction sentinels with
  | nil => rfl
  | cons sentinel rest ih =>
    rw [List.map_cons, runSteps_cons]
    unfold BuildStep.run List.forM
    dsimp only
    split
    · exact ih
    · rfl

theorem runSteps_buildSteps : runSteps formats (input.tempRoot answers)
      (input.buildSteps formats answers) .emptyDir =
    input.buildEntry formats answers input.provenance := by
  unfold SourcePackageMaterializationRequest.buildSteps
    SourcePackageMaterializationRequest.buildEntry
  rw [runSteps_append, runSteps_append, runSteps_append, runSteps_append, runSteps_append,
    runSteps_payload]
  simp only [bind_assoc]
  refine bind_congr fun copied => ?_
  rw [runSteps_generated]
  refine bind_congr fun generated => ?_
  rw [runSteps_singleton]
  refine bind_congr fun labelled => ?_
  rw [runSteps_sidecar]
  refine bind_congr fun recorded => ?_
  rw [runSteps_singleton]
  change (_ >>= fun _ => Except.ok recorded) >>= _ = _
  rw [bind_assoc]
  exact bind_congr fun _ => runSteps_sentinels formats _ _ _

end BuildSteps

def isTempName (name : String) : Bool := ".source-package-".toList.isPrefixOf name.toList

/-- A call with a valid payload. The names of its directories are names of their own: no dots that
lead elsewhere, not the name of a lock file, and not one that stands for a temporary directory. -/
structure MaterializeCall (formats : SourceFormats) where
  input : SourcePackageMaterializationRequest
  answers : SourceAnswers
  accepted : input.validateRequest = .ok ()
  built : EntryTree
  builds : input.buildEntry formats answers input.provenance = .ok built
  digest_plain : input.sourceDigest ∉ [".", ".."]
  entry_plain : input.entryName ∉ [".", ".."]
  entry_unlocked : ¬".lock".toList <:+ input.entryName.toList
  entry_visible : isTempName input.entryName = false

abbrev Slot := String × String

namespace MaterializeCall

variable {formats : SourceFormats} (call : MaterializeCall formats)

/-- Where the call installs. Its lock file is named after it, so this also tells locks apart. -/
def entrySlot : Slot := (call.input.sourceDigest, call.input.entryName)

def tempSlot : Slot :=
  (call.input.sourceDigest, SourcePackageMaterializationRequest.tempName call.answers)

def root : PathBuf := call.input.tempRoot call.answers

def package : MaterializedSourcePackage := ⟨call.input.entryRoot, call.input.provenance⟩

end MaterializeCall

inductive CallPhase where
  | locking
  | matching
  | removing
  | listing
  /-- What was read from the directory, and is still to be looked at. -/
  | cleaning (names : List String)
  | clearing
  | creating
  | building (steps : List BuildStep)
  | installing
  | discarding (err : SourcePackageError)
  | returned (out : Except SourcePackageError Materialized)

namespace CallPhase

def holds : CallPhase → Bool
  | .locking | .returned _ => false
  | _ => true

/-- The temporary directory is there, and its owner has not done with it. -/
def builds : CallPhase → Bool
  | .building _ | .installing | .discarding _ => true
  | _ => false

end CallPhase

/-- The directories of the digests without their lock files, the locks that are held, and how far
each call is. -/
structure SharedCache (ι : Type) where
  dirs : String → AList (fun _ : String => EntryTree)
  locked : Slot → Bool
  phase : ι → CallPhase

namespace SharedCache

variable {ι : Type} [DecidableEq ι] (s : SharedCache ι) (i : ι) (slot : Slot)

def tree : EntryTree := ((s.dirs slot.1).lookup slot.2).getD .absent

def put (tree : EntryTree) : SharedCache ι :=
  { s with dirs := Function.update s.dirs slot.1 ((s.dirs slot.1).insert slot.2 tree) }

/-- `remove_path_if_exists` of a name of the directory. The look at the path and its removal are one
step, and neither of them fails. -/
def remove : SharedCache ι :=
  { s with dirs := Function.update s.dirs slot.1 ((s.dirs slot.1).erase slot.2) }

def goTo (next : CallPhase) : SharedCache ι :=
  { s with phase := Function.update s.phase i next }

def leave (out : Except SourcePackageError Materialized) : SharedCache ι :=
  { s.goTo i (.returned out) with locked := Function.update s.locked slot false }

end SharedCache

/-- The next operation of a call, if it is not waiting for its lock and has not returned. -/
def advance {ι : Type} [DecidableEq ι] {formats : SourceFormats}
    (calls : ι → MaterializeCall formats) (s : SharedCache ι) (i : ι) : Option (SharedCache ι) :=
  let call := calls i
  let input := call.input
  match s.phase i with
  | .locking =>
    if s.locked call.entrySlot then none
    else some { s.goTo i .matching with
      locked := Function.update s.locked call.entrySlot true }
  | .matching =>
    match entryMatches formats input.entryRoot (s.tree call.entrySlot) input input.provenance with
    | .error err => some (s.leave i call.entrySlot (.error err))
    | .ok true => some (s.leave i call.entrySlot
        (.ok ⟨call.package, s.tree call.entrySlot, false⟩))
    | .ok false => some (s.goTo i .removing)
  | .removing => some ((s.remove call.entrySlot).goTo i .listing)
  | .listing => some (s.goTo i (.cleaning (s.dirs input.sourceDigest).keys))
  | .cleaning [] => some (s.goTo i .clearing)
  | .cleaning (name :: rest) =>
    some ((if isTempName name then s.remove (input.sourceDigest, name) else s).goTo i
      (.cleaning rest))
  | .clearing => some ((s.remove call.tempSlot).goTo i .creating)
  | .creating =>
    match (s.tree call.tempSlot).createDirAll? [] with
    | none => some (s.leave i call.entrySlot
        (.error (.io "create source package temp directory" call.root)))
    | some tree => some ((s.put call.tempSlot tree).goTo i
        (.building (input.buildSteps formats call.answers)))
  | .building [] => some (s.goTo i .installing)
  | .building (step :: rest) =>
    match step.run formats call.root (s.tree call.tempSlot) with
    | .error err => some (s.leave i call.entrySlot (.error err))
    | .ok tree => some ((s.put call.tempSlot tree).goTo i (.building rest))
  | .installing =>
    -- A directory can be moved to where nothing is.
    if (s.tree call.tempSlot).isDirectory [] ∧ (s.tree call.entrySlot) [] = none then
      let built := s.tree call.tempSlot
      some (((s.remove call.tempSlot).put call.entrySlot built).leave i call.entrySlot
        (.ok ⟨call.package, built, true⟩))
    else some (s.goTo i (.discarding
      (.io "install source package cache entry" input.entryRoot)))
  | .discarding err => some ((s.remove call.tempSlot).leave i call.entrySlot (.error err))
  | .returned _ => none

end LeanRs
