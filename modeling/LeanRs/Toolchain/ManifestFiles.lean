import LeanRs.General.JsonString
import LeanRs.General.Text
import LeanRs.Toolchain.ManifestRoundTrip
import Mathlib.Logic.Function.Basic

/-! The manifest files that the builds of one build script leave in its output directory. -/
namespace LeanRs

open Fallible Json

theorem PathBuf.join_cancel {base p q : PathBuf} (first : p.hasRoot = false)
    (second : q.hasRoot = false) (same : base.join p = base.join q) : p = q := by
  have plain : ¬(false = true) := Bool.false_ne_true
  unfold join at same
  rw [first, second, if_neg plain, if_neg plain] at same
  split at same
  · exact same
  · split at same
    · exact congrArg PathBuf.mk (List.append_cancel_left (congrArg PathBuf.bytes same))
    · have joined := List.append_cancel_left (congrArg PathBuf.bytes same)
      exact congrArg PathBuf.mk (List.cons.inj joined).2

/-- How a JSON value is put into bytes, and the bytes of a SHA-256 digest. -/
structure DigestAnswers where
  toVec : Value → Option (List UInt8)
  sha256 : List UInt8 → List UInt8

def hexByte (byte : UInt8) : List Char :=
  [hexDigit (byte.toNat / 16), hexDigit (byte.toNat % 16)]

namespace DigestAnswers

variable (d : DigestAnswers)

def signatureBytes (signature : LeanExportSignature) : List UInt8 :=
  (PathBuf.ofString signature.symbol).bytes ++ 0 ::
    ((d.toVec signature.toJson).getD [] ++ [0xff])

def exportDigest (signatures : List LeanExportSignature) : List Char :=
  ((d.sha256 (signatures.flatMap d.signatureBytes)).take 8).flatMap hexByte

def capabilityManifestName (targetName : String) (signatures : List LeanExportSignature) :
    String :=
  if signatures.isEmpty then sanitizeTargetName targetName ++ ".lean-rs-capability.json"
  else sanitizeTargetName targetName ++ "-" ++ String.ofList (d.exportDigest signatures) ++
    ".lean-rs-capability.json"

def capabilityManifestPath (outDir : PathBuf) (targetName : String)
    (signatures : List LeanExportSignature) : PathBuf :=
  outDir.joinStr (d.capabilityManifestName targetName signatures)

def label (targetName : String) (signatures : List LeanExportSignature) : List Char :=
  targetName.toList ++ if signatures.isEmpty then [] else '-' :: d.exportDigest signatures

end DigestAnswers

def isBlurred (ch : Char) : Bool := !(ch.isAlphanum || ch == '-')

/-- Two labels read alike where every character that is no letter, digit or hyphen is blurred. -/
def Alike (first second : List Char) : Prop :=
  List.Forall₂ (fun c d => c = d ∨ (isBlurred c = true ∧ isBlurred d = true)) first second

theorem sanitizeChar_blurred {c : Char} (blurred : isBlurred c = true) : sanitizeChar c = '_' := by
  simp only [isBlurred, Bool.not_eq_true', Bool.or_eq_false_iff, beq_eq_false_iff_ne] at blurred
  unfold sanitizeChar
  split
  · rename_i kept
    simp only [blurred.1, Bool.false_or, Bool.or_eq_true, decide_eq_true_eq] at kept
    obtain hyphen | underscore := kept
    · exact absurd hyphen blurred.2
    · exact underscore
  · rfl

theorem sanitizeChar_sharp {c : Char} (sharp : isBlurred c = false) : sanitizeChar c = c := by
  simp only [isBlurred, Bool.not_eq_false', Bool.or_eq_true, beq_iff_eq] at sharp
  unfold sanitizeChar
  obtain letter | hyphen := sharp
  · rw [letter]
    rfl
  · rw [hyphen]
    rfl

theorem sanitizeChar_eq_iff (c d : Char) :
    sanitizeChar c = sanitizeChar d ↔ c = d ∨ (isBlurred c = true ∧ isBlurred d = true) := by
  have underscore : isBlurred '_' = true := rfl
  constructor
  · intro same
    cases first : isBlurred c with
    | false =>
      cases second : isBlurred d with
      | false =>
        rw [sanitizeChar_sharp first, sanitizeChar_sharp second] at same
        exact Or.inl same
      | true =>
        rw [sanitizeChar_sharp first, sanitizeChar_blurred second] at same
        rw [same, underscore] at first
        cases first
    | true =>
      cases second : isBlurred d with
      | false =>
        rw [sanitizeChar_blurred first, sanitizeChar_sharp second] at same
        rw [← same, underscore] at second
        cases second
      | true => exact Or.inr ⟨rfl, rfl⟩
  · rintro (rfl | ⟨first, second⟩)
    · rfl
    · rw [sanitizeChar_blurred first, sanitizeChar_blurred second]

theorem map_sanitizeChar_eq_iff (first second : List Char) :
    first.map sanitizeChar = second.map sanitizeChar ↔ Alike first second := by
  induction first generalizing second with
  | nil => cases second <;> simp [Alike]
  | cons c first ih =>
    cases second with
    | nil => simp [Alike]
    | cons d second =>
      have tail := ih second
      unfold Alike at tail ⊢
      rw [List.map_cons, List.map_cons, List.cons.injEq, sanitizeChar_eq_iff, tail,
        List.forall₂_cons]

theorem hexDigit_sharp : ∀ n < 16, isBlurred (hexDigit n) = false := by decide

theorem hexByte_sharp (byte : UInt8) : ∀ c ∈ hexByte byte, isBlurred c = false := by
  have bound := byte.toNat_lt
  intro c member
  simp only [hexByte, List.mem_cons, List.not_mem_nil, or_false] at member
  obtain rfl | rfl := member
  · exact hexDigit_sharp _ (by omega)
  · exact hexDigit_sharp _ (by omega)

namespace DigestAnswers

variable (d : DigestAnswers)

theorem exportDigest_sharp (signatures : List LeanExportSignature) :
    (d.exportDigest signatures).map sanitizeChar = d.exportDigest signatures := by
  rw [List.map_congr_left (g := id), List.map_id]
  intro c member
  obtain ⟨byte, -, digit⟩ := List.mem_flatMap.mp member
  exact sanitizeChar_sharp (hexByte_sharp byte c digit)

theorem capabilityManifestName_eq (targetName : String)
    (signatures : List LeanExportSignature) :
    (d.capabilityManifestName targetName signatures).toList =
      (d.label targetName signatures).map sanitizeChar ++ ".lean-rs-capability.json".toList := by
  unfold capabilityManifestName label sanitizeTargetName
  split
  · rw [String.toList_append, String.toList_ofList, List.append_nil]
  · have hyphen : sanitizeChar '-' = '-' := rfl
    simp only [String.toList_append, String.toList_ofList, List.map_append, List.map_cons,
      exportDigest_sharp, hyphen, List.append_assoc, List.cons_append]
    rfl

theorem capabilityManifestName_eq_iff (first second : String)
    (one other : List LeanExportSignature) :
    d.capabilityManifestName first one = d.capabilityManifestName second other ↔
      Alike (d.label first one) (d.label second other) := by
  rw [← map_sanitizeChar_eq_iff, ← String.toList_inj, capabilityManifestName_eq,
    capabilityManifestName_eq, List.append_cancel_right_eq]

theorem slash_notMem_name (targetName : String) (signatures : List LeanExportSignature) :
    '/' ∉ (d.capabilityManifestName targetName signatures).toList := by
  rw [capabilityManifestName_eq, List.mem_append, not_or]
  refine ⟨fun member => ?_, by decide⟩
  obtain ⟨c, -, slash⟩ := List.mem_map.mp member
  cases blur : isBlurred c with
  | true =>
    rw [sanitizeChar_blurred blur] at slash
    exact absurd slash (by decide)
  | false =>
    rw [sanitizeChar_sharp blur] at slash
    rw [slash] at blur
    exact absurd blur (by decide)

theorem capabilityManifestName_relative (targetName : String)
    (signatures : List LeanExportSignature) :
    (PathBuf.ofString (d.capabilityManifestName targetName signatures)).hasRoot = false := by
  have slash := d.slash_notMem_name targetName signatures
  cases root : (PathBuf.ofString (d.capabilityManifestName targetName signatures)).hasRoot with
  | false => rfl
  | true =>
    have first := List.mem_of_mem_head? (beq_iff_eq.mp root)
    rw [PathBuf.bytes_ofString] at first
    exact absurd (Text.mem_of_mem_encode first (by decide) (by decide)) slash

theorem capabilityManifestPath_eq_iff (outDir : PathBuf) (first second : String)
    (one other : List LeanExportSignature) :
    d.capabilityManifestPath outDir first one = d.capabilityManifestPath outDir second other ↔
      Alike (d.label first one) (d.label second other) := by
  rw [← capabilityManifestName_eq_iff]
  constructor
  · intro same
    have paths := PathBuf.join_cancel (d.capabilityManifestName_relative first one)
      (d.capabilityManifestName_relative second other) same
    have texts := congrArg PathBuf.pathString paths
    rwa [PathBuf.pathString_ofString, PathBuf.pathString_ofString] at texts
  · intro same
    unfold capabilityManifestPath
    rw [same]

end DigestAnswers

structure FinishedBuild where
  spec : CargoLeanCapability
  dylibPath : PathBuf
  selected : Option ToolchainInfo
  answers : FinishAnswers
  projectRoot : PathBuf
  facts : ManifestFacts
  document : Value
  canonical : answers.canonicalize spec.projectRoot = .ok projectRoot
  finished : spec.finish dylibPath selected answers = .ok (facts, document)

structure ManifestFields where
  targetName : String
  package : String
  module : String
  dylib : String
  manifestEnvVar : String
  fingerprint : ToolchainFingerprint
  toolchain : Value
  searchDirs : List Value
  dependencies : List Value
  exports : List Value

def ManifestFields.document (r : ManifestFields) : Value :=
  .object [
    ("schema_version", .posInt capabilityManifestSchemaVersion),
    ("target_name", .string r.targetName),
    ("package", .string r.package),
    ("module", .string r.module),
    ("primary_dylib", .string r.dylib),
    ("manifest_env_var", .string r.manifestEnvVar),
    ("lean_version", .string r.fingerprint.leanVersion),
    ("resolved_lean_version", .string r.fingerprint.resolvedVersion),
    ("lean_header_sha256", .string r.fingerprint.headerSha256),
    ("toolchain_fingerprint", r.fingerprint.toJson),
    ("build_toolchain", r.toolchain),
    ("search_dirs", .array r.searchDirs),
    ("dependencies", .array r.dependencies),
    ("exports", .array r.exports)]

theorem ToolchainFingerprint.toJson_injective {f g : ToolchainFingerprint}
    (same : f.toJson = g.toJson) : f = g := by
  have fields := Value.object.inj same
  simp only [List.cons.injEq, Prod.mk.injEq, Value.string.injEq, true_and, and_true] at fields
  cases f
  cases g
  rwa [ToolchainFingerprint.mk.injEq]

theorem ManifestFields.document_injective {r s : ManifestFields} (same : r.document = s.document) :
    r = s := by
  have fields := Value.object.inj same
  simp only [List.cons.injEq, Prod.mk.injEq, Value.string.injEq, Value.array.injEq,
    true_and, and_true] at fields
  obtain ⟨target, package, module, dylib, env, -, -, -, fingerprint, toolchain, dirs,
    dependencies, exports⟩ := fields
  have print := ToolchainFingerprint.toJson_injective fingerprint
  cases r
  cases s
  rw [ManifestFields.mk.injEq]
  exact ⟨target, package, module, dylib, env, print, toolchain, dirs, dependencies, exports⟩

namespace FinishedBuild

variable (b : FinishedBuild)

def recorded : ManifestFields where
  targetName := b.spec.targetName
  package := b.facts.package
  module := b.facts.module
  dylib := b.facts.dylibPath.pathString
  manifestEnvVar := b.spec.manifestEnvVar.getD (capabilityManifestEnvVar b.spec.targetName)
  fingerprint := b.facts.fingerprint
  toolchain := .ofOption ToolchainInfo.toJson b.selected
  searchDirs := b.answers.searchDirs.map fun path => .string path.pathString
  dependencies := b.facts.interop.map interopShimsJson ++
    b.facts.dependencies.map LeanLibraryDependency.toJson
  exports := b.facts.exportSignatures.map LeanExportSignature.toJson

theorem document_eq : b.document = b.recorded.document := by
  have finished := b.finished
  unfold CargoLeanCapability.finish at finished
  rw [b.canonical] at finished
  obtain ⟨facts, -, finished⟩ := bind_ok.mp finished
  split at finished
  · cases finished
  · split at finished
    · cases finished
    · have both := Prod.mk.inj (Except.ok.inj finished)
      rw [← both.2, both.1]
      rfl

theorem document_eq_iff (c : FinishedBuild) :
    b.document = c.document ↔ b.recorded = c.recorded := by
  rw [document_eq, document_eq]
  exact ⟨ManifestFields.document_injective, congrArg ManifestFields.document⟩

/-- The same project root, target, package, module, dylib, exports and dependencies. -/
structure SameCapability (c : FinishedBuild) : Prop where
  projectRoot : c.projectRoot = b.projectRoot
  targetName : c.spec.targetName = b.spec.targetName
  package : c.facts.package = b.facts.package
  module : c.facts.module = b.facts.module
  dylibPath : c.dylibPath = b.dylibPath
  exportSignatures : c.spec.exportSignatures = b.spec.exportSignatures
  dependencies : c.spec.dependencies = b.spec.dependencies

end FinishedBuild

section Script

variable (d : DigestAnswers) (outDir : PathBuf)

namespace FinishedBuild

def manifestPath (b : FinishedBuild) : PathBuf :=
  d.capabilityManifestPath outDir b.spec.targetName b.spec.exportSignatures

def label (b : FinishedBuild) : List Char := d.label b.spec.targetName b.spec.exportSignatures

theorem manifestPath_eq_iff (b c : FinishedBuild) :
    c.manifestPath d outDir = b.manifestPath d outDir ↔ Alike (c.label d) (b.label d) :=
  d.capabilityManifestPath_eq_iff outDir _ _ _ _

end FinishedBuild

/-- The manifests in the output directory, each of which is put in its place as a whole. -/
def writeManifests (files : PathBuf → Option Value) (builds : List FinishedBuild) :
    PathBuf → Option Value :=
  builds.foldl (fun files b => Function.update files (b.manifestPath d outDir) (some b.document))
    files

def lastAlike (b : FinishedBuild) (builds : List FinishedBuild) : FinishedBuild → Prop :=
  fun c => ∃ before after, builds = before ++ c :: after ∧ Alike (c.label d) (b.label d) ∧
    ∀ later ∈ after, ¬Alike (later.label d) (b.label d)

theorem writeManifests_append (files : PathBuf → Option Value)
    (first second : List FinishedBuild) :
    writeManifests d outDir files (first ++ second) =
      writeManifests d outDir (writeManifests d outDir files first) second := List.foldl_append

theorem writeManifests_other (files : PathBuf → Option Value) (b : FinishedBuild)
    {builds : List FinishedBuild}
    (others : ∀ later ∈ builds, ¬Alike (later.label d) (b.label d)) :
    writeManifests d outDir files builds (b.manifestPath d outDir) =
      files (b.manifestPath d outDir) := by
  induction builds generalizing files with
  | nil => rfl
  | cons c rest ih =>
    obtain ⟨here, later⟩ := List.forall_mem_cons.mp others
    have apart : b.manifestPath d outDir ≠ c.manifestPath d outDir := fun same =>
      here ((FinishedBuild.manifestPath_eq_iff d outDir b c).mp same.symm)
    have rest := ih (Function.update files (c.manifestPath d outDir) (some c.document)) later
    rw [Function.update_of_ne apart] at rest
    exact rest

theorem writeManifests_last (files : PathBuf → Option Value) {b c : FinishedBuild}
    {builds : List FinishedBuild} (last : lastAlike d b builds c) :
    writeManifests d outDir files builds (b.manifestPath d outDir) = some c.document := by
  obtain ⟨before, after, rfl, alike, others⟩ := last
  have place := (FinishedBuild.manifestPath_eq_iff d outDir b c).mpr alike
  rw [writeManifests_append, ← List.singleton_append, writeManifests_append,
    writeManifests_other d outDir _ b others, ← place]
  exact Function.update_self ..

theorem alike_refl (text : List Char) : Alike text text :=
  (map_sanitizeChar_eq_iff text text).mp rfl

theorem exists_lastAlike {b c : FinishedBuild} {builds : List FinishedBuild} (member : c ∈ builds)
    (alike : Alike (c.label d) (b.label d)) : ∃ last, lastAlike d b builds last := by
  induction builds generalizing c with
  | nil => cases member
  | cons e rest ih =>
    by_cases later : ∃ f ∈ rest, Alike (f.label d) (b.label d)
    · obtain ⟨f, inside, reads⟩ := later
      obtain ⟨last, before, after, rfl, found⟩ := ih inside reads
      exact ⟨last, e :: before, after, rfl, found⟩
    · have others : ∀ f ∈ rest, ¬Alike (f.label d) (b.label d) :=
        fun f inside reads => later ⟨f, inside, reads⟩
      obtain rfl | inside := List.mem_cons.mp member
      · exact ⟨c, [], rest, rfl, alike, others⟩
      · exact absurd alike (others c inside)

theorem lastAlike.appended {b c : FinishedBuild} {after : List FinishedBuild}
    (last : lastAlike d b after c) (before : List FinishedBuild) :
    lastAlike d b (before ++ after) c := by
  obtain ⟨first, rest, rfl, found⟩ := last
  exact ⟨before ++ first, rest, (List.append_assoc before first _).symm, found⟩

/-- After the builds, what each of them returned holds its manifest, unless a later one was of the
same capability. -/
def ManifestsKept (files : PathBuf → Option Value) (builds : List FinishedBuild) : Prop :=
  ∀ before b after, builds = before ++ b :: after →
    (∃ later ∈ after, b.SameCapability later) ∨
      writeManifests d outDir files builds (b.manifestPath d outDir) = some b.document

/-- Unless a later build was of the same capability, the last one whose target and digest read
alike records the same. -/
def Unblurred (builds : List FinishedBuild) : Prop :=
  ∀ before b after, builds = before ++ b :: after →
    (∃ later ∈ after, b.SameCapability later) ∨
      ∀ c, lastAlike d b after c → c.recorded = b.recorded

theorem manifest_kept_iff (files : PathBuf → Option Value) (before : List FinishedBuild)
    (b : FinishedBuild) (after : List FinishedBuild) :
    writeManifests d outDir files (before ++ b :: after) (b.manifestPath d outDir) =
      some b.document ↔ ∀ c, lastAlike d b after c → c.recorded = b.recorded := by
  constructor
  · intro kept c last
    have found := writeManifests_last d outDir files
      (last.appended d (before ++ [b]))
    rw [List.append_assoc, List.singleton_append, kept] at found
    exact (c.document_eq_iff b).mp (Option.some.inj found).symm
  · intro same
    by_cases later : ∃ c ∈ after, Alike (c.label d) (b.label d)
    · obtain ⟨c, member, alike⟩ := later
      obtain ⟨last, found⟩ := exists_lastAlike d member alike
      have written := writeManifests_last d outDir files (found.appended d (before ++ [b]))
      rw [List.append_assoc, List.singleton_append] at written
      rw [written, (last.document_eq_iff b).mpr (same last found)]
    · refine writeManifests_last d outDir files ⟨before, after, rfl, alike_refl _, ?_⟩
      exact fun c member alike => later ⟨c, member, alike⟩

/-- The manifests of a build script are kept exactly if no label of another record reads like an
earlier one. -/
theorem manifests_kept_iff (files : PathBuf → Option Value) (builds : List FinishedBuild) :
    ManifestsKept d outDir files builds ↔ Unblurred d builds := by
  unfold ManifestsKept Unblurred
  constructor
  · rintro kept before b after rfl
    exact (kept before b after rfl).imp_right (manifest_kept_iff d outDir files before b after).mp
  · rintro same before b after rfl
    exact (same before b after rfl).imp_right (manifest_kept_iff d outDir files before b after).mpr

end Script

def capabilityOf (root package : String) : FinishedBuild where
  spec := { projectRoot := .ofString root, targetName := "Cap", package := some package }
  dylibPath := (PathBuf.ofString root).joinStr "libCap.so"
  selected := none
  answers := .smooth
  projectRoot := .ofString root
  facts := {
    dylibPath := (PathBuf.ofString root).joinStr "libCap.so"
    package := package
    module := "Cap"
    fingerprint := FinishAnswers.smooth.current
    interop := []
    dependencies := []
    exportSignatures := [] }
  document := _
  canonical := rfl
  finished := rfl

theorem capabilityOf_package (root package : String) :
    (capabilityOf root package).recorded.package = package := rfl

theorem capabilityOf_label (d : DigestAnswers) (root package : String) :
    (capabilityOf root package).label d = "Cap".toList ++ [] := rfl

/-- Two projects with a target of one name: the manifest of the first is that of the second. -/
theorem second_project_takes_manifest :
    ¬ManifestsKept ⟨fun _ => none, fun _ => []⟩ (.ofString "/out") (fun _ => none)
      [capabilityOf "/one" "one", capabilityOf "/two" "two"] := by
  intro kept
  obtain ⟨later, member, same⟩ | held := kept [] (capabilityOf "/one" "one")
    [capabilityOf "/two" "two"] rfl
  · cases List.mem_singleton.mp member
    have packages := same.package
    unfold capabilityOf at packages
    exact absurd packages (by decide)
  · have last : lastAlike ⟨fun _ => none, fun _ => []⟩ (capabilityOf "/one" "one")
        [capabilityOf "/two" "two"] (capabilityOf "/two" "two") := by
      refine ⟨[], [], rfl, ?_, List.forall_mem_nil _⟩
      rw [capabilityOf_label, capabilityOf_label]
      exact alike_refl _
    have recorded := (manifest_kept_iff _ _ _ [] _ _).mp held _ last
    have packages := congrArg ManifestFields.package recorded
    rw [capabilityOf_package, capabilityOf_package] at packages
    exact absurd packages (by decide)

end LeanRs
