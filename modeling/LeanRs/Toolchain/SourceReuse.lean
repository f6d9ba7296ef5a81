import LeanRs.General.JsonString
import LeanRs.Toolchain.SourcePackage
import Mathlib.Data.List.TakeWhile

/-! When a source package is taken from the cache: what the files of a built entry hold, what the
match of an entry comes to, and which calls find their own entry again. -/
namespace LeanRs

open Fallible Json

namespace EntryTree

variable {tree tree' : EntryTree} {path : RelPath}

theorem createDirAll?_some (made : tree.createDirAll? path = some tree') :
    (∀ above ∈ path.inits, tree.contents? above = none) ∧
    tree' = fun q => if q ∈ path.inits then some .dir else tree q := by
  unfold createDirAll? at made
  split at made
  · cases made
  · rename_i clear
    refine ⟨fun above inside => ?_, (Option.some.inj made).symm⟩
    by_contra file
    apply clear
    rw [List.any_eq_true]
    exact ⟨above, inside, Option.isSome_iff_ne_none.mpr file⟩

theorem createDirAll?_contents (made : tree.createDirAll? path = some tree') :
    tree'.contents? = tree.contents? := by
  obtain ⟨clear, rfl⟩ := createDirAll?_some made
  funext q
  unfold contents? at clear ⊢
  dsimp only
  by_cases above : q ∈ path.inits
  · rw [if_pos above, clear q above]
  · rw [if_neg above]

theorem createDirAll?_root (made : tree.createDirAll? path = some tree') :
    tree' [] = some .dir := by
  obtain ⟨-, rfl⟩ := createDirAll?_some made
  exact if_pos ((List.mem_inits _ _).mpr (List.nil_prefix))

theorem contents?_update (tree : EntryTree) (path q : RelPath) (contents : List UInt8) :
    EntryTree.contents? (Function.update tree path (some (.file contents))) q =
      if q = path then some contents else tree.contents? q := by
  unfold contents?
  by_cases same : q = path
  · rw [if_pos same, same, Function.update_self]
  · rw [if_neg same, Function.update_of_ne same]

end EntryTree

def lastWritten : List (PathBuf × List UInt8) → PathBuf → Option (List UInt8)
  | [], _ => none
  | write :: rest, path =>
    (lastWritten rest path).or (if write.1.place? = path.place? then some write.2 else none)

theorem lastWritten_append (first second : List (PathBuf × List UInt8)) (path : PathBuf) :
    lastWritten (first ++ second) path = (lastWritten second path).or (lastWritten first path) := by
  induction first with
  | nil => exact Option.or_none.symm
  | cons write first ih => rw [List.cons_append, lastWritten, ih, lastWritten, Option.or_assoc]

theorem lastWritten_self (path : PathBuf) (contents : List UInt8) :
    lastWritten [(path, contents)] path = some contents := by
  unfold lastWritten lastWritten
  rw [if_pos rfl]
  rfl

/-- The files of the second tree are those of the first, and over them what was written. -/
def Overlaid (tree tree' : EntryTree) (writes : List (PathBuf × List UInt8)) : Prop :=
  ∀ path, tree'.fileAt? path = (lastWritten writes path).or (tree.fileAt? path)

theorem Overlaid.trans {tree tree' tree'' : EntryTree} {first second : List (PathBuf × List UInt8)}
    (before : Overlaid tree tree' first) (after : Overlaid tree' tree'' second) :
    Overlaid tree tree'' (first ++ second) := by
  intro path
  rw [after path, before path, lastWritten_append, Option.or_assoc]

section PutFile

variable {root : PathBuf} {tree tree' : EntryTree} {path : PathBuf} {action parentAction : String}
variable {contents : List UInt8}

theorem putFile_ok (put : putFile root tree path action parentAction contents = .ok tree') :
    ∃ names made, path.place? = some ⟨names, .name⟩ ∧ names ≠ [] ∧
      tree.createDirAll? names.dropLast = some made ∧
      tree' = Function.update made names (some (.file contents)) := by
  unfold putFile at put
  cases found : path.place? with
  | none =>
    rw [found] at put
    cases put
  | some place =>
    obtain ⟨names, ending⟩ := place
    rw [found] at put
    dsimp only at put
    cases made : tree.createDirAll? names.dropLast with
    | none =>
      rw [made] at put
      cases put
    | some between =>
      rw [made] at put
      dsimp only at put
      split at put
      · rename_i free
        obtain ⟨rfl, named, -⟩ := free
        cases put
        exact ⟨names, between, rfl, named, made, rfl⟩
      · cases put

theorem putFile_overlaid (put : putFile root tree path action parentAction contents = .ok tree') :
    Overlaid tree tree' [(path, contents)] := by
  obtain ⟨names, between, placed, -, made, rfl⟩ := putFile_ok put
  intro other
  unfold lastWritten lastWritten
  rw [Option.none_or, placed]
  unfold EntryTree.fileAt?
  cases found : other.place? with
  | none => rfl
  | some place =>
    obtain ⟨names', ending⟩ := place
    rw [Option.bind_some, Option.bind_some]
    dsimp only
    by_cases plain : ending = .name
    · rw [if_pos plain, if_pos plain, EntryTree.contents?_update,
        EntryTree.createDirAll?_contents made, plain]
      by_cases same : names' = names
      · rw [if_pos same, same, if_pos rfl]
        rfl
      · rw [if_neg same, if_neg (fun equal => same (congrArg Place.names
          (Option.some.inj equal)).symm)]
        rfl
    · rw [if_neg plain, if_neg plain, if_neg (fun equal => plain (congrArg Place.ending
        (Option.some.inj equal)).symm)]
      rfl

theorem putFile_root (put : putFile root tree path action parentAction contents = .ok tree') :
    tree'.isDirectory [] = true := by
  obtain ⟨names, between, -, named, made, rfl⟩ := putFile_ok put
  unfold EntryTree.isDirectory
  rw [Function.update_of_ne named.symm, EntryTree.createDirAll?_root made]
  rfl

end PutFile

section Match

variable {formats : SourceFormats} {root : PathBuf} {tree : EntryTree} {path : PathBuf}

theorem readFile_ok {action : String} {contents : List UInt8} :
    readFile root tree path action = .ok contents ↔ tree.fileAt? path = some contents := by
  unfold readFile
  cases tree.fileAt? path with
  | none =>
    constructor
    · intro h
      cases h
    · intro h
      cases h
  | some there =>
    constructor
    · intro h
      cases h
      rfl
    · intro h
      cases h
      rfl

theorem readFile_error {action : String} :
    (∃ err, readFile root tree path action = .error err) ↔ tree.fileAt? path = none := by
  unfold readFile
  cases tree.fileAt? path with
  | none => exact ⟨fun _ => rfl, fun _ => ⟨_, rfl⟩⟩
  | some there =>
    constructor
    · rintro ⟨_, h⟩
      cases h
    · intro h
      cases h

def EntryTree.toolchain? (tree : EntryTree) : Option String :=
  (tree.fileAt? toolchainFileName).bind fun contents => (PathBuf.mk contents).toStr?

def ManifestAccepted (formats : SourceFormats) (tree : EntryTree)
    (policy : SourcePackageManifestPolicy) : Prop :=
  ∃ bytes manifest packages, tree.fileAt? manifestFileName = some bytes ∧
    formats.json bytes = .ok manifest ∧
    (manifest.get? "packages").bind Value.asArray? = some packages ∧
    (policy = .zeroPackages → packages = [])

theorem validateLakeManifest_ok {policy : SourcePackageManifestPolicy} :
    validateLakeManifest formats root tree policy = .ok () ↔
      ManifestAccepted formats tree policy := by
  unfold validateLakeManifest ManifestAccepted
  constructor
  · intro accepted
    cases read : readFile root tree manifestFileName
        "read source package lake-manifest.json" with
    | error err =>
      rw [read] at accepted
      cases accepted
    | ok bytes =>
      rw [read] at accepted
      dsimp only at accepted
      cases parsed : formats.json bytes with
      | error err =>
        rw [parsed] at accepted
        cases accepted
      | ok manifest =>
        rw [parsed] at accepted
        dsimp only at accepted
        cases listed : (manifest.get? "packages").bind Value.asArray? with
        | none =>
          rw [listed] at accepted
          cases accepted
        | some packages =>
          rw [listed] at accepted
          dsimp only at accepted
          split at accepted
          · cases accepted
          · rename_i free
            refine ⟨bytes, manifest, packages, readFile_ok.mp read, parsed, listed, ?_⟩
            intro zero
            by_contra some
            exact free ⟨zero, some⟩
  · rintro ⟨bytes, manifest, packages, there, parsed, listed, free⟩
    have read : readFile root tree manifestFileName "read source package lake-manifest.json" =
        .ok bytes := readFile_ok.mpr there
    rw [read]
    dsimp only
    rw [parsed]
    dsimp only
    rw [listed]
    exact if_neg fun both => both.2 (free both.1)

theorem readToString_ok {action text : String} :
    readToString root tree toolchainFileName action = .ok text ↔ tree.toolchain? = some text := by
  unfold readToString EntryTree.toolchain?
  cases (tree.fileAt? toolchainFileName).bind fun contents => (PathBuf.mk contents).toStr? with
  | none =>
    constructor
    · intro h
      cases h
    · intro h
      cases h
  | some there =>
    constructor
    · intro h
      cases h
      rfl
    · intro h
      cases h
      rfl

theorem readToString_error {action : String} :
    (∃ err, readToString root tree toolchainFileName action = .error err) ↔
      tree.toolchain? = none := by
  unfold readToString EntryTree.toolchain?
  cases (tree.fileAt? toolchainFileName).bind fun contents => (PathBuf.mk contents).toStr? with
  | none => exact ⟨fun _ => rfl, fun _ => ⟨_, rfl⟩⟩
  | some there =>
    constructor
    · rintro ⟨_, h⟩
      cases h
    · intro h
      cases h

def GeneratedSourceFile.Intact (tree : EntryTree) (generated : GeneratedSourceFile) : Prop :=
  tree.fileAt? generated.relativePath = some generated.contents

theorem generatedMatch_true {files : List GeneratedSourceFile} :
    generatedMatch root tree files = .ok true ↔ ∀ generated ∈ files, generated.Intact tree := by
  induction files with
  | nil => exact ⟨fun _ _ member => absurd member List.not_mem_nil, fun _ => rfl⟩
  | cons generated rest ih =>
    rw [List.forall_mem_cons, ← ih, generatedMatch]
    unfold GeneratedSourceFile.Intact
    constructor
    · intro matched
      cases read : readFile root tree generated.relativePath
          "read generated source package file" with
      | error err =>
        rw [read] at matched
        cases matched
      | ok bytes =>
        rw [read] at matched
        dsimp only at matched
        split at matched
        · cases matched
        · rename_i same
          exact ⟨readFile_ok.mp (read.trans (congrArg Except.ok (not_not.mp same))), matched⟩
    · rintro ⟨there, matched⟩
      have read : readFile root tree generated.relativePath
          "read generated source package file" = .ok generated.contents := readFile_ok.mpr there
      rw [read]
      dsimp only
      rw [if_neg (not_not.mpr rfl), matched]

/-- A generated file that is missing is met before one that differs. -/
def MissingFirst (tree : EntryTree) (files : List GeneratedSourceFile) : Prop :=
  ∃ intact missing rest, files = intact ++ missing :: rest ∧
    (∀ generated ∈ intact, generated.Intact tree) ∧ tree.fileAt? missing.relativePath = none

theorem missingFirst_cons {generated : GeneratedSourceFile} {rest : List GeneratedSourceFile} :
    MissingFirst tree (generated :: rest) ↔ tree.fileAt? generated.relativePath = none ∨
      generated.Intact tree ∧ MissingFirst tree rest := by
  constructor
  · rintro ⟨intact, missing, after, split, kept, gone⟩
    cases intact with
    | nil =>
      cases split
      exact .inl gone
    | cons first intact =>
      cases split
      obtain ⟨here, kept⟩ := List.forall_mem_cons.mp kept
      exact .inr ⟨here, intact, missing, after, rfl, kept, gone⟩
  · rintro (gone | ⟨here, intact, missing, after, rfl, kept, gone⟩)
    · exact ⟨[], generated, rest, rfl, List.forall_mem_nil _, gone⟩
    · exact ⟨generated :: intact, missing, after, rfl, List.forall_mem_cons.mpr ⟨here, kept⟩, gone⟩

theorem generatedMatch_error {files : List GeneratedSourceFile} :
    (∃ err, generatedMatch root tree files = .error err) ↔ MissingFirst tree files := by
  induction files with
  | nil =>
    constructor
    · rintro ⟨_, h⟩
      cases h
    · rintro ⟨intact, _, _, split, -, -⟩
      exact absurd split (List.append_ne_nil_of_right_ne_nil intact (List.cons_ne_nil _ _)).symm
  | cons generated rest ih =>
    rw [missingFirst_cons, ← ih, generatedMatch]
    unfold GeneratedSourceFile.Intact
    constructor
    · rintro ⟨err, failed⟩
      cases read : readFile root tree generated.relativePath
          "read generated source package file" with
      | error err' => exact .inl (readFile_error.mp ⟨err', read⟩)
      | ok bytes =>
        rw [read] at failed
        dsimp only at failed
        split at failed
        · cases failed
        · rename_i same
          exact .inr ⟨readFile_ok.mp (read.trans (congrArg Except.ok (not_not.mp same))),
            err, failed⟩
    · rintro (gone | ⟨there, err, failed⟩)
      · obtain ⟨err, read⟩ : ∃ err, readFile root tree generated.relativePath
            "read generated source package file" = .error err := readFile_error.mpr gone
        rw [read]
        exact ⟨err, rfl⟩
      · have read : readFile root tree generated.relativePath
            "read generated source package file" = .ok generated.contents := readFile_ok.mpr there
        rw [read]
        dsimp only
        rw [if_neg (not_not.mpr rfl), failed]
        exact ⟨err, rfl⟩

/-- The toolchain and the generated files are as the request has them. -/
structure ContentsIntact (input : SourcePackageMaterializationRequest) (tree : EntryTree) :
    Prop where
  toolchain : tree.toolchain?.map trim = some input.toolchainLabel
  generated : ∀ generated ∈ input.generatedFiles, generated.Intact tree

/-- The check of the contents comes to a file that it cannot read. -/
inductive ContentsBroken (formats : SourceFormats) (input : SourcePackageMaterializationRequest)
    (tree : EntryTree) : Prop where
  | toolchain (unreadable : tree.toolchain? = none)
  | generated (labelled : tree.toolchain?.map trim = some input.toolchainLabel)
      (missing : MissingFirst tree input.generatedFiles)
  | manifest (intact : ContentsIntact input tree)
      (refused : ¬ManifestAccepted formats tree input.manifestPolicy)

variable {input : SourcePackageMaterializationRequest}

theorem contentsMatch_true : contentsMatch formats root tree input = .ok true ↔
    ContentsIntact input tree ∧ ManifestAccepted formats tree input.manifestPolicy := by
  unfold contentsMatch
  cases read : readToString root tree toolchainFileName
      "read generated source package lean-toolchain" with
  | error err =>
    constructor
    · intro h
      cases h
    · rintro ⟨⟨labelled, -⟩, -⟩
      rw [readToString_error.mp ⟨err, read⟩] at labelled
      cases labelled
  | ok text =>
    dsimp only
    have found := readToString_ok.mp read
    by_cases same : trim text = input.toolchainLabel
    · rw [if_neg (not_not.mpr same)]
      constructor
      · intro matched
        cases order : generatedMatch root tree input.generatedFiles with
        | error err =>
          rw [order] at matched
          cases matched
        | ok intact =>
          rw [order] at matched
          cases intact with
          | false => cases matched
          | true =>
            dsimp only at matched
            cases accepted : validateLakeManifest formats root tree input.manifestPolicy with
            | error err =>
              rw [accepted] at matched
              cases matched
            | ok _ =>
              exact ⟨⟨by rw [found, ← same]; rfl, generatedMatch_true.mp order⟩,
                validateLakeManifest_ok.mp accepted⟩
      · rintro ⟨⟨-, intact⟩, accepted⟩
        rw [generatedMatch_true.mpr intact]
        dsimp only
        rw [validateLakeManifest_ok.mpr accepted]
    · rw [if_pos same]
      constructor
      · intro h
        cases h
      · rintro ⟨⟨labelled, -⟩, -⟩
        rw [found] at labelled
        exact absurd (Option.some.inj labelled) same

theorem contentsMatch_error : (∃ err, contentsMatch formats root tree input = .error err) ↔
    ContentsBroken formats input tree := by
  unfold contentsMatch
  cases read : readToString root tree toolchainFileName
      "read generated source package lean-toolchain" with
  | error err =>
    exact ⟨fun _ => .toolchain (readToString_error.mp ⟨err, read⟩), fun _ => ⟨err, rfl⟩⟩
  | ok text =>
    dsimp only
    have found := readToString_ok.mp read
    by_cases same : trim text = input.toolchainLabel
    · have labelled : tree.toolchain?.map trim = some input.toolchainLabel := by
        rw [found, ← same]
        rfl
      rw [if_neg (not_not.mpr same)]
      constructor
      · rintro ⟨err, failed⟩
        cases order : generatedMatch root tree input.generatedFiles with
        | error err' => exact .generated labelled (generatedMatch_error.mp ⟨err', order⟩)
        | ok intact =>
          rw [order] at failed
          cases intact with
          | false => cases failed
          | true =>
            refine .manifest ⟨labelled, generatedMatch_true.mp order⟩ fun accepted => ?_
            dsimp only at failed
            rw [validateLakeManifest_ok.mpr accepted] at failed
            cases failed
      · rintro (unreadable | ⟨-, missing⟩ | ⟨intact, refused⟩)
        · rw [found] at unreadable
          cases unreadable
        · obtain ⟨err, failed⟩ := generatedMatch_error.mpr missing
          rw [failed]
          exact ⟨err, rfl⟩
        · rw [generatedMatch_true.mpr intact.generated]
          dsimp only
          cases accepted : validateLakeManifest formats root tree input.manifestPolicy with
          | error err => exact ⟨err, rfl⟩
          | ok _ => exact absurd (validateLakeManifest_ok.mp accepted) refused
    · rw [if_pos same]
      constructor
      · rintro ⟨_, h⟩
        cases h
      · rintro (unreadable | ⟨labelled, -⟩ | ⟨⟨labelled, -⟩, -⟩)
        · rw [found] at unreadable
          cases unreadable
        · rw [found] at labelled
          exact absurd (Option.some.inj labelled) same
        · rw [found] at labelled
          exact absurd (Option.some.inj labelled) same

/-- The entry is a directory with the files that are asked for, and its sidecar is the expected
one. -/
structure Recorded (formats : SourceFormats) (input : SourcePackageMaterializationRequest)
    (tree : EntryTree) : Prop where
  directory : tree.isDirectory [] = true
  present : ∀ path ∈ input.sentinelFiles ++ [manifestFileName, toolchainFileName, sidecarFileName],
    tree.isFile path = true
  sidecar : ∃ bytes, tree.fileAt? sidecarFileName = some bytes ∧
    formats.decodeSidecar bytes = .ok input.provenance

theorem entryMatches_recorded (recorded : Recorded formats input tree) :
    entryMatches formats root tree input input.provenance =
      contentsMatch formats root tree input := by
  obtain ⟨bytes, there, decoded⟩ := recorded.sidecar
  have read : readFile root tree sidecarFileName "read source package provenance sidecar" =
      .ok bytes := readFile_ok.mpr there
  unfold entryMatches
  rw [recorded.directory, List.all_eq_true.mpr recorded.present, if_neg (by decide),
    if_neg (by decide), read]
  dsimp only
  rw [decoded]
  exact if_neg (not_not.mpr rfl)

theorem entryMatches_unrecorded (unrecorded : ¬Recorded formats input tree) :
    entryMatches formats root tree input input.provenance = .ok false := by
  unfold entryMatches
  by_cases directory : tree.isDirectory [] = true
  · rw [directory, if_neg (by decide)]
    by_cases present : (input.sentinelFiles ++ [manifestFileName, toolchainFileName,
        sidecarFileName]).all tree.isFile = true
    · rw [present, if_neg (by decide)]
      have all := List.all_eq_true.mp present
      have here : tree.isFile sidecarFileName = true :=
        all _ (List.mem_append_right _ (by simp))
      obtain ⟨bytes, there⟩ := Option.isSome_iff_exists.mp here
      have read : readFile root tree sidecarFileName "read source package provenance sidecar" =
          .ok bytes := readFile_ok.mpr there
      rw [read]
      dsimp only
      cases decoded : formats.decodeSidecar bytes with
      | error err => rfl
      | ok provenance =>
        dsimp only
        apply if_pos
        rintro rfl
        exact unrecorded ⟨directory, all, bytes, there, decoded⟩
    · rw [Bool.not_eq_true _ |>.mp present]
      rfl
  · rw [Bool.not_eq_true _ |>.mp directory]
    rfl

structure Matching (formats : SourceFormats) (input : SourcePackageMaterializationRequest)
    (tree : EntryTree) : Prop where
  recorded : Recorded formats input tree
  intact : ContentsIntact input tree
  accepted : ManifestAccepted formats tree input.manifestPolicy

/-- The entry is damaged in a way that the match of it cannot see past. -/
structure Broken (formats : SourceFormats) (input : SourcePackageMaterializationRequest)
    (tree : EntryTree) : Prop where
  recorded : Recorded formats input tree
  broken : ContentsBroken formats input tree

theorem entryMatches_true : entryMatches formats root tree input input.provenance = .ok true ↔
    Matching formats input tree := by
  by_cases recorded : Recorded formats input tree
  · rw [entryMatches_recorded recorded, contentsMatch_true]
    constructor
    · rintro ⟨intact, accepted⟩
      exact ⟨recorded, intact, accepted⟩
    · rintro ⟨-, intact, accepted⟩
      exact ⟨intact, accepted⟩
  · rw [entryMatches_unrecorded recorded]
    constructor
    · intro h
      cases h
    · intro matching
      exact absurd matching.recorded recorded

theorem entryMatches_error :
    (∃ err, entryMatches formats root tree input input.provenance = .error err) ↔
      Broken formats input tree := by
  by_cases recorded : Recorded formats input tree
  · rw [entryMatches_recorded recorded, contentsMatch_error]
    constructor
    · intro broken
      exact ⟨recorded, broken⟩
    · intro broken
      exact broken.broken
  · rw [entryMatches_unrecorded recorded]
    constructor
    · rintro ⟨_, h⟩
      cases h
    · intro broken
      exact absurd broken.recorded recorded

end Match

theorem trimChars_newline (cs : List Char) : trimChars (cs ++ ['\n']) = trimChars cs := by
  have space : isWhiteSpace '\n' = true := by decide
  unfold trimChars
  rw [List.dropWhile_append]
  by_cases blank : (cs.dropWhile isWhiteSpace).isEmpty = true
  · rw [if_pos blank, List.isEmpty_iff.mp blank, List.dropWhile_cons_of_pos space]
    rfl
  · rw [if_neg blank, List.reverse_append, List.reverse_singleton, List.singleton_append,
      List.dropWhile_cons_of_pos space]

theorem trim_newline (text : String) : trim (text ++ "\n") = trim text := by
  unfold trim
  rw [String.toList_append]
  exact congrArg String.ofList (trimChars_newline _)

theorem lastWritten_of_mem {writes : List (PathBuf × List UInt8)} {path : PathBuf}
    {contents : List UInt8} (member : (path, contents) ∈ writes) :
    ∃ last, lastWritten writes path = some last := by
  induction writes with
  | nil => exact absurd member List.not_mem_nil
  | cons write rest ih =>
    rw [lastWritten]
    cases later : lastWritten rest path with
    | some last => exact ⟨last, rfl⟩
    | none =>
      obtain rfl | member := List.mem_cons.mp member
      · exact ⟨contents, by rw [if_pos rfl]; rfl⟩
      · obtain ⟨last, found⟩ := ih member
        rw [later] at found
        cases found

namespace SourcePackageMaterializationRequest

variable (formats : SourceFormats) (input : SourcePackageMaterializationRequest)

def writes : List (PathBuf × List UInt8) :=
  input.generatedFiles.map (fun generated => (generated.relativePath, generated.contents)) ++
    ((toolchainFileName, input.toolchainContents) ::
      match formats.encodeSidecar input.provenance with
      | .ok bytes => [(sidecarFileName, bytes)]
      | .error _ => [])

/-- The label is trimmed, and no file that is written later differs from a generated one at its
path. -/
structure Steady : Prop where
  trimmed : trim input.toolchainLabel = input.toolchainLabel
  kept : ∀ generated ∈ input.generatedFiles,
    lastWritten (input.writes formats) generated.relativePath = some generated.contents

/-- The serializer's reader reads the sidecar of this request back. -/
def SidecarReadBack : Prop :=
  ∀ bytes, formats.encodeSidecar input.provenance = .ok bytes →
    formats.decodeSidecar bytes = .ok input.provenance

structure Built (built : EntryTree) : Prop where
  files : ∃ copied, Overlaid copied built (input.writes formats)
  sidecar : ∃ bytes, formats.encodeSidecar input.provenance = .ok bytes
  directory : built.isDirectory [] = true
  accepted : ManifestAccepted formats built input.manifestPolicy
  sentinels : ∀ path ∈ input.sentinelFiles, built.isFile path = true

end SourcePackageMaterializationRequest

section Build

open SourcePackageMaterializationRequest

variable {formats : SourceFormats} {answers : SourceAnswers}
variable {input : SourcePackageMaterializationRequest} {built : EntryTree}

theorem writeGenerated_overlaid {root : PathBuf} {files : List GeneratedSourceFile}
    {tree tree' : EntryTree}
    (wrote : files.foldlM (fun tree generated => writeFile root tree generated.relativePath
      "write generated source package file" generated.contents) tree = .ok tree') :
    Overlaid tree tree' (files.map fun generated =>
      (generated.relativePath, generated.contents)) := by
  induction files generalizing tree with
  | nil =>
    cases wrote
    exact fun _ => rfl
  | cons generated rest ih =>
    rw [List.foldlM_cons] at wrote
    obtain ⟨between, first, others⟩ := bind_ok.mp wrote
    exact (putFile_overlaid first).trans (ih others)

theorem buildEntry_files (ran : input.buildEntry formats answers input.provenance = .ok built) :
    ∃ copied, input.copyPayload answers.payload (input.tempRoot answers) .emptyDir = .ok copied ∧
      Overlaid copied built (input.writes formats) := by
  unfold buildEntry at ran
  dsimp only at ran
  obtain ⟨copied, copy, ran⟩ := bind_ok.mp ran
  obtain ⟨generated, wrote, ran⟩ := bind_ok.mp ran
  obtain ⟨labelled, label, ran⟩ := bind_ok.mp ran
  obtain ⟨recorded, sidecar, ran⟩ := bind_ok.mp ran
  obtain ⟨_, -, ran⟩ := bind_ok.mp ran
  obtain ⟨_, -, ran⟩ := bind_ok.mp ran
  cases ran
  refine ⟨copied, copy, ?_⟩
  unfold writeSidecar at sidecar
  unfold writes
  cases encoded : formats.encodeSidecar input.provenance with
  | error err =>
    rw [encoded] at sidecar
    cases sidecar
  | ok bytes =>
    rw [encoded] at sidecar
    exact (writeGenerated_overlaid wrote).trans
      ((putFile_overlaid label).trans (putFile_overlaid sidecar))

theorem buildEntry_built (ran : input.buildEntry formats answers input.provenance = .ok built) :
    input.Built formats built := by
  obtain ⟨copied, -, files⟩ := buildEntry_files ran
  unfold buildEntry at ran
  dsimp only at ran
  obtain ⟨_, -, ran⟩ := bind_ok.mp ran
  obtain ⟨generated, -, ran⟩ := bind_ok.mp ran
  obtain ⟨labelled, -, ran⟩ := bind_ok.mp ran
  obtain ⟨recorded, sidecar, ran⟩ := bind_ok.mp ran
  obtain ⟨_, accepted, ran⟩ := bind_ok.mp ran
  obtain ⟨_, sentinels, ran⟩ := bind_ok.mp ran
  cases ran
  unfold writeSidecar at sidecar
  cases encoded : formats.encodeSidecar input.provenance with
  | error err =>
    rw [encoded] at sidecar
    cases sidecar
  | ok bytes =>
    rw [encoded] at sidecar
    dsimp only at sidecar
    refine ⟨⟨copied, files⟩, ⟨bytes, encoded⟩, putFile_root sidecar,
      validateLakeManifest_ok.mp accepted, fun path member => ?_⟩
    have there := forM_ok sentinels path member
    split at there
    · assumption
    · cases there

variable (build : input.Built formats built)

include build

theorem SourcePackageMaterializationRequest.Built.fileAt? {path : PathBuf} {contents : List UInt8}
    (member : (path, contents) ∈ input.writes formats) :
    built.fileAt? path = lastWritten (input.writes formats) path := by
  obtain ⟨copied, files⟩ := build.files
  obtain ⟨last, found⟩ := lastWritten_of_mem member
  rw [files path, found]
  rfl

theorem SourcePackageMaterializationRequest.Built.sidecarContents {bytes : List UInt8}
    (encoded : formats.encodeSidecar input.provenance = .ok bytes) :
    built.fileAt? sidecarFileName = some bytes := by
  obtain ⟨copied, files⟩ := build.files
  rw [files sidecarFileName]
  unfold writes
  rw [encoded, lastWritten_append, lastWritten, lastWritten_self]
  rfl

theorem SourcePackageMaterializationRequest.Built.toolchain? :
    built.toolchain? = some (input.toolchainLabel ++ "\n") := by
  obtain ⟨bytes, encoded⟩ := build.sidecar
  obtain ⟨copied, files⟩ := build.files
  have apart : sidecarFileName.place? ≠ toolchainFileName.place? := by decide +kernel
  have contents : built.fileAt? toolchainFileName = some input.toolchainContents := by
    rw [files toolchainFileName]
    unfold writes
    rw [encoded, lastWritten_append]
    unfold lastWritten lastWritten lastWritten
    rw [if_neg apart, if_pos rfl]
    rfl
  unfold EntryTree.toolchain?
  rw [contents]
  show (PathBuf.ofString (input.toolchainLabel ++ "\n")).toStr? = _
  unfold PathBuf.toStr?
  rw [if_pos (PathBuf.utf8_ofString _), PathBuf.pathString_ofString]

theorem SourcePackageMaterializationRequest.Built.recorded
    (readBack : input.SidecarReadBack formats) :
    Recorded formats input built := by
  obtain ⟨bytes, encoded⟩ := build.sidecar
  have sidecar := build.sidecarContents encoded
  have toolchain := build.toolchain?
  refine ⟨build.directory, fun path member => ?_, bytes, sidecar, readBack bytes encoded⟩
  obtain sentinel | member := List.mem_append.mp member
  · exact build.sentinels path sentinel
  · unfold EntryTree.isFile
    simp only [List.mem_cons, List.not_mem_nil, or_false] at member
    obtain rfl | rfl | rfl := member
    · obtain ⟨contents, _, _, there, -⟩ := build.accepted
      rw [there]
      rfl
    · unfold EntryTree.toolchain? at toolchain
      obtain ⟨contents, there, -⟩ := Option.bind_eq_some_iff.mp toolchain
      rw [there]
      rfl
    · rw [sidecar]
      rfl

theorem SourcePackageMaterializationRequest.Built.intact_iff :
    ContentsIntact input built ↔ input.Steady formats := by
  have label : built.toolchain?.map trim = some (trim input.toolchainLabel) := by
    rw [build.toolchain?, Option.map_some, trim_newline]
  have generated : ∀ generated ∈ input.generatedFiles, (generated.Intact built ↔
      lastWritten (input.writes formats) generated.relativePath = some generated.contents) := by
    intro generated member
    have written : (generated.relativePath, generated.contents) ∈ input.writes formats :=
      List.mem_append_left _ (List.mem_map_of_mem member)
    unfold GeneratedSourceFile.Intact
    rw [build.fileAt? written]
  constructor
  · intro intact
    constructor
    · exact Option.some.inj (label.symm.trans intact.toolchain)
    · intro file member
      exact (generated file member).mp (intact.generated file member)
  · intro steady
    constructor
    · rw [label, steady.trimmed]
    · intro file member
      exact (generated file member).mpr (steady.kept file member)

theorem SourcePackageMaterializationRequest.Built.matching_iff
    (readBack : input.SidecarReadBack formats) :
    Matching formats input built ↔ input.Steady formats := by
  rw [← build.intact_iff]
  constructor
  · intro matching
    exact matching.intact
  · intro intact
    exact ⟨build.recorded readBack, intact, build.accepted⟩

end Build

namespace SourcePackageMaterializationRequest

variable {formats : SourceFormats} {answers : SourceAnswers}
variable {input : SourcePackageMaterializationRequest} {prior : EntryTree} {out : Materialized}

theorem rebuild_built {built : EntryTree}
    (ran : input.rebuild formats answers input.provenance = .ok built) :
    input.Built formats built := by
  unfold rebuild at ran
  split at ran
  · cases ran
  · cases order : input.buildEntry formats answers input.provenance with
    | error err =>
      rw [order] at ran
      cases ran
    | ok tree =>
      rw [order] at ran
      dsimp only at ran
      split at ran
      · cases ran
      · cases ran
        exact buildEntry_built order

theorem materialize_matching (accepted : input.validateRequest = .ok ())
    (matching : Matching formats input prior) : input.materialize formats answers prior =
      .ok ⟨⟨input.entryRoot, input.provenance⟩, prior, false⟩ := by
  unfold materialize ensureMaterializedLocked
  rw [accepted]
  dsimp only
  rw [entryMatches_true.mpr matching]

theorem materialize_ok (ran : input.materialize formats answers prior = .ok out) :
    input.validateRequest = .ok () ∧
    (Matching formats input prior ∧ out = ⟨⟨input.entryRoot, input.provenance⟩, prior, false⟩ ∨
      ¬Matching formats input prior ∧ ∃ built,
        input.rebuild formats answers input.provenance = .ok built ∧
        out = ⟨⟨input.entryRoot, input.provenance⟩, built, true⟩) := by
  unfold materialize ensureMaterializedLocked at ran
  cases accepted : input.validateRequest with
  | error err =>
    rw [accepted] at ran
    cases ran
  | ok _ =>
    rw [accepted] at ran
    dsimp only at ran
    refine ⟨rfl, ?_⟩
    cases order : entryMatches formats input.entryRoot prior input input.provenance with
    | error err =>
      rw [order] at ran
      cases ran
    | ok matched =>
      rw [order] at ran
      cases matched with
      | true =>
        cases ran
        exact .inl ⟨entryMatches_true.mp order, rfl⟩
      | false =>
        dsimp only at ran
        refine .inr ⟨fun matching => ?_, ?_⟩
        · rw [entryMatches_true.mpr matching] at order
          cases order
        · cases fresh : input.rebuild formats answers input.provenance with
          | error err =>
            rw [fresh] at ran
            cases ran
          | ok built =>
            rw [fresh] at ran
            cases ran
            exact ⟨built, rfl, rfl⟩

theorem materialize_warm_iff (accepted : input.validateRequest = .ok ()) :
    input.materialize formats answers prior =
      .ok ⟨⟨input.entryRoot, input.provenance⟩, prior, false⟩ ↔ Matching formats input prior := by
  constructor
  · intro ran
    obtain ⟨-, ⟨matching, -⟩ | ⟨-, built, -, same⟩⟩ := materialize_ok ran
    · exact matching
    · cases congrArg Materialized.rebuilt same
  · exact materialize_matching accepted

end SourcePackageMaterializationRequest

/-- After a call that has returned an entry, a call with the same request takes it as it is exactly
if the first did so already, or if the request is one that its own files agree with. -/
theorem second_call_is_warm_iff (formats : SourceFormats)
    (input : SourcePackageMaterializationRequest) (readBack : input.SidecarReadBack formats)
    {answers : SourceAnswers} {prior : EntryTree} {out : Materialized}
    (first : input.materialize formats answers prior = .ok out) (answers' : SourceAnswers) :
    input.materialize formats answers' out.entry = .ok ⟨out.package, out.entry, false⟩ ↔
      Matching formats input prior ∨ input.Steady formats := by
  obtain ⟨accepted, ⟨matching, rfl⟩ | ⟨unmatched, built, ran, rfl⟩⟩ :=
    SourcePackageMaterializationRequest.materialize_ok first
  · constructor
    · intro _
      exact .inl matching
    · intro _
      exact SourcePackageMaterializationRequest.materialize_matching accepted matching
  · dsimp only
    rw [SourcePackageMaterializationRequest.materialize_warm_iff accepted,
      (SourcePackageMaterializationRequest.rebuild_built ran).matching_iff readBack]
    constructor
    · exact .inr
    · rintro (matching | steady)
      · exact absurd matching unmatched
      · exact steady

def zeroPackagesText : List UInt8 := FileName.ofString "\x7b\"packages\": []\x7d"

def sidecarText (p : SourcePackageProvenance) : String :=
  let quoted (text : String) := String.ofList (literal text.toList)
  "\x7b\n  \"schema_version\": " ++ p.schemaVersion.repr ++
    ",\n  \"package_name\": " ++ quoted p.packageName ++
    ",\n  \"materialized_package_name\": " ++ quoted p.materializedPackageName ++
    ",\n  \"library_name\": " ++ quoted p.libraryName ++
    ",\n  \"source_digest\": " ++ quoted p.sourceDigest ++
    ",\n  \"source_revision\": " ++ quoted p.sourceRevision ++
    ",\n  \"crate_name\": " ++ quoted p.crateName ++
    ",\n  \"crate_version\": " ++ quoted p.crateVersion ++
    ",\n  \"toolchain_label\": " ++ quoted p.toolchainLabel ++
    ",\n  \"generated_toolchain_file\": " ++
    (if p.generatedToolchainFile then "true" else "false") ++ "\n\x7d"

def smallRequest (label : String) : SourcePackageMaterializationRequest where
  sourceRoot := .ofString "/src"
  cacheRoot := .ofString "/cache"
  packageName := "p"
  materializedPackageName := "p"
  libraryName := "T"
  sourceDigest := "d"
  sourceRevision := "r"
  crateName := "c"
  crateVersion := "0"
  toolchainLabel := label
  includePaths := [manifestFileName, .ofString "T"]
  generatedFiles := []
  sentinelFiles := [.ofString "T/A.lean"]
  manifestPolicy := .zeroPackages

def smallFormats (label : String) : SourceFormats where
  json bytes :=
    if bytes = zeroPackagesText then .ok (.object [("packages", .array [])])
    else .error "expected value at line 1 column 1"
  encodeSidecar p := .ok (FileName.ofString (sidecarText p))
  decodeSidecar bytes :=
    if bytes = FileName.ofString (sidecarText (smallRequest label).provenance) then
      .ok (smallRequest label).provenance
    else .error "expected value at line 1 column 1"

def smallAnswers : SourceAnswers where
  payload path :=
    if path = .ofString "/src/lake-manifest.json" then some (.file zeroPackagesText)
    else if path = .ofString "/src/T" then
      some (.dir (.cons (FileName.ofString "A.lean") (.file (FileName.ofString "def a := 1")) .nil))
    else none
  processId := 7
  uniqueNanos := 1

theorem small_readBack (label : String) :
    (smallRequest label).SidecarReadBack (smallFormats label) := by
  intro bytes encoded
  cases encoded
  exact if_pos rfl

def hasEntry (out : Except SourcePackageError Materialized) : Bool :=
  match out with
  | .ok _ => true
  | .error _ => false

theorem exists_of_hasEntry {out : Except SourcePackageError Materialized}
    (entry : hasEntry out = true) : ∃ materialized, out = .ok materialized := by
  cases out with
  | ok materialized => exact ⟨materialized, rfl⟩
  | error _ => cases entry

theorem second_call_is_warm_small : ∃ out,
    (smallRequest "v4").materialize (smallFormats "v4") smallAnswers .absent = .ok out ∧
    (smallRequest "v4").materialize (smallFormats "v4") smallAnswers out.entry =
      .ok ⟨out.package, out.entry, false⟩ := by
  have there : hasEntry ((smallRequest "v4").materialize (smallFormats "v4") smallAnswers
      .absent) = true := by decide +kernel
  obtain ⟨out, first⟩ := exists_of_hasEntry there
  refine ⟨out, first, ?_⟩
  apply (second_call_is_warm_iff _ _ (small_readBack "v4") first smallAnswers).mpr
  exact .inr ⟨by decide +kernel, List.forall_mem_nil _⟩

/-- A label that was read from a file with its last line break: every call builds the entry
again. -/
theorem untrimmed_label_is_never_warm : ∃ out,
    (smallRequest "v4\n").materialize (smallFormats "v4\n") smallAnswers .absent = .ok out ∧
    (smallRequest "v4\n").materialize (smallFormats "v4\n") smallAnswers out.entry ≠
      .ok ⟨out.package, out.entry, false⟩ := by
  have there : hasEntry ((smallRequest "v4\n").materialize (smallFormats "v4\n") smallAnswers
      .absent) = true := by decide +kernel
  obtain ⟨out, first⟩ := exists_of_hasEntry there
  refine ⟨out, first, fun warm => ?_⟩
  have untrimmed : trim "v4\n" ≠ "v4\n" := by decide +kernel
  obtain ⟨accepted, ⟨matching, -⟩ | ⟨-, built, ran, rfl⟩⟩ :=
    SourcePackageMaterializationRequest.materialize_ok first
  · cases matching.recorded.directory
  · have matching := (SourcePackageMaterializationRequest.materialize_warm_iff accepted).mp warm
    have build := SourcePackageMaterializationRequest.rebuild_built ran
    exact untrimmed (build.intact_iff.mp matching.intact).trimmed

section Healing

open SourcePackageMaterializationRequest

variable (formats : SourceFormats) (answers : SourceAnswers)
variable (input : SourcePackageMaterializationRequest)

def Buildable : Prop := ∃ built, input.rebuild formats answers input.provenance = .ok built

/-- The call comes to an entry exactly when it does so in an empty cache, and then to the prior
entry, which matches, or to the one that an empty cache is given. -/
structure Heals (prior : EntryTree) : Prop where
  succeeds : (∃ out, input.materialize formats answers prior = .ok out) ↔
    ∃ out, input.materialize formats answers .absent = .ok out
  entry : ∀ out, input.materialize formats answers prior = .ok out →
    Matching formats input prior ∧ out.entry = prior ∧ out.rebuilt = false ∨
      input.materialize formats answers .absent = .ok out

variable {formats answers input} {prior : EntryTree}

theorem unrecorded_absent : ¬Recorded formats input .absent :=
  fun recorded => absurd recorded.directory (by decide)

theorem materialize_unmatched (accepted : input.validateRequest = .ok ())
    (unmatched : entryMatches formats input.entryRoot prior input input.provenance = .ok false) :
    input.materialize formats answers prior =
      input.materialize formats answers .absent := by
  unfold materialize ensureMaterializedLocked
  rw [accepted]
  dsimp only
  rw [unmatched, entryMatches_unrecorded unrecorded_absent]

theorem materialize_absent_iff (accepted : input.validateRequest = .ok ()) :
    (∃ out, input.materialize formats answers .absent = .ok out) ↔
      Buildable formats answers input := by
  constructor
  · rintro ⟨out, ran⟩
    obtain ⟨-, ⟨matching, -⟩ | ⟨-, built, fresh, -⟩⟩ := materialize_ok ran
    · exact absurd matching.recorded unrecorded_absent
    · exact ⟨built, fresh⟩
  · rintro ⟨built, fresh⟩
    unfold materialize ensureMaterializedLocked
    rw [accepted]
    dsimp only
    rw [entryMatches_unrecorded unrecorded_absent]
    dsimp only
    rw [fresh]
    exact ⟨_, rfl⟩

theorem materialize_broken (accepted : input.validateRequest = .ok ())
    (broken : Broken formats input prior) :
    ¬∃ out, input.materialize formats answers prior = .ok out := by
  obtain ⟨err, failed⟩ : ∃ err, entryMatches formats input.entryRoot prior input
      input.provenance = .error err := entryMatches_error.mpr broken
  unfold materialize ensureMaterializedLocked
  rw [accepted]
  dsimp only
  rw [failed]
  rintro ⟨_, h⟩
  cases h

theorem not_broken_of_matching (matching : Matching formats input prior) :
    ¬Broken formats input prior := by
  intro broken
  obtain ⟨err, failed⟩ : ∃ err, entryMatches formats input.entryRoot prior input
      input.provenance = .error err := entryMatches_error.mpr broken
  rw [entryMatches_true.mpr matching] at failed
  cases failed

end Healing

/-- A call heals its entry exactly if the entry is not broken, where the payload can be built, and
does not match, where it cannot. -/
theorem heals_iff (formats : SourceFormats) (answers : SourceAnswers)
    (input : SourcePackageMaterializationRequest) (accepted : input.validateRequest = .ok ())
    (prior : EntryTree) : Heals formats answers input prior ↔
      (Buildable formats answers input → ¬Broken formats input prior) ∧
      (¬Buildable formats answers input → ¬Matching formats input prior) := by
  rw [← materialize_absent_iff accepted]
  constructor
  · intro heals
    constructor
    · intro fresh broken
      exact materialize_broken accepted broken (heals.succeeds.mpr fresh)
    · intro fails matching
      exact fails (heals.succeeds.mp
        ⟨_, SourcePackageMaterializationRequest.materialize_matching accepted matching⟩)
  · rintro ⟨sound, plain⟩
    cases order : entryMatches formats input.entryRoot prior input input.provenance with
    | error err =>
      have broken := entryMatches_error.mp ⟨err, order⟩
      have stuck : ¬∃ out, input.materialize formats answers prior = .ok out :=
        materialize_broken accepted broken
      constructor
      · constructor
        · intro ran
          exact absurd ran stuck
        · intro fresh
          exact absurd broken (sound fresh)
      · intro out ran
        exact absurd ⟨out, ran⟩ stuck
    | ok matched =>
      cases matched with
      | false =>
        have same : input.materialize formats answers prior =
            input.materialize formats answers .absent := materialize_unmatched accepted order
        constructor
        · rw [same]
        · intro out ran
          rw [same] at ran
          exact .inr ran
      | true =>
        have matching := entryMatches_true.mp order
        have ran : input.materialize formats answers prior =
            .ok ⟨⟨input.entryRoot, input.provenance⟩, prior, false⟩ :=
          SourcePackageMaterializationRequest.materialize_matching accepted matching
        constructor
        · constructor
          · intro _
            by_contra fails
            exact plain fails matching
          · intro _
            exact ⟨_, ran⟩
        · intro out ran'
          cases ran.symm.trans ran'
          exact .inl ⟨matching, rfl, rfl⟩

theorem small_valid : (smallRequest "v4").validateRequest = .ok () := by decide +kernel

/-- The entry of a first call, with other contents in one of its files. -/
def withContents (entry : EntryTree) (name : String) (contents : List UInt8) : EntryTree :=
  Function.update entry [FileName.ofString name] (some (.file contents))

/-- An entry whose sidecar is overwritten is rebuilt. -/
theorem heals_small : ∃ out,
    (smallRequest "v4").materialize (smallFormats "v4") smallAnswers .absent = .ok out ∧
    Heals (smallFormats "v4") smallAnswers (smallRequest "v4")
      (withContents out.entry "source-package.json" (FileName.ofString "x")) := by
  have there : hasEntry ((smallRequest "v4").materialize (smallFormats "v4") smallAnswers
      .absent) = true := by decide +kernel
  obtain ⟨out, first⟩ := exists_of_hasEntry there
  have unrecorded : ¬Recorded (smallFormats "v4") (smallRequest "v4")
      (withContents out.entry "source-package.json" (FileName.ofString "x")) := by
    intro recorded
    obtain ⟨bytes, read, decoded⟩ := recorded.sidecar
    have overwritten : (withContents out.entry "source-package.json"
        (FileName.ofString "x")).fileAt? sidecarFileName = some (FileName.ofString "x") := by
      have there : (withContents out.entry "source-package.json" (FileName.ofString "x"))
          [FileName.ofString "source-package.json"] = some (.file (FileName.ofString "x")) :=
        Function.update_self ..
      have place : sidecarFileName.place? =
          some ⟨[FileName.ofString "source-package.json"], .name⟩ := by decide +kernel
      unfold EntryTree.fileAt? EntryTree.contents?
      rw [place, Option.bind_some, if_pos rfl, there]
    rw [overwritten] at read
    obtain rfl := Option.some.inj read
    have refused : (smallFormats "v4").decodeSidecar (FileName.ofString "x") =
        .error "expected value at line 1 column 1" := by decide +kernel
    rw [refused] at decoded
    cases decoded
  refine ⟨out, first, (heals_iff _ _ _ small_valid _).mpr
    ⟨fun _ broken => ?_, fun _ matching => ?_⟩⟩
  · exact unrecorded broken.recorded
  · exact unrecorded matching.recorded

/-- The manifest of an entry is overwritten with what is no JSON: no call succeeds any more. -/
theorem damaged_manifest_stays : ∃ out,
    (smallRequest "v4").materialize (smallFormats "v4") smallAnswers .absent = .ok out ∧
    ¬Heals (smallFormats "v4") smallAnswers (smallRequest "v4")
      (withContents out.entry "lake-manifest.json" (FileName.ofString "x")) := by
  have stuck : (match (smallRequest "v4").materialize (smallFormats "v4") smallAnswers
        .absent with
      | .ok out => !hasEntry ((smallRequest "v4").materialize (smallFormats "v4") smallAnswers
          (withContents out.entry "lake-manifest.json" (FileName.ofString "x")))
      | .error _ => false) = true := by decide +kernel
  cases first : (smallRequest "v4").materialize (smallFormats "v4") smallAnswers .absent with
  | error err =>
    rw [first] at stuck
    cases stuck
  | ok out =>
    rw [first] at stuck
    refine ⟨out, rfl, fun heals => ?_⟩
    obtain ⟨again, ran⟩ := heals.succeeds.mpr ⟨out, first⟩
    dsimp only at stuck
    rw [ran] at stuck
    cases stuck

end LeanRs
