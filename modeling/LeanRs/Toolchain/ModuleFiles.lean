import LeanRs.Toolchain.ModuleNames

/-! The modules that discovery finds, beside the files that are there: when each file has one
module, and the module leads back to the file. -/
namespace LeanRs

open Fallible KeyTable

mutual

/-- The files with the extension below a path, in the order of the walk. -/
def leanFiles (path : RelPath) : SourceNode → List RelPath
  | .file => if path.getLast?.bind FileName.extension? = some leanExtension then [path] else []
  | .dir entries => leanSources path entries
  | .closedDir _ | .lost _ => []

def leanSources (dir : RelPath) : List (FileName × SourceNode) → List RelPath
  | [] => []
  | (name, node) :: rest => leanFiles (dir ++ [name]) node ++ leanSources dir rest

end

mutual

theorem collectEntry_ok {classes : CharClasses} {root : String} {path : RelPath}
    {before after : ModuleTable} {node : SourceNode}
    (found : collectEntry classes root path before node = .ok after) :
    (leanFiles path node).foldlM
        (fun modules path => collectFile classes root path modules) before =
      .ok after := by
  cases node with
  | lost source => rw [collectEntry] at found; cases found
  | closedDir source => rw [collectEntry] at found; cases found
  | dir entries =>
    rw [collectEntry] at found
    rw [leanFiles]
    exact collectSources_ok found
  | file =>
    rw [collectEntry] at found
    rw [leanFiles]
    split at found
    · rename_i named
      rw [if_pos named, List.foldlM_cons, found]
      rfl
    · rename_i other
      rw [if_neg other]
      exact found

theorem collectSources_ok {classes : CharClasses} {root : String} {dir : RelPath}
    {before after : ModuleTable} {entries : List (FileName × SourceNode)}
    (found : collectSources classes root dir before entries = .ok after) :
    (leanSources dir entries).foldlM (fun modules path => collectFile classes root path modules)
      before = .ok after := by
  cases entries with
  | nil =>
    rw [collectSources] at found
    exact found
  | cons entry rest =>
    obtain ⟨name, node⟩ := entry
    rw [collectSources] at found
    obtain ⟨middle, first, later⟩ := bind_ok.mp found
    rw [leanSources, List.foldlM_append]
    exact bind_ok.mpr ⟨middle, collectEntry_ok first, collectSources_ok later⟩

end

namespace SourceNode

def Distinct (node : SourceNode) : Prop :=
  ∀ path listed, node.at? path = some (.dir listed) → (listed.map Prod.fst).Nodup

theorem Distinct.entry {entries : List (FileName × SourceNode)} (distinct : (dir entries).Distinct)
    {name : FileName} {node : SourceNode} (found : entries.lookup name = some node) :
    node.Distinct := by
  intro path listed inside
  refine distinct (name :: path) listed ?_
  rw [at?, found]
  exact inside

end SourceNode

namespace SourceNode

theorem distinct_file : file.Distinct := by
  intro path listed found
  cases path <;> cases found

theorem distinct_dir {entries : List (FileName × SourceNode)}
    (names : (entries.map Prod.fst).Nodup) (below : ∀ entry ∈ entries, entry.2.Distinct) :
    (dir entries).Distinct := by
  intro path listed found
  cases path with
  | nil =>
    cases found
    exact names
  | cons name path =>
    rw [at?] at found
    cases entry : entries.lookup name with
    | none => rw [entry] at found; cases found
    | some node =>
      rw [entry] at found
      obtain ⟨before, after, rfl, -⟩ := List.lookup_eq_some_iff.mp entry
      exact below (name, node) (List.mem_append_right before List.mem_cons_self) path listed found

end SourceNode

theorem lookup_of_mem {A B : Type} [BEq A] [LawfulBEq A] {entries : List (A × B)}
    (distinct : (entries.map Prod.fst).Nodup) {a : A} {b : B} (member : (a, b) ∈ entries) :
    entries.lookup a = some b := by
  induction entries with
  | nil => cases member
  | cons entry rest ih =>
    obtain ⟨a', b'⟩ := entry
    rw [List.map_cons, List.nodup_cons] at distinct
    rcases List.mem_cons.mp member with same | later
    · cases same
      rw [List.lookup_cons_self]
    · have other : (a == a') = false := by
        refine beq_eq_false_iff_ne.mpr ?_
        rintro rfl
        exact distinct.1 (List.mem_map.mpr ⟨_, later, rfl⟩)
      rw [List.lookup_cons, other]
      exact ih distinct.2 later

theorem mem_of_lookup {A B : Type} [BEq A] [LawfulBEq A] {entries : List (A × B)} {a : A} {b : B}
    (found : entries.lookup a = some b) : (a, b) ∈ entries := by
  obtain ⟨before, after, rfl, -⟩ := List.lookup_eq_some_iff.mp found
  exact List.mem_append_right before List.mem_cons_self

mutual

theorem mem_leanFiles {path file : RelPath} {node : SourceNode} (distinct : node.Distinct) :
    file ∈ leanFiles path node ↔ ∃ rel, file = path ++ rel ∧ node.at? rel = some .file ∧
      file.getLast?.bind FileName.extension? = some leanExtension := by
  cases node with
  | file =>
    rw [leanFiles]
    constructor
    · intro member
      split at member
      · rename_i named
        rw [List.mem_singleton.mp member]
        exact ⟨[], (List.append_nil path).symm, rfl, named⟩
      · cases member
    · rintro ⟨rel, rfl, found, named⟩
      cases rel with
      | nil =>
        rw [List.append_nil] at named ⊢
        rw [if_pos named]
        exact List.mem_singleton_self path
      | cons name rel => cases found
  | dir entries =>
    rw [leanFiles, mem_leanSources fun name node member =>
      distinct.entry (lookup_of_mem (distinct [] entries rfl) member)]
    constructor
    · rintro ⟨name, node, member, rel, rfl, found, named⟩
      refine ⟨name :: rel, rfl, ?_, named⟩
      rw [SourceNode.at?, lookup_of_mem (distinct [] entries rfl) member]
      exact found
    · rintro ⟨rel, rfl, found, named⟩
      cases rel with
      | nil => cases found
      | cons name rel =>
        rw [SourceNode.at?] at found
        cases entry : entries.lookup name with
        | none => rw [entry] at found; cases found
        | some node =>
          rw [entry] at found
          exact ⟨name, node, mem_of_lookup entry, rel, rfl, found, named⟩
  | closedDir source =>
    rw [leanFiles]
    refine iff_of_false List.not_mem_nil ?_
    rintro ⟨rel, -, found, -⟩
    cases rel <;> cases found
  | lost source =>
    rw [leanFiles]
    refine iff_of_false List.not_mem_nil ?_
    rintro ⟨rel, -, found, -⟩
    cases rel <;> cases found

theorem mem_leanSources {dir file : RelPath} {entries : List (FileName × SourceNode)}
    (distinct : ∀ name node, (name, node) ∈ entries → node.Distinct) :
    file ∈ leanSources dir entries ↔ ∃ name node, (name, node) ∈ entries ∧
      ∃ rel, file = dir ++ name :: rel ∧ node.at? rel = some .file ∧
        file.getLast?.bind FileName.extension? = some leanExtension := by
  cases entries with
  | nil =>
    rw [leanSources]
    refine iff_of_false List.not_mem_nil ?_
    rintro ⟨name, node, member, -⟩
    cases member
  | cons entry rest =>
    obtain ⟨name, node⟩ := entry
    have here := distinct name node List.mem_cons_self
    have later : ∀ name node, (name, node) ∈ rest → node.Distinct := fun name node member =>
      distinct name node (List.mem_cons_of_mem _ member)
    rw [leanSources, List.mem_append, mem_leanFiles here, mem_leanSources later]
    constructor
    · rintro (⟨rel, rfl, found, named⟩ | ⟨name', node', member, rel, rfl, found, named⟩)
      · rw [List.append_assoc, List.singleton_append] at named ⊢
        exact ⟨name, node, List.mem_cons_self, rel, rfl, found, named⟩
      · exact ⟨name', node', List.mem_cons_of_mem _ member, rel, rfl, found, named⟩
    · rintro ⟨name', node', member, rel, rfl, found, named⟩
      rcases List.mem_cons.mp member with same | among
      · cases same
        refine Or.inl ⟨rel, ?_, found, named⟩
        rw [List.append_assoc, List.singleton_append]
      · exact Or.inr ⟨name', node', among, rel, rfl, found, named⟩

end

namespace ModuleTable

/-- The table after these insertions: ordered by name, each entry inserted under its own name, and
an entry for each name that was inserted. -/
structure Holds (table : ModuleTable) (inserted : List LeanModuleDescriptor) : Prop where
  sorted : Sorted table
  entry : ∀ k d, (k, d) ∈ table → k = d.module ∧ d ∈ inserted
  named : ∀ d ∈ inserted, ∃ d', (d.module, d') ∈ table

theorem holds_empty : Holds [] [] := ⟨List.Pairwise.nil, nofun, nofun⟩

theorem Holds.insert {table : ModuleTable} {inserted : List LeanModuleDescriptor}
    (holds : Holds table inserted) (d : LeanModuleDescriptor) :
    Holds (table.insert d) (inserted ++ [d]) where
  sorted := upsert_sorted _ _ _ holds.sorted
  entry k e member := by
    rcases mem_upsert member with old | new | ⟨e', found, same, changed⟩
    · exact ⟨(holds.entry k e old).1, List.mem_append_left _ (holds.entry k e old).2⟩
    · cases new
      exact ⟨rfl, List.mem_append_right _ List.mem_cons_self⟩
    · dsimp only at changed same
      rw [changed]
      exact ⟨(Std.LawfulEqCmp.eq_of_compare same).symm, List.mem_append_right _ List.mem_cons_self⟩
  named e member := by
    have sorted := upsert_sorted d.module d (fun _ => d) holds.sorted
    by_cases same : e.module = d.module
    · rw [same]
      exact ⟨_, (find?_eq_some sorted).mp (find?_upsert_self d.module d (fun _ => d) table)⟩
    · rcases List.mem_append.mp member with old | new
      · obtain ⟨e', found⟩ := holds.named e old
        have kept := find?_upsert_of_ne same d (fun _ => d) table
        rw [(find?_eq_some holds.sorted).mpr found] at kept
        exact ⟨e', (find?_eq_some sorted).mp kept⟩
      · exact absurd (congrArg LeanModuleDescriptor.module (List.mem_singleton.mp new)) same

end ModuleTable

/-- A source of a root: its file, or a file below its directory that has the extension. -/
def IsSourceOf (tree : ProjectDir) (root : String) (path : RelPath) : Prop :=
  tree.at? path = some .file ∧
    (path = moduleToFile root ∨ ∃ rel, rel ≠ [] ∧ path = moduleToDir root ++ rel ∧
      path.getLast?.bind FileName.extension? = some leanExtension)

def IsSource (tree : ProjectDir) (roots : List String) (path : RelPath) : Prop :=
  ∃ root ∈ roots, IsSourceOf tree root path

/-- A descriptor has the name that its path gives, and the name is accepted. -/
def LeanModuleDescriptor.Named (classes : CharClasses) (d : LeanModuleDescriptor) : Prop :=
  d.module = moduleFromPath d.path ∧ classes.checkModuleName d.module = .ok ()

theorem collectFile_ok {classes : CharClasses} {root : String} {path : RelPath}
    {before after : ModuleTable} (found : collectFile classes root path before = .ok after) :
    ∃ d : LeanModuleDescriptor, d.path = path ∧ d.Named classes ∧ after = before.insert d := by
  unfold collectFile at found
  obtain ⟨⟨⟩, valid, inserted⟩ := bind_ok.mp found
  exact ⟨⟨moduleFromPath path, path, root⟩, rfl, ⟨rfl, valid⟩, (Except.ok.inj inserted).symm⟩

theorem collectFiles_ok {classes : CharClasses} {root : String} {files : List RelPath}
    {before after : ModuleTable} (found : files.foldlM (fun modules path =>
      collectFile classes root path modules) before = .ok after)
    {inserted : List LeanModuleDescriptor} (holds : before.Holds inserted) :
    ∃ ds : List LeanModuleDescriptor, ds.map LeanModuleDescriptor.path = files ∧
      (∀ d ∈ ds, d.Named classes) ∧ after.Holds (inserted ++ ds) := by
  induction files generalizing before inserted with
  | nil =>
    cases found
    exact ⟨[], rfl, List.forall_mem_nil _, by rwa [List.append_nil]⟩
  | cons path files ih =>
    rw [List.foldlM_cons] at found
    obtain ⟨middle, first, later⟩ := bind_ok.mp found
    obtain ⟨d, rfl, named, rfl⟩ := collectFile_ok first
    obtain ⟨ds, rfl, others, final⟩ := ih later (holds.insert d)
    rw [List.append_assoc, List.singleton_append] at final
    exact ⟨d :: ds, rfl, List.forall_mem_cons.mpr ⟨named, others⟩, final⟩

theorem SourceNode.at?_append (node : SourceNode) (path rel : RelPath) :
    node.at? (path ++ rel) = (node.at? path).bind fun below => below.at? rel := by
  induction path generalizing node with
  | nil =>
    rw [List.nil_append]
    cases node <;> rfl
  | cons name path ih =>
    cases node with
    | dir entries =>
      rw [List.cons_append, at?, at?]
      cases entries.lookup name with
      | none => rfl
      | some below => exact ih below
    | file => rfl
    | closedDir source => rfl
    | lost source => rfl

theorem ProjectDir.at?_append (tree : ProjectDir) (path rel : RelPath) :
    tree.at? (path ++ rel) = (tree.at? path).bind fun below => below.at? rel :=
  (SourceNode.dir tree.entries).at?_append path rel

theorem SourceNode.at?_leaf {node : SourceNode} (leaf : node.isDir = false) {rel : RelPath}
    (some : rel ≠ []) : node.at? rel = none := by
  cases rel with
  | nil => exact absurd rfl some
  | cons name rel =>
    cases node with
    | file => rfl
    | lost source => rfl
    | dir entries => cases leaf
    | closedDir source => cases leaf

section Enumeration

variable {classes : CharClasses} {tree : ProjectDir}

theorem mem_walk {root : String} {entries : List (FileName × SourceNode)}
    (inside : tree.at? (moduleToDir root) = some (.dir entries)) (path : RelPath) :
    path ∈ leanSources (moduleToDir root) entries ↔ tree.at? path = some .file ∧
      ∃ rel, rel ≠ [] ∧ path = moduleToDir root ++ rel ∧
        path.getLast?.bind FileName.extension? = some leanExtension := by
  have distinct : (SourceNode.dir entries).Distinct := by
    intro rel listed found
    refine tree.distinct (moduleToDir root ++ rel) listed ?_
    have whole := tree.at?_append (moduleToDir root) rel
    rw [inside] at whole
    exact whole.trans found
  have walked : path ∈ leanSources (moduleToDir root) entries ↔ path ∈
      leanFiles (moduleToDir root) (.dir entries) := by rw [leanFiles]
  have below (rel : RelPath) : tree.at? (moduleToDir root ++ rel) =
      (SourceNode.dir entries).at? rel := by
    rw [tree.at?_append, inside, Option.bind_some]
  rw [walked, mem_leanFiles distinct]
  constructor
  · rintro ⟨rel, rfl, found, named⟩
    refine ⟨(below rel).trans found, rel, ?_, rfl, named⟩
    rintro rfl
    cases found
  · rintro ⟨found, rel, -, rfl, named⟩
    exact ⟨rel, rfl, (below rel).symm.trans found, named⟩

theorem any_isFile {path : RelPath} :
    (tree.at? path).any SourceNode.isFile = true ↔ tree.at? path = some .file := by
  cases tree.at? path with
  | none => exact iff_of_false nofun nofun
  | some node => cases node <;> simp [SourceNode.isFile]

def ownFile (tree : ProjectDir) (root : String) (before : ModuleTable) : ModuleTable :=
  if (tree.at? (moduleToFile root)).any SourceNode.isFile then
    before.insert { module := root, path := moduleToFile root, sourceRoot := root }
  else before

theorem ownFile_holds {root : String} (valid : classes.checkModuleName root = .ok ())
    {before : ModuleTable} {inserted : List LeanModuleDescriptor}
    (holds : before.Holds inserted) :
    ∃ ds : List LeanModuleDescriptor, (∀ d ∈ ds, d.Named classes) ∧
      (∀ path, path ∈ ds.map LeanModuleDescriptor.path ↔
        path = moduleToFile root ∧ tree.at? path = some .file) ∧
      (ownFile tree root before).Holds (inserted ++ ds) := by
  unfold ownFile
  split
  · rename_i present
    refine ⟨[⟨root, moduleToFile root, root⟩], ?_, fun path => ?_, holds.insert _⟩
    · refine List.forall_mem_singleton.mpr ⟨?_, valid⟩
      exact (moduleFromPath_moduleToFile root).symm
    · rw [List.map_singleton, List.mem_singleton]
      constructor
      · rintro rfl
        exact ⟨rfl, any_isFile.mp present⟩
      · exact And.left
  · rename_i missing
    refine ⟨[], List.forall_mem_nil _, fun path => ?_, by rwa [List.append_nil]⟩
    refine iff_of_false List.not_mem_nil ?_
    rintro ⟨rfl, present⟩
    exact missing (any_isFile.mpr present)

theorem enumerateRoot_eq (root : String) (before : ModuleTable) :
    enumerateRoot classes tree before root = match tree.at? (moduleToDir root) with
      | some (.dir entries) =>
        collectSources classes root (moduleToDir root) (ownFile tree root before) entries
      | some (.closedDir source) =>
        .error (.io (moduleToDir root) "could not read Lean source directory" source)
      | _ => .ok (ownFile tree root before) := rfl

theorem enumerateRoot_ok {root : String} (valid : classes.checkModuleName root = .ok ())
    {before after : ModuleTable} (found : enumerateRoot classes tree before root = .ok after)
    {inserted : List LeanModuleDescriptor} (holds : before.Holds inserted) :
    ∃ ds : List LeanModuleDescriptor, (∀ d ∈ ds, d.Named classes) ∧
      (∀ path, path ∈ ds.map LeanModuleDescriptor.path ↔ IsSourceOf tree root path) ∧
      after.Holds (inserted ++ ds) := by
  have ownFile_ok : ∃ ds : List LeanModuleDescriptor, _ ∧ _ ∧
      (ownFile tree root before).Holds (inserted ++ ds) := ownFile_holds valid holds
  obtain ⟨own, ownNamed, ownPaths, ownHolds⟩ := ownFile_ok
  rw [enumerateRoot_eq] at found
  have alone (none : ∀ path, ¬∃ rel, rel ≠ [] ∧ path = moduleToDir root ++ rel ∧
      tree.at? path = some .file) (same : ownFile tree root before = after) :
      ∃ ds : List LeanModuleDescriptor, (∀ d ∈ ds, d.Named classes) ∧
        (∀ path, path ∈ ds.map LeanModuleDescriptor.path ↔ IsSourceOf tree root path) ∧
        after.Holds (inserted ++ ds) := by
    refine ⟨own, ownNamed, fun path => ?_, same ▸ ownHolds⟩
    rw [ownPaths, IsSourceOf]
    constructor
    · exact fun both => ⟨both.2, Or.inl both.1⟩
    · rintro ⟨present, here | ⟨rel, some, below, -⟩⟩
      · exact ⟨here, present⟩
      · exact absurd ⟨rel, some, below, present⟩ (none path)
  have beneath {node : SourceNode} (inside : tree.at? (moduleToDir root) = some node)
      (leaf : node.isDir = false) (path : RelPath) :
      ¬∃ rel, rel ≠ [] ∧ path = moduleToDir root ++ rel ∧ tree.at? path = some .file := by
    rintro ⟨rel, some, rfl, present⟩
    rw [tree.at?_append, inside, Option.bind_some, SourceNode.at?_leaf leaf some] at present
    cases present
  cases inside : tree.at? (moduleToDir root) with
  | none =>
    rw [inside] at found
    refine alone (fun path => ?_) (Except.ok.inj found)
    rintro ⟨rel, -, rfl, present⟩
    rw [tree.at?_append, inside] at present
    cases present
  | some node =>
    rw [inside] at found
    cases node with
    | file => exact alone (beneath inside rfl) (Except.ok.inj found)
    | lost source => exact alone (beneath inside rfl) (Except.ok.inj found)
    | closedDir source => cases found
    | dir entries =>
      obtain ⟨ds, paths, named, final⟩ := collectFiles_ok (collectSources_ok found) ownHolds
      rw [List.append_assoc] at final
      refine ⟨own ++ ds, ?_, fun path => ?_, final⟩
      · exact List.forall_mem_append.mpr ⟨ownNamed, named⟩
      · rw [List.map_append, List.mem_append, ownPaths, paths, mem_walk inside, IsSourceOf,
          ← and_comm, ← and_or_left]

theorem enumerateRoots_ok {roots : List String}
    (valid : ∀ root ∈ roots, classes.checkModuleName root = .ok ()) {before after : ModuleTable}
    (found : roots.foldlM (enumerateRoot classes tree) before = .ok after)
    {inserted : List LeanModuleDescriptor} (holds : before.Holds inserted) :
    ∃ ds : List LeanModuleDescriptor, (∀ d ∈ ds, d.Named classes) ∧
      (∀ path, path ∈ ds.map LeanModuleDescriptor.path ↔ IsSource tree roots path) ∧
      after.Holds (inserted ++ ds) := by
  induction roots generalizing before inserted with
  | nil =>
    cases found
    refine ⟨[], List.forall_mem_nil _, fun path => iff_of_false List.not_mem_nil ?_,
      by rwa [List.append_nil]⟩
    rintro ⟨root, member, -⟩
    cases member
  | cons root roots ih =>
    rw [List.foldlM_cons] at found
    obtain ⟨middle, first, later⟩ := bind_ok.mp found
    obtain ⟨here, valid⟩ := List.forall_mem_cons.mp valid
    obtain ⟨ds, named, paths, holds⟩ := enumerateRoot_ok here first holds
    obtain ⟨es, named', paths', holds⟩ := ih valid later holds
    rw [List.append_assoc] at holds
    refine ⟨ds ++ es, List.forall_mem_append.mpr ⟨named, named'⟩, fun path => ?_, holds⟩
    rw [List.map_append, List.mem_append, paths, paths']
    simp only [IsSource, List.mem_cons, exists_eq_or_imp]

theorem enumerateSources_ok {roots : List String}
    (valid : ∀ root ∈ roots, classes.checkModuleName root = .ok ())
    {modules : List LeanModuleDescriptor}
    (found : enumerateSources classes tree roots = .ok modules) :
    ∃ (table : ModuleTable) (inserted : List LeanModuleDescriptor),
      modules = table.map Prod.snd ∧ table.Holds inserted ∧ (∀ d ∈ inserted, d.Named classes) ∧
        ∀ path, path ∈ inserted.map LeanModuleDescriptor.path ↔ IsSource tree roots path := by
  obtain ⟨table, walked, result⟩ := bind_ok.mp found
  obtain ⟨inserted, named, paths, holds⟩ :=
    enumerateRoots_ok valid walked ModuleTable.holds_empty
  exact ⟨table, inserted, (Except.ok.inj result).symm, holds, named, paths⟩

end Enumeration

/-- The modules are ordered by name, each source has one of them, and each leads back to its
source. -/
structure SourceBijection (tree : ProjectDir) (roots : List String)
    (modules : List LeanModuleDescriptor) : Prop where
  sorted : modules.Pairwise fun a b => compare a.module b.module = .lt
  once : (modules.map LeanModuleDescriptor.path).Nodup
  exactly : ∀ path, path ∈ modules.map LeanModuleDescriptor.path ↔ IsSource tree roots path
  leadsBack : ∀ d ∈ modules, moduleToFile d.module = d.path

namespace ModuleTable.Holds

variable {table : ModuleTable} {inserted : List LeanModuleDescriptor}
  (holds : table.Holds inserted)
include holds

theorem modules_sorted :
    (table.map Prod.snd).Pairwise fun a b => compare a.module b.module = .lt := by
  refine List.pairwise_map.mpr (holds.sorted.imp_of_mem fun {x y} first second less => ?_)
  rw [← (holds.entry x.1 x.2 first).1, ← (holds.entry y.1 y.2 second).1]
  exact less

theorem mem_inserted {d : LeanModuleDescriptor} (member : d ∈ table.map Prod.snd) :
    d ∈ inserted := by
  obtain ⟨⟨k, d⟩, inside, rfl⟩ := List.mem_map.mp member
  exact (holds.entry k d inside).2

theorem paths_iff (back : ∀ d ∈ inserted, moduleToFile d.module = d.path) (path : RelPath) :
    path ∈ (table.map Prod.snd).map LeanModuleDescriptor.path ↔
      path ∈ inserted.map LeanModuleDescriptor.path := by
  constructor
  · intro member
    obtain ⟨d, inside, rfl⟩ := List.mem_map.mp member
    exact List.mem_map_of_mem (holds.mem_inserted inside)
  · intro member
    obtain ⟨d, inside, rfl⟩ := List.mem_map.mp member
    obtain ⟨d', found⟩ := holds.named d inside
    obtain ⟨same, also⟩ := holds.entry d.module d' found
    have path : d'.path = d.path := by rw [← back d' also, ← same, back d inside]
    exact path ▸ List.mem_map_of_mem (List.mem_map_of_mem found)

theorem paths_nodup (named : ∀ d ∈ inserted, d.module = moduleFromPath d.path) :
    ((table.map Prod.snd).map LeanModuleDescriptor.path).Nodup := by
  refine List.pairwise_map.mpr (holds.modules_sorted.imp_of_mem ?_)
  intro a b first second less same
  have names : a.module = b.module := by
    rw [named a (holds.mem_inserted first), named b (holds.mem_inserted second), same]
  have equal : compare b.module b.module = .eq := Std.ReflCmp.compare_self
  rw [names, equal] at less
  cases less

end ModuleTable.Holds

section Bijection

variable {formats : Formats} {classes : UnicodeClasses} {tree : ProjectDir}
  {a : DiscoveryAnswers} {selected : Option (List String)} {project : LeanLakeProjectModules}

theorem discoverLakeModules_ok
    (found : discoverLakeModules formats classes.toCharClasses tree a selected = .ok project) :
    (∀ root ∈ project.selectedRoots, classes.checkModuleName root = .ok ()) ∧
      enumerateSources classes.toCharClasses tree project.selectedRoots = .ok project.modules := by
  unfold discoverLakeModules at found
  cases unsupported : a.unsupported with
  | some versions =>
    rw [unsupported] at found
    cases found
  | none =>
    rw [unsupported] at found
    obtain ⟨⟨⟩, -, found⟩ := bind_ok.mp found
    obtain ⟨roots, -, found⟩ := bind_ok.mp found
    obtain ⟨⟨⟩, checked, found⟩ := bind_ok.mp found
    obtain ⟨modules, enumerated, found⟩ := bind_ok.mp found
    obtain ⟨fingerprint, -, found⟩ := bind_ok.mp found
    cases found
    refine ⟨fun root member => ?_, enumerated⟩
    obtain ⟨⟨⟩, accepted, -⟩ := bind_ok.mp (forM_ok checked root member)
    exact accepted

/-- A discovery that succeeds finds one module for each source, and a way back, exactly if no
source has a dot in its path but the one before the extension. -/
theorem modules_bijective_iff
    (found : discoverLakeModules formats classes.toCharClasses tree a selected = .ok project) :
    SourceBijection tree project.selectedRoots project.modules ↔
      ∀ path, IsSource tree project.selectedRoots path → Undotted path := by
  obtain ⟨valid, enumerated⟩ := discoverLakeModules_ok found
  obtain ⟨table, inserted, modules, holds, named, paths⟩ := enumerateSources_ok valid enumerated
  rw [modules]
  constructor
  · intro bijection path source
    obtain ⟨d, member, rfl⟩ := List.mem_map.mp ((bijection.exactly path).mpr source)
    rw [← bijection.leadsBack d member]
    exact moduleToFile_undotted d.module
  · intro undotted
    have back : ∀ d ∈ inserted, moduleToFile d.module = d.path := by
      intro d member
      obtain ⟨name, accepted⟩ := named d member
      have plain := undotted d.path ((paths d.path).mp (List.mem_map_of_mem member))
      rw [name] at accepted ⊢
      exact moduleToFile_moduleFromPath plain (classes.replacement_not_mem accepted)
    exact {
      sorted := holds.modules_sorted
      once := holds.paths_nodup fun d member => (named d member).1
      exactly := fun path => (holds.paths_iff back path).trans (paths path)
      leadsBack := fun d member => back d (holds.mem_inserted member) }

end Bijection

def demoTree (entries : List (FileName × SourceNode))
    (distinct : (SourceNode.dir entries).Distinct) : ProjectDir where
  entries := [(.ofString "Demo.lean", .file), (.ofString "Demo", .dir entries)]
  distinct := by
    have names : [FileName.ofString "Demo.lean", FileName.ofString "Demo"].Nodup := by
      decide +kernel
    refine SourceNode.distinct_dir names (List.forall_mem_cons.mpr ⟨?_, ?_⟩)
    · exact SourceNode.distinct_file
    · exact List.forall_mem_singleton.mpr distinct

def demoAnswers : DiscoveryAnswers where
  toolchain := ⟨"4.33.0", "4.33.0", "", "", ""⟩
  unsupported := none
  located := .ok ()
  lakefile := ⟨false, .ok "package demo\nlean_lib Demo where\n"⟩
  lakefileSha256 := .ok ""
  manifestSha256 := none
  modifiedNs _ := .ok 0

def discoverDemo (tree : ProjectDir) :
    Except LeanModuleDiscoveryDiagnostic LeanLakeProjectModules :=
  discoverLakeModules ⟨fun _ => .error "", fun _ => .error "", fun _ => ""⟩
    UnicodeClasses.ascii.toCharClasses tree demoAnswers none

theorem ok_of_map {E A B : Type} {x : Except E A} {f : A → B} {b : B}
    (value : x.toOption.map f = some b) : ∃ a, x = .ok a ∧ f a = b := by
  obtain ⟨a, found, same⟩ := Option.map_eq_some_iff.mp value
  cases x with
  | error err => cases found
  | ok a' =>
    cases found
    exact ⟨a, rfl, same⟩

def plainTree : ProjectDir :=
  demoTree [(.ofString "B.lean", .file)] (SourceNode.distinct_dir (by decide)
    (List.forall_mem_singleton.mpr SourceNode.distinct_file))

/-- The two files are found, each under its name. -/
theorem plainTree_bijective : ∃ project, discoverDemo plainTree = .ok project ∧
    SourceBijection plainTree project.selectedRoots project.modules := by
  have value : (discoverDemo plainTree).toOption.map LeanLakeProjectModules.selectedRoots =
      some ["Demo"] := by decide +kernel
  obtain ⟨project, found, roots⟩ := ok_of_map value
  refine ⟨project, found, (modules_bijective_iff found).mpr fun path source => ?_⟩
  rw [roots] at source
  obtain ⟨root, member, present, own | below⟩ := source
  · rw [own]
    exact moduleToFile_undotted root
  · rw [List.mem_singleton.mp member] at below
    have dir : moduleToDir "Demo" = [FileName.ofString "Demo"] := by decide +kernel
    have inside : plainTree.at? (moduleToDir "Demo") =
        some (.dir [(.ofString "B.lean", .file)]) := by
      rw [dir, ProjectDir.at?, SourceNode.at?, lookup_of_mem (plainTree.distinct [] _ rfl)
        (List.mem_cons_of_mem _ List.mem_cons_self)]
      rfl
    have walked := (mem_walk inside path).mpr ⟨present, below⟩
    have files : leanSources (moduleToDir "Demo") [(.ofString "B.lean", .file)] =
        [moduleToFile "Demo.B"] := by decide +kernel
    rw [files, List.mem_singleton] at walked
    rw [walked]
    exact moduleToFile_undotted "Demo.B"

def dottedTree : ProjectDir :=
  demoTree [(.ofString "A.B.lean", .file), (.ofString "A", .dir [(.ofString "B.lean", .file)])]
    (SourceNode.distinct_dir (by decide +kernel)
      (List.forall_mem_cons.mpr ⟨SourceNode.distinct_file,
      List.forall_mem_singleton.mpr (SourceNode.distinct_dir (by decide)
        (List.forall_mem_singleton.mpr SourceNode.distinct_file))⟩))

/-- Two of the three files share a name, and one of them is dropped without a word. -/
theorem dottedTree_drops : ∃ project, discoverDemo dottedTree = .ok project ∧
    project.modules.map LeanModuleDescriptor.module = ["Demo", "Demo.A.B"] ∧
    IsSource dottedTree project.selectedRoots [.ofString "Demo", .ofString "A.B.lean"] ∧
    ¬SourceBijection dottedTree project.selectedRoots project.modules := by
  have value : (discoverDemo dottedTree).toOption.map (fun project =>
      (project.selectedRoots, project.modules.map LeanModuleDescriptor.module,
        project.modules.map LeanModuleDescriptor.path)) =
      some (["Demo"], ["Demo", "Demo.A.B"], [moduleToFile "Demo", moduleToFile "Demo.A.B"]) := by
    decide +kernel
  obtain ⟨project, found, same⟩ := ok_of_map value
  obtain ⟨roots, names, paths⟩ : _ ∧ _ ∧ _ := ⟨congrArg Prod.fst same,
    congrArg (Prod.fst ∘ Prod.snd) same, congrArg (Prod.snd ∘ Prod.snd) same⟩
  dsimp only [Function.comp_apply] at roots names paths
  have source : IsSource dottedTree project.selectedRoots
      [.ofString "Demo", .ofString "A.B.lean"] := by
    rw [roots]
    refine ⟨"Demo", List.mem_singleton_self _, any_isFile.mp (by decide +kernel),
      Or.inr ⟨[.ofString "A.B.lean"], List.cons_ne_nil _ _, ?_, ?_⟩⟩
    · decide +kernel
    · decide +kernel
  refine ⟨project, found, names, source, fun bijection => ?_⟩
  have member := (bijection.exactly _).mpr source
  rw [paths] at member
  exact absurd member (by decide +kernel)

end LeanRs
