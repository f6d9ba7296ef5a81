import LeanRs.General.Fallible
import LeanRs.Pool.Planning

/-! The batches of a plan partition its work, in an order that does not depend on the order of the
work, and each is keyed as its own capability is. -/
namespace LeanRs

open Std Fallible

namespace BatchGroupKey

theorem order_eq {k l : BatchGroupKey} (same : compare k l = .eq) :
    k.sourceRoot = l.sourceRoot ∧ k.imports = l.imports := by
  have parts : order k l = .eq := same
  unfold order at parts
  simp only [compareLex_eq_eq] at parts
  obtain ⟨-, -, -, roots, imports, -⟩ := parts
  exact ⟨LawfulEqCmp.eq_of_compare roots, LawfulEqCmp.eq_of_compare imports⟩

end BatchGroupKey

namespace LeanWorkerImportPlanner

variable {planner : LeanWorkerImportPlanner} {classes : CharClasses} {a : KeyAnswers}
  {sourceSet : LeanModuleSetFingerprint}

theorem groupKey_eq_iff {i j : LeanWorkerModuleWork} :
    planner.groupKey i = planner.groupKey j ↔
      i.sourceRoot = j.sourceRoot ∧ i.imports = j.imports := by
  unfold groupKey
  rw [BatchGroupKey.mk.injEq]
  simp

theorem groupKey_separate {i j : LeanWorkerModuleWork}
    (same : compare (planner.groupKey i) (planner.groupKey j) = .eq) :
    planner.groupKey i = planner.groupKey j :=
  groupKey_eq_iff.mpr (BatchGroupKey.order_eq same)

def Named (classes : CharClasses) (i : LeanWorkerModuleWork) : Prop :=
  classes.validateModuleName i.module = .ok () ∧ classes.validateModuleName i.sourceRoot = .ok ()

theorem groupWork_ok {modules : List LeanWorkerModuleWork}
    (named : ∀ i ∈ modules, Named classes i) :
    planner.groupWork classes modules = .ok (Groups.group planner.groupKey modules) := by
  unfold groupWork Groups.group
  generalize [] = groups
  induction modules generalizing groups with
  | nil => rfl
  | cons i rest ih =>
    obtain ⟨module, root⟩ := named i List.mem_cons_self
    rw [List.foldlM_cons, module, root]
    exact ih (fun j member => named j (List.mem_cons_of_mem _ member)) _

theorem named_of_groupWork {modules : List LeanWorkerModuleWork}
    {groups : List (BatchGroupKey × List LeanWorkerModuleWork)}
    (grouped : planner.groupWork classes modules = .ok groups) :
    ∀ i ∈ modules, Named classes i := by
  unfold groupWork at grouped
  revert grouped
  generalize [] = start
  intro grouped
  induction modules generalizing start with
  | nil => exact fun _ member => absurd member List.not_mem_nil
  | cons j rest ih =>
    rw [List.foldlM_cons] at grouped
    obtain ⟨next, first, others⟩ := bind_ok.mp grouped
    obtain ⟨_, module, first⟩ := bind_ok.mp first
    obtain ⟨_, root, -⟩ := bind_ok.mp first
    intro i member
    obtain rfl | later := List.mem_cons.mp member
    · exact ⟨module, root⟩
    · exact ih next others i later

theorem groups_row (modules : List LeanWorkerModuleWork) :
    Groups.Row planner.groupKey (Groups.group planner.groupKey modules) where
  sorted := Groups.group_sorted _ _
  nonempty := fun _ => Groups.group_nonempty
  keyed := fun _ => Groups.group_keyed fun _ _ _ _ => groupKey_separate

theorem byName_perm (modules : List LeanWorkerModuleWork) : (byName modules).Perm modules :=
  List.mergeSort_perm _ _

theorem byName_ordered (modules : List LeanWorkerModuleWork) :
    (byName modules).Pairwise fun i j => (compare i.module j.module).isLE = true := by
  apply List.pairwise_mergeSort
  · intro i j k first second
    exact TransCmp.isLE_trans first second
  · intro i j
    cases order : compare i.module j.module with
    | lt | eq => rfl
    | gt =>
      rw [OrientedCmp.lt_of_gt order]
      rfl

theorem byName_unique {modules modules' : List LeanWorkerModuleWork}
    (same : modules.Perm modules')
    (distinct : ∀ i ∈ modules, ∀ j ∈ modules, i.module = j.module → i = j) :
    byName modules = byName modules' := by
  have rows := ((byName_perm modules).trans same).trans (byName_perm modules').symm
  apply rows.eq_of_pairwise ?_ (byName_ordered modules) (byName_ordered modules')
  intro i j memberI memberJ below above
  have heldI := (byName_perm modules).mem_iff.mp memberI
  have heldJ := same.mem_iff.mpr ((byName_perm modules').mem_iff.mp memberJ)
  have equal : compare i.module j.module = .eq := OrientedCmp.isLE_antisymm below above
  exact distinct i heldI j heldJ (LawfulEqCmp.eq_of_compare equal)

/-- What a plan of some work is: the work in batches by root and imports, least group first, names
in order, and the session key of each batch that of its builder. -/
structure Partition (planner : LeanWorkerImportPlanner) (a : KeyAnswers)
    (items : List LeanWorkerModuleWork) (batches : List LeanWorkerPlannedBatch) : Prop where
  complete : (batches.flatMap LeanWorkerPlannedBatch.modules).Perm items
  described : ∀ b ∈ batches, ∀ i ∈ b.modules,
    i.sourceRoot = b.sourceRoot ∧ i.imports = b.imports
  shared : ∀ m n : Fin batches.length, ∀ i ∈ (batches.get m).modules,
    ∀ j ∈ (batches.get n).modules,
      m = n ↔ i.sourceRoot = j.sourceRoot ∧ i.imports = j.imports
  ordered : batches.Pairwise fun b c => compare b.groupKey c.groupKey = .lt
  named : ∀ b ∈ batches, b.modules.Pairwise fun i j => (compare i.module j.module).isLE = true
  keyed : ∀ b ∈ batches, b.sessionKey = b.capabilityBuilder.sessionKey a

theorem builder_sessionKey (batch : LeanWorkerPlannedBatch) (a : KeyAnswers) :
    batch.capabilityBuilder.sessionKey a =
      { batch.plainBuilder.sessionKey a with
        metadataExpectation := batch.metadataExpectation.map fun expectation =>
          ⟨expectation.exportName, expectation.request, expectation.expected⟩ } := by
  unfold LeanWorkerPlannedBatch.capabilityBuilder
  cases batch.metadataExpectation with
  | none => rfl
  | some expectation =>
    dsimp only [Option.map_some]
    cases expectation.expected with
    | none => exact LeanWorkerCapabilityBuilder.validateMetadata_sessionKey _ _ _ _
    | some expected => exact LeanWorkerCapabilityBuilder.expectMetadata_sessionKey _ _ _ _ _

theorem builder_restartPolicyClass (batch : LeanWorkerPlannedBatch) :
    batch.plainBuilder.restartPolicyClass = restartPolicyClass batch.restartPolicy := by
  show (if batch.restartPolicy.getD {} = {} then LeanWorkerRestartPolicyClass.default
    else .custom) = _
  cases batch.restartPolicy with
  | none => rfl
  | some policy => rfl

theorem batch_sessionKey (group : BatchGroupKey × List LeanWorkerModuleWork)
    (policy : group.1.restartPolicyClass = restartPolicyClass planner.config.restartPolicy) :
    (planner.batch a sourceSet group).sessionKey =
      (planner.batch a sourceSet group).capabilityBuilder.sessionKey a := by
  have built : (planner.batch a sourceSet group).capabilityBuilder.sessionKey a =
      { planner.batchSessionKey a group.1 with
        restartPolicyClass :=
          (planner.batch a sourceSet group).plainBuilder.restartPolicyClass } := by
    rw [builder_sessionKey]
    obtain ⟨⟨root, package, libName, profile, metadata, restart⟩⟩ := planner
    cases metadata with
    | none => rfl
    | some expectation => rfl
  have class' : (planner.batch a sourceSet group).plainBuilder.restartPolicyClass =
      group.1.restartPolicyClass := (builder_restartPolicyClass _).trans policy.symm
  rw [built, class']
  rfl

theorem mem_batch_modules {group : BatchGroupKey × List LeanWorkerModuleWork}
    {i : LeanWorkerModuleWork} :
    i ∈ (planner.batch a sourceSet group).modules ↔ i ∈ group.2 :=
  (byName_perm group.2).mem_iff

theorem flatMap_batch (groups : List (BatchGroupKey × List LeanWorkerModuleWork)) :
    ((groups.map (planner.batch a sourceSet)).flatMap LeanWorkerPlannedBatch.modules).Perm
      (groups.flatMap Prod.snd) := by
  induction groups with
  | nil => exact List.Perm.refl _
  | cons group rest ih => exact (byName_perm group.2).append ih

theorem Partition.of_row {groups : List (BatchGroupKey × List LeanWorkerModuleWork)}
    (row : Groups.Row planner.groupKey groups) {items : List LeanWorkerModuleWork}
    (all : (groups.flatMap Prod.snd).Perm items) :
    Partition planner a items (groups.map (planner.batch a sourceSet)) := by
  have keyOf : ∀ group ∈ groups, ∃ i, i ∈ group.2 ∧ group.1 = planner.groupKey i := by
    intro group member
    obtain ⟨i, inside⟩ := List.exists_mem_of_ne_nil _ (row.nonempty group member)
    exact ⟨i, inside, (row.keyed group member i inside).symm⟩
  constructor
  · exact (flatMap_batch groups).trans all
  · intro b member i inside
    obtain ⟨group, found, rfl⟩ := List.mem_map.mp member
    have key := row.keyed group found i (mem_batch_modules.mp inside)
    exact ⟨congrArg BatchGroupKey.sourceRoot key, congrArg BatchGroupKey.imports key⟩
  · intro m n i inM j inN
    have boundM : m.val < groups.length := by simpa using m.isLt
    have boundN : n.val < groups.length := by simpa using n.isLt
    have keyM : planner.groupKey i = (groups[m.val]).1 :=
      row.keyed _ (List.getElem_mem boundM) i (mem_batch_modules.mp (by simpa using inM))
    have keyN : planner.groupKey j = (groups[n.val]).1 :=
      row.keyed _ (List.getElem_mem boundN) j (mem_batch_modules.mp (by simpa using inN))
    rw [← @groupKey_eq_iff planner, keyM, keyN]
    constructor
    · rintro rfl
      rfl
    · intro same
      have apart := List.pairwise_iff_getElem.mp row.sorted
      have self : ∀ k : BatchGroupKey, compare k k = .eq := fun _ => ReflCmp.compare_self
      obtain less | equal | more := Nat.lt_trichotomy m.val n.val
      · have below := apart _ _ boundM boundN less
        rw [same, self] at below
        cases below
      · exact Fin.ext equal
      · have below := apart _ _ boundN boundM more
        rw [same, self] at below
        cases below
  · rw [List.pairwise_map]
    have whole : ∀ group ∈ groups, (planner.batch a sourceSet group).groupKey = group.1 := by
      intro group member
      obtain ⟨i, -, key⟩ := keyOf group member
      obtain ⟨k, modules⟩ := group
      obtain rfl : k = planner.groupKey i := key
      rfl
    apply row.sorted.imp_of_mem
    intro b c memberB memberC below
    rw [whole b memberB, whole c memberC]
    exact below
  · intro b member
    obtain ⟨group, -, rfl⟩ := List.mem_map.mp member
    exact byName_ordered group.2
  · intro b member
    obtain ⟨group, found, rfl⟩ := List.mem_map.mp member
    obtain ⟨i, -, key⟩ := keyOf group found
    apply batch_sessionKey
    rw [key]
    rfl

def DistinctNames (items : List LeanWorkerModuleWork) : Prop :=
  ∀ i ∈ items, ∀ j ∈ items, i.sourceRoot = j.sourceRoot → i.imports = j.imports →
    i.module = j.module → i = j

theorem batch_unique {group group' : BatchGroupKey × List LeanWorkerModuleWork}
    (key : group.1 = group'.1) (same : group.2.Perm group'.2)
    (distinct : ∀ i ∈ group.2, ∀ j ∈ group.2, i.module = j.module → i = j) :
    planner.batch a sourceSet group = planner.batch a sourceSet group' := by
  have modules : byName group.2 = byName group'.2 := byName_unique same distinct
  unfold batch
  rw [key, modules]

theorem batches_unique {items items' : List LeanWorkerModuleWork} (same : items.Perm items')
    (distinct : DistinctNames items) :
    (Groups.group planner.groupKey items).map (planner.batch a sourceSet) =
      (Groups.group planner.groupKey items').map (planner.batch a sourceSet) := by
  have row := @groups_row planner items
  have whole := Groups.group_flatten planner.groupKey items
  have whole' := Groups.group_flatten planner.groupKey items'
  have rows := row.unique (groups_row items') ((whole.trans same).trans whole'.symm)
  have names : ∀ group ∈ Groups.group planner.groupKey items,
      ∀ i ∈ group.2, ∀ j ∈ group.2, i.module = j.module → i = j := by
    intro group member i inI j inJ
    have held : ∀ k ∈ group.2, k ∈ items := fun k inside =>
      whole.mem_iff.mp (List.mem_flatMap.mpr ⟨group, member, inside⟩)
    have keys := (row.keyed group member i inI).trans (row.keyed group member j inJ).symm
    obtain ⟨roots, imports⟩ := groupKey_eq_iff.mp keys
    exact distinct i (held i inI) j (held j inJ) roots imports
  clear row whole whole'
  revert names rows
  generalize Groups.group planner.groupKey items = groups
  generalize Groups.group planner.groupKey items' = groups'
  intro rows names
  induction rows with
  | nil => rfl
  | cons head _ ih =>
    rw [List.map_cons, List.map_cons, ih fun group member =>
        names group (List.mem_cons_of_mem _ member),
      batch_unique head.1 head.2 (names _ List.mem_cons_self)]

theorem planWorkItems_ok {work : List LeanWorkerModuleWork} (named : ∀ i ∈ work, Named classes i) :
    planner.planWorkItems classes a work sourceSet =
      .ok ((Groups.group planner.groupKey work).map (planner.batch a sourceSet)) := by
  unfold planWorkItems
  rw [groupWork_ok named]
  rfl

/-- Work with the names of modules is planned, as a partition into batches, and in the same way in
every order in which it is given if the names of a group are distinct. -/
theorem planWorkItems_partitions (planner : LeanWorkerImportPlanner) (classes : CharClasses)
    (a : KeyAnswers) (sourceSet : LeanModuleSetFingerprint) (items : List LeanWorkerModuleWork)
    (named : ∀ i ∈ items, Named classes i) :
    ∃ batches, planner.planWorkItems classes a items sourceSet = .ok batches ∧
      Partition planner a items batches ∧
      (DistinctNames items → ∀ items', items.Perm items' →
        planner.planWorkItems classes a items' sourceSet = .ok batches) := by
  refine ⟨_, planWorkItems_ok named, ?_, ?_⟩
  · exact Partition.of_row (groups_row items) (Groups.group_flatten _ items)
  · intro distinct items' same
    have named' : ∀ i ∈ items', Named classes i :=
      fun i member => named i (same.mem_iff.mpr member)
    rw [planWorkItems_ok named', batches_unique same distinct]

/-- Two modules that stand out of order, in one root, for a project without metadata. -/
def twoModules : List LeanWorkerModuleWork := [⟨"B", ⟨[]⟩, "R", []⟩, ⟨"A", ⟨[]⟩, "R", []⟩]

def plainPlanner : LeanWorkerImportPlanner := ⟨⟨[47]⟩, "p", "L", .private, none, none⟩

def noAnswers : KeyAnswers := ⟨fun _ => none, ⟨"", "", "", "", ""⟩⟩

def emptySourceSet : LeanModuleSetFingerprint := ⟨⟨"", "", "", "", ""⟩, "", none, 0, 0⟩

theorem twoModules_planned :
    ∃ batches, plainPlanner.planWorkItems .ascii noAnswers twoModules emptySourceSet = .ok batches ∧
      Partition plainPlanner noAnswers twoModules batches ∧
      (DistinctNames twoModules → ∀ items', twoModules.Perm items' →
        plainPlanner.planWorkItems .ascii noAnswers items' emptySourceSet = .ok batches) := by
  apply planWorkItems_partitions
  intro i member
  simp only [twoModules, List.mem_cons, List.not_mem_nil, or_false] at member
  obtain rfl | rfl := member <;> exact ⟨rfl, rfl⟩

end LeanWorkerImportPlanner

end LeanRs
