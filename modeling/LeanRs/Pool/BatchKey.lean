import LeanRs.General.Text
import LeanRs.Pool.PlanPartition
import LeanRs.Toolchain.Paths

/-! The text that identifies a planned batch, and when two batches have different texts. -/
namespace LeanRs

open Text Fallible LeanWorkerImportPlanner
open LeanWorkerSessionImportProfile (label_injective)

/-- A character that may stand neither in a name of a module nor between its components. -/
def isSeparator (c : Char) : Bool :=
  c.toNat < 128 && !c.isAlpha && !c.isDigit && c != '_' && c.toNat != 39 && c != '.'

namespace CharClasses

variable {classes : CharClasses}

theorem continuesComponent_separator {c : Char} (separator : isSeparator c = true) :
    classes.startsComponent c = false ∧ classes.continuesComponent c = false := by
  unfold isSeparator at separator
  simp only [Bool.and_eq_true, decide_eq_true_eq, Bool.not_eq_true', bne_iff_ne] at separator
  obtain ⟨⟨⟨⟨⟨ascii, alpha⟩, digit⟩, underscore⟩, apostrophe⟩, -⟩ := separator
  unfold startsComponent continuesComponent isAlphanumeric
  rw [classes.isAlphabetic_ascii c ascii, classes.isNumeric_ascii c ascii, alpha, digit,
    beq_false_of_ne underscore, beq_false_of_ne apostrophe]
  exact ⟨rfl, rfl⟩

theorem component_plain {module : String} {components : List (List Char)}
    (valid : classes.validateComponents module components = .ok ()) {c : Char}
    (separator : isSeparator c = true) : ∀ component ∈ components, c ∉ component := by
  obtain ⟨start, continue'⟩ := @continuesComponent_separator classes c separator
  induction components with
  | nil => exact fun _ member => absurd member List.not_mem_nil
  | cons component rest ih =>
    cases component with
    | nil => cases valid
    | cons first chars =>
      unfold validateComponents at valid
      split at valid
      · cases valid
      · rename_i starts
        split at valid
        · cases valid
        · rename_i continues
          intro component member inside
          obtain rfl | later := List.mem_cons.mp member
          · obtain rfl | among := List.mem_cons.mp inside
            · rw [start] at starts
              exact starts rfl
            · apply continues
              exact List.any_eq_true.mpr ⟨c, among, by rw [continue']; rfl⟩
          · exact ih valid component later inside

theorem name_plain {module : String} (valid : classes.validateModuleName module = .ok ())
    {c : Char} (separator : isSeparator c = true) : c ∉ module.toList := by
  unfold validateModuleName at valid
  split at valid
  · cases valid
  · intro member
    rw [← @List.intercalate_splitOn _ module.toList _ _ '.'] at member
    obtain rfl | ⟨component, inside, found⟩ := mem_joined member
    · exact absurd separator (by decide)
    · exact component_plain valid separator component inside found

theorem name_nonempty {module : String} (valid : classes.validateModuleName module = .ok ()) :
    module.toList ≠ [] := by
  intro empty
  unfold validateModuleName at valid
  rw [empty] at valid
  cases valid

end CharClasses

theorem debug_injective {p q : LeanWorkerRestartPolicyClass} (same : p.debug = q.debug) :
    p = q := by
  cases p <;> cases q <;> first | rfl | exact absurd same (by decide)

theorem batchKeyString_fields (key : BatchGroupKey) (modules : List LeanWorkerModuleWork) :
    (batchKeyString key modules).toList =
      ((((((("project=".toList ++ key.projectRoot.pathString.toList) ++
        ';' :: ("package=".toList ++ key.package.toList)) ++
        ';' :: ("lib=".toList ++ key.libName.toList)) ++
        ';' :: ("source_root=".toList ++ key.sourceRoot.toList)) ++
        ';' :: ("imports=".toList ++ [','].intercalate (key.imports.map String.toList))) ++
        ';' :: ("profile=".toList ++ key.importProfile.label.toList)) ++
        ';' :: ("policy=".toList ++ key.restartPolicyClass.debug.toList)) ++
        ';' :: ("modules=".toList ++
          [','].intercalate ((modules.map LeanWorkerModuleWork.module).map String.toList)) := by
  unfold batchKeyString
  simp only [String.toList_append, String.toList_intercalate, List.append_assoc, List.cons_append]
  rfl

/-- The texts of a group that are not names of modules cannot be mistaken for a part of the key. -/
structure BatchGroupKey.Plain (key : BatchGroupKey) : Prop where
  projectRoot : key.projectRoot.Utf8
  package : ';' ∉ key.package.toList
  libName : ';' ∉ key.libName.toList
  imports : ∀ i ∈ key.imports, ';' ∉ i.toList ∧ ',' ∉ i.toList
  whole : key.imports ≠ [""]

structure BatchGroupKey.Valid (classes : CharClasses) (key : BatchGroupKey)
    (modules : List LeanWorkerModuleWork) : Prop where
  sourceRoot : classes.validateModuleName key.sourceRoot = .ok ()
  modules : ∀ i ∈ modules, classes.validateModuleName i.module = .ok ()

theorem joined_plain {mark : Char} {texts : List String} (between : mark ≠ ',')
    (plain : ∀ t ∈ texts, mark ∉ t.toList) :
    mark ∉ [','].intercalate (texts.map String.toList) := by
  intro member
  obtain same | ⟨piece, inside, found⟩ := mem_joined member
  · exact between same
  · obtain ⟨text, known, rfl⟩ := List.mem_map.mp inside
    exact plain text known found

theorem joined_texts_inj {texts texts' : List String} (plain : ∀ t ∈ texts, ',' ∉ t.toList)
    (plain' : ∀ t ∈ texts', ',' ∉ t.toList) (whole : texts ≠ [""]) (whole' : texts' ≠ [""])
    (same : [','].intercalate (texts.map String.toList) =
      [','].intercalate (texts'.map String.toList)) : texts = texts' := by
  have pieces : ∀ {ts : List String}, (∀ t ∈ ts, ',' ∉ t.toList) →
      ∀ piece ∈ ts.map String.toList, ',' ∉ piece := by
    intro ts plain piece member
    obtain ⟨t, known, rfl⟩ := List.mem_map.mp member
    exact plain t known
  have lists : ∀ {ts : List String}, ts ≠ [""] → ts.map String.toList ≠ [[]] := by
    intro ts whole single
    apply whole
    apply List.map_injective_iff.mpr (fun _ _ => String.toList_injective)
    exact single
  exact List.map_injective_iff.mpr (fun _ _ => String.toList_injective)
    (joined_inj (pieces plain) (pieces plain') (lists whole) (lists whole') same)

theorem batchKeyString_injective {classes classes' : CharClasses} {key key' : BatchGroupKey}
    {modules modules' : List LeanWorkerModuleWork} (plain : key.Plain) (plain' : key'.Plain)
    (valid : key.Valid classes modules) (valid' : key'.Valid classes' modules')
    (same : batchKeyString key modules = batchKeyString key' modules') :
    key = key' ∧ modules.map LeanWorkerModuleWork.module =
      modules'.map LeanWorkerModuleWork.module := by
  have names : ∀ {classes : CharClasses} {modules : List LeanWorkerModuleWork},
      (∀ i ∈ modules, classes.validateModuleName i.module = .ok ()) → ∀ {mark},
      isSeparator mark = true → ∀ t ∈ modules.map LeanWorkerModuleWork.module, mark ∉ t.toList := by
    intro classes modules valid mark separator t member
    obtain ⟨i, known, rfl⟩ := List.mem_map.mp member
    exact CharClasses.name_plain (valid i known) separator
  have whole : ∀ {classes : CharClasses} {modules : List LeanWorkerModuleWork},
      (∀ i ∈ modules, classes.validateModuleName i.module = .ok ()) →
      modules.map LeanWorkerModuleWork.module ≠ [""] := by
    intro classes modules valid single
    obtain ⟨i, known, empty⟩ := List.mem_map.mp (single ▸ List.mem_singleton_self "")
    exact CharClasses.name_nonempty (valid i known) (congrArg String.toList empty)
  have fields := congrArg String.toList same
  rw [batchKeyString_fields, batchKeyString_fields] at fields
  obtain ⟨fields, moduleLists⟩ := split_last
    (not_mem_labelled (by decide) (joined_plain (by decide) (names valid.modules (by decide))))
    (not_mem_labelled (by decide) (joined_plain (by decide) (names valid'.modules (by decide))))
    fields
  obtain ⟨fields, policies⟩ := split_last
    (by cases key.restartPolicyClass <;> decide +kernel)
    (by cases key'.restartPolicyClass <;> decide +kernel) fields
  obtain ⟨fields, profiles⟩ := split_last
    (by cases key.importProfile <;> decide +kernel)
    (by cases key'.importProfile <;> decide +kernel) fields
  obtain ⟨fields, importLists⟩ := split_last
    (not_mem_labelled (by decide)
      (joined_plain (by decide) fun i member => (plain.imports i member).1))
    (not_mem_labelled (by decide)
      (joined_plain (by decide) fun i member => (plain'.imports i member).1)) fields
  obtain ⟨fields, roots⟩ := split_last
    (not_mem_labelled (by decide) (CharClasses.name_plain valid.sourceRoot (by decide)))
    (not_mem_labelled (by decide) (CharClasses.name_plain valid'.sourceRoot (by decide))) fields
  obtain ⟨fields, libs⟩ := split_last (not_mem_labelled (by decide) plain.libName)
    (not_mem_labelled (by decide) plain'.libName) fields
  obtain ⟨fields, packages⟩ := split_last (not_mem_labelled (by decide) plain.package)
    (not_mem_labelled (by decide) plain'.package) fields
  have projects := String.toList_injective (List.append_cancel_left fields)
  have imports := joined_texts_inj (fun i member => (plain.imports i member).2)
    (fun i member => (plain'.imports i member).2) plain.whole plain'.whole
    (List.append_cancel_left importLists)
  have paths : key.projectRoot = key'.projectRoot := by
    rw [← plain.projectRoot, ← plain'.projectRoot, projects]
  constructor
  · obtain ⟨project, package, lib, root, imported, profile, policy⟩ := key
    obtain ⟨project', package', lib', root', imported', profile', policy'⟩ := key'
    rw [BatchGroupKey.mk.injEq]
    exact ⟨paths, String.toList_injective (List.append_cancel_left packages),
      String.toList_injective (List.append_cancel_left libs),
      String.toList_injective (List.append_cancel_left roots), imports,
      label_injective (String.toList_injective (List.append_cancel_left profiles)),
      debug_injective (String.toList_injective (List.append_cancel_left policies))⟩
  · exact joined_texts_inj (names valid.modules (by decide)) (names valid'.modules (by decide))
      (whole valid.modules) (whole valid'.modules) (List.append_cancel_left moduleLists)

theorem planned_batch {planner : LeanWorkerImportPlanner} {classes : CharClasses} {a : KeyAnswers}
    {sourceSet : LeanModuleSetFingerprint} {items : List LeanWorkerModuleWork}
    {batches : List LeanWorkerPlannedBatch}
    (planned : planner.planWorkItems classes a items sourceSet = .ok batches)
    {b : LeanWorkerPlannedBatch} (member : b ∈ batches) :
    b.fingerprint.batchKey = batchKeyString b.groupKey b.modules ∧
      b.groupKey.Valid classes b.modules := by
  obtain ⟨groups, grouped, mapped⟩ := bind_ok.mp planned
  have named := named_of_groupWork grouped
  rw [groupWork_ok named] at grouped
  cases grouped
  cases mapped
  obtain ⟨⟨key, work⟩, found, rfl⟩ := List.mem_map.mp member
  have row := @groups_row planner items
  have known : ∀ i ∈ work, Named classes i := fun i inside => named i
    ((Groups.group_flatten planner.groupKey items).mem_iff.mp
      (List.mem_flatMap.mpr ⟨_, found, inside⟩))
  obtain ⟨i, inside⟩ := List.exists_mem_of_ne_nil work (row.nonempty _ found)
  obtain rfl : planner.groupKey i = key := row.keyed _ found i inside
  constructor
  · rfl
  · constructor
    · exact (known i inside).2
    · intro j member
      exact (known j (mem_batch_modules.mp member)).1

/-- Batches of different groups, or with other modules, have different keys, if the texts of their
groups are plain. -/
theorem batch_keys_differ {planner planner' : LeanWorkerImportPlanner}
    {classes classes' : CharClasses} {a a' : KeyAnswers}
    {sourceSet sourceSet' : LeanModuleSetFingerprint} {items items' : List LeanWorkerModuleWork}
    {batches batches' : List LeanWorkerPlannedBatch}
    (planned : planner.planWorkItems classes a items sourceSet = .ok batches)
    (planned' : planner'.planWorkItems classes' a' items' sourceSet' = .ok batches')
    {b c : LeanWorkerPlannedBatch} (memberB : b ∈ batches) (memberC : c ∈ batches')
    (plainB : b.groupKey.Plain) (plainC : c.groupKey.Plain)
    (differ : b.groupKey ≠ c.groupKey ∨ b.modules.map LeanWorkerModuleWork.module ≠
      c.modules.map LeanWorkerModuleWork.module) :
    b.fingerprint.batchKey ≠ c.fingerprint.batchKey := by
  obtain ⟨keyB, validB⟩ := planned_batch planned memberB
  obtain ⟨keyC, validC⟩ := planned_batch planned' memberC
  rw [keyB, keyC]
  intro same
  obtain ⟨groups, names⟩ := batchKeyString_injective plainB plainC validB validC same
  obtain other | other := differ
  · exact other groups
  · exact other names

def importing (imports : List String) : LeanWorkerModuleWork := ⟨"A", ⟨[]⟩, "R", imports⟩

theorem importing_planned (imports : List String) :
    plainPlanner.planWorkItems .ascii noAnswers [importing imports] emptySourceSet =
      .ok [plainPlanner.batch noAnswers emptySourceSet
        (plainPlanner.groupKey (importing imports), [importing imports])] := by
  apply planWorkItems_ok
  intro i member
  have valid : CharClasses.ascii.validateModuleName "A" = .ok () ∧
      CharClasses.ascii.validateModuleName "R" = .ok () := ⟨rfl, rfl⟩
  rw [List.mem_singleton.mp member]
  exact valid

theorem importing_keys_differ :
    (plainPlanner.batch noAnswers emptySourceSet
      (plainPlanner.groupKey (importing ["A"]), [importing ["A"]])).fingerprint.batchKey ≠
    (plainPlanner.batch noAnswers emptySourceSet
      (plainPlanner.groupKey (importing ["B"]), [importing ["B"]])).fingerprint.batchKey :=
  batch_keys_differ (importing_planned ["A"]) (importing_planned ["B"])
    (List.mem_singleton_self _) (List.mem_singleton_self _)
    ⟨by decide +kernel, by decide, by decide, by decide, by decide⟩
    ⟨by decide +kernel, by decide, by decide, by decide, by decide⟩
    (Or.inl fun same => absurd (congrArg BatchGroupKey.imports same) (by decide))

/-- An import with a comma reads like two. -/
theorem comma_shares_key :
    ¬∀ (planner planner' : LeanWorkerImportPlanner) (classes classes' : CharClasses)
      (a a' : KeyAnswers) (sourceSet sourceSet' : LeanModuleSetFingerprint)
      (items items' : List LeanWorkerModuleWork) (batches batches' : List LeanWorkerPlannedBatch),
      planner.planWorkItems classes a items sourceSet = .ok batches →
      planner'.planWorkItems classes' a' items' sourceSet' = .ok batches' →
      ∀ b ∈ batches, ∀ c ∈ batches',
        b.groupKey ≠ c.groupKey ∨ b.modules.map LeanWorkerModuleWork.module ≠
          c.modules.map LeanWorkerModuleWork.module →
        b.fingerprint.batchKey ≠ c.fingerprint.batchKey := by
  intro separate
  have names : ∀ imports, byName [importing imports] = [importing imports] :=
    fun imports => List.mergeSort_singleton _
  apply separate plainPlanner plainPlanner .ascii .ascii noAnswers noAnswers emptySourceSet
    emptySourceSet _ _ _ _ (importing_planned ["A,B"]) (importing_planned ["A", "B"])
    _ (List.mem_singleton_self _) _ (List.mem_singleton_self _)
  · exact Or.inl fun same => absurd (congrArg BatchGroupKey.imports same) (by decide)
  · show batchKeyString _ (byName _) = batchKeyString _ (byName _)
    rw [names, names]
    decide +kernel

end LeanRs
