import LeanRs.General.Fallible
import LeanRs.Loader.Bundle

/-! What a preflight without findings says about the load that follows. It settles every cause of
failure but two: an initializer that a dependency lacks, and an import that only a dependency with
hidden symbols defines. -/
namespace LeanRs

open Fallible

section Load

variable (host : LoaderHost) (files : PathBuf → ArtifactFile)

/-- The path leads to this dylib, which is one for the host. -/
def DylibIs (path : PathBuf) (file : ObjectFile) : Prop :=
  files path = .object file ∧ architectureMatchesHost host file.architecture = true

/-- The dylib exports the initializer under one of its two names. -/
def HasInitializer (info : ArtifactInfo) (package module : String) : Prop :=
  ∃ name, InitializerName.fromLakeNames host.debugChar package module = .ok name ∧
    (name.symbol ∈ info.definedSymbols ∨ name.legacySymbol ∈ info.definedSymbols)

def Defines (dependency : LeanLibraryDependency) (symbol : String) : Prop :=
  ∃ file, DylibIs host files dependency.path file ∧ symbol ∈ file.info.definedSymbols

/-- The dependency is there and exports the initializer that it is opened with. -/
def Opens (dependency : LeanLibraryDependency) : Prop :=
  ∃ file, DylibIs host files dependency.path file ∧
    ∀ initializer, dependency.initializer = some initializer →
      HasInitializer host file.info initializer.package initializer.module

/-- Everything that a load of the manifest can miss is in place, if these are the imports of the
primary dylib that count. -/
structure Loadable (imports : ObjectFile → List String) (manifest : CapabilityManifest) :
    Prop where
  dependencies : ∀ dependency ∈ manifest.dependencies, Opens host files dependency
  primary : ∃ file, DylibIs host files manifest.primaryDylib file ∧
    HasInitializer host file.info manifest.package manifest.module ∧
    ∀ symbol ∈ imports file, isLeanDependencySymbol symbol = true →
      ∃ dependency ∈ manifest.dependencies, dependency.exportsSymbolsForDependents = true ∧
        Defines host files dependency symbol

theorem DylibIs.unique {path : PathBuf} {file file' : ObjectFile}
    (h : DylibIs host files path file) (h' : DylibIs host files path file') : file = file' :=
  ArtifactFile.object.inj (h.1.symm.trans h'.1)

section Steps

variable (answers : LoaderAnswers)

theorem openDylib_ok {path : PathBuf} {file : ObjectFile}
    (h : LeanLibrary.openDylib host files answers path = .ok file) :
    DylibIs host files path file := by
  unfold LeanLibrary.openDylib at h
  cases found : files path with
  | missing err | unreadable err | unparsable err =>
    rw [found] at h
    cases h
  | object file =>
    rw [found] at h
    dsimp only at h
    split at h
    next fits =>
      split at h
      · cases h
        exact ⟨found, fits⟩
      · cases h
    next => cases h

theorem openDylib_error {path : PathBuf} {file : ObjectFile} {failure : LoadFailure}
    (present : DylibIs host files path file)
    (h : LeanLibrary.openDylib host files answers path = .error failure) :
    failure.cause = .other := by
  obtain ⟨found, fits⟩ := present
  unfold LeanLibrary.openDylib at h
  rw [found] at h
  dsimp only at h
  rw [if_pos fits] at h
  split at h
  · cases h
  · cases h
    rfl

theorem initializeModule_ok {path : PathBuf} {info : ArtifactInfo} {package module : String}
    {u : Unit} (h : LeanLibrary.initializeModule host answers path info package module = .ok u) :
    HasInitializer host info package module := by
  unfold LeanLibrary.initializeModule at h
  cases named : InitializerName.fromLakeNames host.debugChar package module with
  | error err =>
    rw [named] at h
    cases h
  | ok name =>
    rw [named] at h
    dsimp only at h
    split at h
    next exported => exact ⟨name, named, exported⟩
    next => cases h

theorem initializeModule_error {path : PathBuf} {info : ArtifactInfo} {package module : String}
    {failure : LoadFailure} (has : HasInitializer host info package module)
    (h : LeanLibrary.initializeModule host answers path info package module = .error failure) :
    failure.cause = .other := by
  obtain ⟨name, named, exported⟩ := has
  unfold LeanLibrary.initializeModule at h
  rw [named] at h
  dsimp only at h
  rw [if_pos exported] at h
  cases ends : answers.initializerEnds path with
  | error err =>
    rw [ends] at h
    cases h
    rfl
  | ok u =>
    rw [ends] at h
    cases h

theorem initializeDependency_ok {dependency : LeanLibraryDependency} {info : ArtifactInfo}
    {u : Unit} (h : initializeDependency host answers dependency info = .ok u) :
    ∀ initializer, dependency.initializer = some initializer →
      HasInitializer host info initializer.package initializer.module := by
  intro initializer wanted
  unfold initializeDependency at h
  rw [wanted] at h
  exact initializeModule_ok host answers h

theorem initializeDependency_error {dependency : LeanLibraryDependency} {info : ArtifactInfo}
    {failure : LoadFailure} (has : ∀ initializer, dependency.initializer = some initializer →
      HasInitializer host info initializer.package initializer.module)
    (h : initializeDependency host answers dependency info = .error failure) :
    failure.cause = .other := by
  unfold initializeDependency at h
  cases wanted : dependency.initializer with
  | none =>
    rw [wanted] at h
    cases h
  | some initializer =>
    rw [wanted] at h
    exact initializeModule_error host answers (has initializer wanted) h

theorem resolveImports_ok {path : PathBuf} {file : ObjectFile} {visible : List String} {u : Unit}
    (h : resolveImports answers path file visible = .ok u) :
    ∀ symbol ∈ file.eagerImports, isLeanDependencySymbol symbol = true → symbol ∈ visible := by
  intro symbol mem lean
  unfold resolveImports at h
  split at h
  next none =>
    have := List.find?_eq_none.mp none symbol mem
    simpa [lean] using this
  next => cases h

theorem resolveImports_ok_of {path : PathBuf} {file : ObjectFile} {visible : List String}
    (resolved : ∀ symbol ∈ file.eagerImports, isLeanDependencySymbol symbol = true →
      symbol ∈ visible) : resolveImports answers path file visible = .ok () := by
  unfold resolveImports
  have none : file.eagerImports.find? (fun symbol =>
      isLeanDependencySymbol symbol && !decide (symbol ∈ visible)) = none := by
    apply List.find?_eq_none.mpr
    intro symbol mem
    simpa using resolved symbol mem
  rw [none]

theorem openDependencies_ok {visible visible' : List String}
    {dependencies : List LeanLibraryDependency}
    (h : openDependencies host files answers visible dependencies = .ok visible') :
    (∀ dependency ∈ dependencies, Opens host files dependency) ∧
      ∀ symbol, symbol ∈ visible' ↔ symbol ∈ visible ∨ ∃ dependency ∈ dependencies,
        dependency.exportsSymbolsForDependents = true ∧ Defines host files dependency symbol := by
  induction dependencies generalizing visible with
  | nil =>
    cases h
    simp
  | cons dependency rest ih =>
    obtain ⟨file, opened, h⟩ := bind_ok.mp h
    obtain ⟨_, initialized, h⟩ := bind_ok.mp h
    have present := openDylib_ok host files answers opened
    have here : Opens host files dependency :=
      ⟨file, present, initializeDependency_ok host answers initialized⟩
    have defines : ∀ symbol, Defines host files dependency symbol ↔
        symbol ∈ file.info.definedSymbols := by
      intro symbol
      constructor
      · rintro ⟨file', present', mem⟩
        rwa [present.unique host files present']
      · intro mem
        exact ⟨file, present, mem⟩
    obtain ⟨others, seen⟩ := ih h
    constructor
    · exact List.forall_mem_cons.mpr ⟨here, others⟩
    · intro symbol
      rw [seen, List.exists_mem_cons_iff, defines]
      cases dependency.exportsSymbolsForDependents with
      | false => simp
      | true => simp [or_assoc]

theorem openDependencies_error {visible : List String}
    {dependencies : List LeanLibraryDependency} {failure : LoadFailure}
    (opens : ∀ dependency ∈ dependencies, Opens host files dependency)
    (h : openDependencies host files answers visible dependencies = .error failure) :
    failure.cause = .other := by
  induction dependencies generalizing visible with
  | nil => cases h
  | cons dependency rest ih =>
    obtain ⟨⟨file, present, has⟩, others⟩ := List.forall_mem_cons.mp opens
    rcases bind_error.mp h with h | ⟨file', opened, h⟩
    · exact openDylib_error host files answers present h
    · have same := present.unique host files (openDylib_ok host files answers opened)
      subst same
      rcases bind_error.mp h with h | ⟨_, -, h⟩
      · exact initializeDependency_error host answers has h
      · exact ih others h

theorem openManifest_ok {manifest : CapabilityManifest} {u : Unit}
    (h : openManifest host files answers manifest = .ok u) :
    Loadable host files ObjectFile.eagerImports manifest := by
  obtain ⟨visible, opened, h⟩ := bind_ok.mp h
  obtain ⟨file, primary, h⟩ := bind_ok.mp h
  obtain ⟨_, resolved, h⟩ := bind_ok.mp h
  obtain ⟨dependencies, seen⟩ := openDependencies_ok host files answers opened
  constructor
  · exact dependencies
  · refine ⟨file, openDylib_ok host files answers primary, initializeModule_ok host answers h, ?_⟩
    intro symbol mem lean
    have inside := (seen symbol).mp (resolveImports_ok answers resolved symbol mem lean)
    simpa using inside

theorem openManifest_error {manifest : CapabilityManifest} {failure : LoadFailure}
    (loadable : Loadable host files ObjectFile.eagerImports manifest)
    (h : openManifest host files answers manifest = .error failure) : failure.cause = .other := by
  obtain ⟨file, present, has, imports⟩ := loadable.primary
  rcases bind_error.mp h with h | ⟨visible, opened, h⟩
  · exact openDependencies_error host files answers loadable.dependencies h
  obtain ⟨-, seen⟩ := openDependencies_ok host files answers opened
  rcases bind_error.mp h with h | ⟨file', primary, h⟩
  · exact openDylib_error host files answers present h
  have same := present.unique host files (openDylib_ok host files answers primary)
  subst same
  have resolved : resolveImports answers manifest.primaryDylib file visible = .ok () :=
    resolveImports_ok_of answers
      fun symbol mem lean => (seen symbol).mpr (Or.inr (imports symbol mem lean))
  rw [resolved] at h
  exact initializeModule_error host answers has h

end Steps

def smoothLoader : LoaderAnswers := ⟨fun _ => none, "", fun _ => .ok ()⟩

theorem openDylib_smooth {path : PathBuf} {failure : LoadFailure}
    (h : LeanLibrary.openDylib host files smoothLoader path = .error failure) :
    failure.cause ≠ .other := by
  unfold LeanLibrary.openDylib at h
  cases found : files path with
  | missing err | unreadable err | unparsable err =>
    rw [found] at h
    cases h
    intro other
    cases other
  | object file =>
    rw [found] at h
    dsimp only [smoothLoader] at h
    split at h
    · cases h
    · cases h
      intro other
      cases other

theorem initializeModule_smooth {path : PathBuf} {info : ArtifactInfo} {package module : String}
    {failure : LoadFailure} (h : LeanLibrary.initializeModule host smoothLoader path info package
      module = .error failure) : failure.cause ≠ .other := by
  unfold LeanLibrary.initializeModule at h
  split at h
  · cases h
    intro other
    cases other
  · split at h
    · cases h
    · cases h
      intro other
      cases other

theorem openDependencies_smooth {visible : List String}
    {dependencies : List LeanLibraryDependency} {failure : LoadFailure}
    (h : openDependencies host files smoothLoader visible dependencies = .error failure) :
    failure.cause ≠ .other := by
  induction dependencies generalizing visible with
  | nil => cases h
  | cons dependency rest ih =>
    rcases bind_error.mp h with h | ⟨file, -, h⟩
    · exact openDylib_smooth host files h
    rcases bind_error.mp h with h | ⟨_, -, h⟩
    · unfold initializeDependency at h
      cases wanted : dependency.initializer with
      | none =>
        rw [wanted] at h
        cases h
      | some initializer =>
        rw [wanted] at h
        exact initializeModule_smooth host h
    · exact ih h

theorem openManifest_smooth {manifest : CapabilityManifest} {failure : LoadFailure}
    (h : openManifest host files smoothLoader manifest = .error failure) :
    failure.cause ≠ .other := by
  rcases bind_error.mp h with h | ⟨visible, -, h⟩
  · exact openDependencies_smooth host files h
  rcases bind_error.mp h with h | ⟨file, -, h⟩
  · exact openDylib_smooth host files h
  rcases bind_error.mp h with h | ⟨_, -, h⟩
  · unfold resolveImports at h
    split at h
    · cases h
    · cases h
      intro other
      cases other
  · exact initializeModule_smooth host h

theorem openManifest_unnamed_iff (manifest : CapabilityManifest) :
    (∀ answers failure, openManifest host files answers manifest = .error failure →
      failure.cause = .other) ↔ Loadable host files ObjectFile.eagerImports manifest := by
  constructor
  · intro unnamed
    cases opened : openManifest host files smoothLoader manifest with
    | error failure =>
      exact absurd (unnamed smoothLoader failure opened) (openManifest_smooth host files opened)
    | ok u => exact openManifest_ok host files smoothLoader opened
  · intro loadable answers failure
    exact openManifest_error host files answers loadable

def Clean (checks : List LeanLoaderCheck) : Prop := ∀ check ∈ checks, check.severity ≠ .error

theorem isOk_clean {report : LeanLoaderReport} (h : report.isOk = true) : Clean report.checks := by
  intro check mem severity
  have none : report.errors = [] := List.isEmpty_iff.mp h
  have found : check ∈ report.errors := List.mem_filter.mpr ⟨mem, by simp [severity]⟩
  rw [none] at found
  cases found

theorem Clean.append {checks checks' : List LeanLoaderCheck} (h : Clean (checks ++ checks')) :
    Clean checks ∧ Clean checks' := List.forall_mem_append.mp h

theorem inspectArtifact_ok {path : PathBuf} {role : ArtifactRole} {info : ArtifactInfo}
    (h : inspectArtifact host files path role = .ok info) :
    ∃ file, DylibIs host files path file ∧ file.info = info := by
  unfold inspectArtifact at h
  cases found : files path with
  | missing err | unreadable err | unparsable err =>
    rw [found] at h
    cases h
  | object file =>
    rw [found] at h
    dsimp only at h
    split at h
    next fits =>
      cases h
      exact ⟨file, ⟨found, fits⟩, rfl⟩
    next => cases h

theorem inspectArtifact_error {path : PathBuf} {role : ArtifactRole} {check : LeanLoaderCheck}
    (h : inspectArtifact host files path role = .error check) : check.severity = .error := by
  unfold inspectArtifact at h
  cases found : files path with
  | missing err | unreadable err | unparsable err =>
    rw [found] at h
    cases h
    rfl
  | object file =>
    rw [found] at h
    dsimp only at h
    split at h
    · cases h
    · cases h
      rfl

theorem inspectDependencies_clean {dependencies : List LeanLibraryDependency}
    (clean : Clean (inspectDependencies host files dependencies).2) :
    (∀ dependency ∈ dependencies, ∃ file, DylibIs host files dependency.path file) ∧
      ∀ symbol ∈ (inspectDependencies host files dependencies).1,
        ∃ dependency ∈ dependencies, Defines host files dependency symbol := by
  induction dependencies with
  | nil =>
    constructor
    · intro _ mem
      cases mem
    · intro _ mem
      cases mem
  | cons dependency rest ih =>
    rw [inspectDependencies] at clean ⊢
    cases inspected : inspectArtifact host files dependency.path .dependency with
    | error check =>
      rw [inspected] at clean
      have severity := inspectArtifact_error host files inspected
      exact absurd severity (clean check (List.mem_cons_self ..))
    | ok info =>
      rw [inspected] at clean
      obtain ⟨file, present, rfl⟩ := inspectArtifact_ok host files inspected
      obtain ⟨others, defined⟩ := ih clean
      constructor
      · exact List.forall_mem_cons.mpr ⟨⟨file, present⟩, others⟩
      · intro symbol mem
        rcases List.mem_append.mp mem with mem | mem
        · exact ⟨dependency, List.mem_cons_self .., file, present, mem⟩
        · obtain ⟨other, inside, defines⟩ := defined symbol mem
          exact ⟨other, List.mem_cons_of_mem _ inside, defines⟩

theorem checkInitializer_clean {manifest : CapabilityManifest} {info : ArtifactInfo}
    (clean : Clean (checkInitializer host manifest info)) :
    HasInitializer host info manifest.package manifest.module := by
  unfold checkInitializer at clean
  cases named : InitializerName.fromLakeNames host.debugChar manifest.package manifest.module with
  | error err =>
    rw [named] at clean
    exact absurd rfl (clean _ (List.mem_cons_self ..))
  | ok name =>
    rw [named] at clean
    dsimp only at clean
    split at clean
    next exported => exact ⟨name, named, exported⟩
    next => exact absurd rfl (clean _ (List.mem_cons_self ..))

theorem checkImportedSymbols_clean {manifest : CapabilityManifest} {info : ArtifactInfo}
    {dependencyExports : List String}
    (clean : Clean (checkImportedSymbols manifest info dependencyExports)) :
    ∀ symbol ∈ info.undefinedSymbols, isLeanDependencySymbol symbol = true →
      symbol ∈ dependencyExports := by
  intro symbol mem lean
  unfold checkImportedSymbols at clean
  split at clean
  next none =>
    have := List.find?_eq_none.mp none symbol mem
    simpa [lean] using this
  next => exact absurd rfl (clean _ (List.mem_cons_self ..))

/-- What the preflight settles: the dylibs, the primary initializer, and that some dependency
defines each import. -/
structure Inspected (manifest : CapabilityManifest) : Prop where
  dependencies : ∀ dependency ∈ manifest.dependencies,
    ∃ file, DylibIs host files dependency.path file
  primary : ∃ file, DylibIs host files manifest.primaryDylib file ∧
    HasInitializer host file.info manifest.package manifest.module ∧
    ∀ symbol ∈ file.imports, isLeanDependencySymbol symbol = true →
      ∃ dependency ∈ manifest.dependencies, Defines host files dependency symbol

theorem checkArtifacts_clean {manifest : CapabilityManifest}
    (clean : Clean (checkArtifacts host files manifest)) : Inspected host files manifest := by
  obtain ⟨dependencies, primary⟩ := Clean.append clean
  obtain ⟨present, defined⟩ := inspectDependencies_clean host files dependencies
  cases inspected : inspectArtifact host files manifest.primaryDylib .primary with
  | error check =>
    rw [inspected] at primary
    have severity := inspectArtifact_error host files inspected
    exact absurd severity (primary check (List.mem_cons_self ..))
  | ok info =>
    rw [inspected] at primary
    obtain ⟨initializer, imports⟩ := Clean.append primary
    obtain ⟨file, here, rfl⟩ := inspectArtifact_ok host files inspected
    constructor
    · exact present
    · refine ⟨file, here, checkInitializer_clean host initializer, ?_⟩
      intro symbol mem lean
      exact defined symbol (checkImportedSymbols_clean imports symbol mem lean)

theorem check_clean {runtime : RuntimeBuild} {answers : PreflightAnswers} {path : PathBuf}
    {manifest : CapabilityManifest} (located : answers.manifestPath = .ok path)
    (accepted : CapabilityManifest.read path answers.manifestFile = .ok manifest)
    (ok : (LeanRuntimePreflight.check runtime host files answers).isOk = true) :
    Inspected host files manifest := by
  have clean := isOk_clean ok
  unfold LeanRuntimePreflight.check at clean
  rw [located] at clean
  simp only [accepted] at clean
  exact checkArtifacts_clean host files (Clean.append clean).2

/-- The dependency is to be initialized by a symbol that its dylib does not export. -/
def LacksInitializer (dependency : LeanLibraryDependency) : Prop :=
  ∃ initializer file, dependency.initializer = some initializer ∧
    DylibIs host files dependency.path file ∧
    ¬HasInitializer host file.info initializer.package initializer.module

/-- Of the dependencies that define the import, none makes its symbols visible. -/
def ImportHidden (imports : ObjectFile → List String) (manifest : CapabilityManifest)
    (symbol : String) : Prop :=
  (∃ file, DylibIs host files manifest.primaryDylib file ∧ symbol ∈ imports file) ∧
    isLeanDependencySymbol symbol = true ∧
    (∃ dependency ∈ manifest.dependencies, Defines host files dependency symbol) ∧
    ∀ dependency ∈ manifest.dependencies, Defines host files dependency symbol →
      dependency.exportsSymbolsForDependents = false

/-- Neither gap is open, if these are the imports that count. -/
def NoGap (imports : ObjectFile → List String) (manifest : CapabilityManifest) : Prop :=
  (∀ dependency ∈ manifest.dependencies, ¬LacksInitializer host files dependency) ∧
    ∀ symbol, ¬ImportHidden host files imports manifest symbol

theorem mem_imports_of_eager {file : ObjectFile} {symbol : String}
    (eager : symbol ∈ file.eagerImports) : symbol ∈ file.imports := by
  unfold ObjectFile.eagerImports ObjectFile.names at eager
  unfold ObjectFile.imports ObjectFile.info ObjectFile.names
  obtain ⟨entry, member, named⟩ := List.mem_filterMap.mp eager
  obtain ⟨listed, kept⟩ := List.mem_filter.mp member
  have undefined := (Bool.and_eq_true_iff.mp kept).1
  exact List.mem_filterMap.mpr ⟨entry, List.mem_filter.mpr ⟨listed, undefined⟩, named⟩

theorem loadable_iff {imports : ObjectFile → List String} {manifest : CapabilityManifest}
    (inspected : Inspected host files manifest)
    (listed : ∀ file, ∀ symbol ∈ imports file, symbol ∈ file.imports) :
    Loadable host files imports manifest ↔ NoGap host files imports manifest := by
  constructor
  · intro loadable
    constructor
    · rintro dependency mem ⟨initializer, file, wanted, present, lacks⟩
      obtain ⟨file', present', has⟩ := loadable.dependencies dependency mem
      rw [present.unique host files present'] at lacks
      exact lacks (has initializer wanted)
    · rintro symbol ⟨⟨file, present, imported⟩, lean, -, hidden⟩
      obtain ⟨file', present', -, resolved⟩ := loadable.primary
      rw [present.unique host files present'] at imported
      obtain ⟨dependency, mem, visible, defines⟩ := resolved symbol imported lean
      rw [hidden dependency mem defines] at visible
      cases visible
  · rintro ⟨initializers, hidden⟩
    constructor
    · intro dependency mem
      obtain ⟨file, present⟩ := inspected.dependencies dependency mem
      refine ⟨file, present, ?_⟩
      intro initializer wanted
      by_contra lacks
      exact initializers dependency mem ⟨initializer, file, wanted, present, lacks⟩
    · obtain ⟨file, present, has, defined⟩ := inspected.primary
      refine ⟨file, present, has, ?_⟩
      intro symbol imported lean
      by_contra none
      apply hidden symbol
      refine ⟨⟨file, present, imported⟩, lean, defined symbol (listed file symbol imported) lean,
        ?_⟩
      intro dependency mem defines
      cases visible : dependency.exportsSymbolsForDependents with
      | false => rfl
      | true => exact absurd ⟨dependency, mem, visible, defines⟩ none

/-- After a preflight without findings, a load of the same manifest fails for none of the causes
that a preflight names, and has everything in place that it can miss, exactly if no dependency
lacks the initializer that it is opened with and no import of the primary dylib is defined by hidden
symbols only; it fails for none of them exactly if this is so of the imports that are looked up at
the opening. -/
theorem preflight_complete_iff {runtime : RuntimeBuild} {answers : PreflightAnswers}
    {path : PathBuf} {manifest : CapabilityManifest} (located : answers.manifestPath = .ok path)
    (accepted : CapabilityManifest.read path answers.manifestFile = .ok manifest)
    (ok : (LeanRuntimePreflight.check runtime host files answers).isOk = true) :
    (((∀ loader failure, openManifest host files loader manifest = .error failure →
        failure.cause = .other) ∧ Loadable host files ObjectFile.imports manifest) ↔
      NoGap host files ObjectFile.imports manifest) ∧
    ((∀ loader failure, openManifest host files loader manifest = .error failure →
        failure.cause = .other) ↔
      NoGap host files ObjectFile.eagerImports manifest) := by
  have inspected := check_clean host files located accepted ok
  have opening := loadable_iff host files inspected fun _ _ => mem_imports_of_eager
  rw [openManifest_unnamed_iff, opening, loadable_iff host files inspected fun _ _ mem => mem]
  refine ⟨⟨fun both => both.2, fun none => ⟨⟨none.1, ?_⟩, none⟩⟩, Iff.rfl⟩
  rintro symbol ⟨⟨file, present, eager⟩, others⟩
  exact none.2 symbol ⟨⟨file, present, mem_imports_of_eager eager⟩, others⟩

end Load

def x86Host : LoaderHost := ⟨"x86_64", fun ch => ch.toString⟩

def oneDependency (dependency : List (String × Json.Value)) : Json.Value :=
  .object [("schema_version", .posInt 2), ("primary_dylib", .string "libcap.so"),
    ("package", .string "pkg"), ("module", .string "Cap"), ("exports", .array []),
    ("dependencies", .array [.object (("dylib_path", .string "libdep.so") :: dependency)])]

def oneDependencyManifest (visible : Bool) (initializer : Option LeanModuleInitializer) :
    CapabilityManifest where
  primaryDylib := .ofString "libcap.so"
  package := "pkg"
  module := "Cap"
  dependencies := [⟨.ofString "libdep.so", visible, initializer⟩]
  leanVersion := none
  resolvedLeanVersion := none
  leanHeaderSha256 := none
  exports := []

def importingDylib (eager : Bool) : ObjectFile :=
  ⟨.x86_64, false, [⟨some "initialize_pkg_Cap", false, true, false⟩,
    ⟨some "LeanRsInterop_row", true, true, eager⟩], []⟩

def definingDylib : ObjectFile :=
  ⟨.x86_64, false, [⟨some "LeanRsInterop_row", false, true, false⟩], []⟩

def pairOfDylibs (eager : Bool) (path : PathBuf) : ArtifactFile :=
  if path = .ofString "libcap.so" then .object (importingDylib eager) else .object definingDylib

def anyBuild : RuntimeBuild := ⟨"digest", "4.31.0", fun _ => true⟩

def preflightOf (document : Json.Value) : PreflightAnswers :=
  ⟨.ok (.ofString "cap.json"), .json document, fun _ => none⟩

def loadCause (result : Except LoadFailure Unit) : Option LoadCause :=
  match result with
  | .error failure => some failure.cause
  | .ok _ => none

theorem named_failure {host : LoaderHost} {files : PathBuf → ArtifactFile}
    {manifest : CapabilityManifest} {code : LeanLoaderDiagnosticCode}
    (h : loadCause (openManifest host files smoothLoader manifest) = some (.named code)) :
    ¬∀ loader failure, openManifest host files loader manifest = .error failure →
      failure.cause = .other := by
  intro unnamed
  cases opened : openManifest host files smoothLoader manifest with
  | ok u =>
    rw [opened] at h
    cases h
  | error failure =>
    rw [opened] at h
    have cause : failure.cause = .named code := Option.some.inj h
    rw [unnamed smoothLoader failure opened] at cause
    cases cause

theorem visible_dependency_loads :
    Loadable x86Host (pairOfDylibs true) ObjectFile.imports (oneDependencyManifest true none) := by
  have accepted : CapabilityManifest.read (.ofString "cap.json")
      (.json (oneDependency [("export_symbols_for_dependents", .bool true)])) =
      .ok (oneDependencyManifest true none) := by
    decide +kernel
  have ok : (LeanRuntimePreflight.check anyBuild x86Host (pairOfDylibs true) (preflightOf
      (oneDependency [("export_symbols_for_dependents", .bool true)]))).isOk = true := by
    decide +kernel
  have located : (preflightOf (oneDependency [("export_symbols_for_dependents",
      .bool true)])).manifestPath = .ok (.ofString "cap.json") := rfl
  have holds := preflight_complete_iff x86Host (pairOfDylibs true) located accepted ok
  apply (holds.1.mpr _).2
  constructor
  · rintro _ (_ | ⟨_, ⟨⟩⟩) ⟨_, _, ⟨⟩, -⟩
  · rintro symbol ⟨-, -, ⟨dependency, mem, defines⟩, hidden⟩
    have shown := hidden dependency mem defines
    rcases mem with _ | ⟨_, ⟨⟩⟩
    cases shown

/-- The preflight of the document finds nothing, and its manifest is this one. -/
def PassesAs (files : PathBuf → ArtifactFile) (document : Json.Value)
    (manifest : CapabilityManifest) : Prop :=
  CapabilityManifest.read (.ofString "cap.json") (.json document) = .ok manifest ∧
    (LeanRuntimePreflight.check anyBuild x86Host files (preflightOf document)).isOk = true

theorem hidden_import_not_loadable :
    ¬Loadable x86Host (pairOfDylibs false) ObjectFile.imports
      (oneDependencyManifest false none) := by
  intro loadable
  obtain ⟨file, present, -, resolved⟩ := loadable.primary
  have listed : pairOfDylibs false (.ofString "libcap.so") = .object (importingDylib false) :=
    if_pos rfl
  have same : file = importingDylib false :=
    ArtifactFile.object.inj (present.1.symm.trans listed)
  rw [same] at resolved
  obtain ⟨dependency, member, visible, -⟩ := resolved "LeanRsInterop_row" (by decide +kernel)
    (by decide +kernel)
  rw [List.mem_singleton.mp member] at visible
  cases visible

/-- Three manifests pass the preflight. One keeps the symbols of its dependency hidden and does not
load, as its primary dylib imports a variable; with a function in its place it loads, and still no
visible dependency defines the import. Another one initializes its dependency by a symbol that is
not there. -/
theorem clean_preflights_that_do_not_load :
    (PassesAs (pairOfDylibs true) (oneDependency []) (oneDependencyManifest false none) ∧
      ¬∀ loader failure, openManifest x86Host (pairOfDylibs true) loader
        (oneDependencyManifest false none) = .error failure → failure.cause = .other) ∧
    (PassesAs (pairOfDylibs false) (oneDependency []) (oneDependencyManifest false none) ∧
      openManifest x86Host (pairOfDylibs false) smoothLoader (oneDependencyManifest false none) =
        .ok () ∧
      ¬Loadable x86Host (pairOfDylibs false) ObjectFile.imports
        (oneDependencyManifest false none)) ∧
    ∃ document manifest, PassesAs (pairOfDylibs true) document manifest ∧
      ¬∀ loader failure, openManifest x86Host (pairOfDylibs true) loader manifest =
        .error failure → failure.cause = .other := by
  refine ⟨⟨⟨?_, ?_⟩, ?_⟩, ⟨⟨?_, ?_⟩, ?_, hidden_import_not_loadable⟩,
    oneDependency [("export_symbols_for_dependents", .bool true), ("initializer",
      .object [("package", .string "dep"), ("module", .string "Dep")])],
    oneDependencyManifest true (some ⟨"dep", "Dep"⟩), ⟨?_, ?_⟩, ?_⟩
  · decide +kernel
  · decide +kernel
  · have cause : loadCause (openManifest x86Host (pairOfDylibs true) smoothLoader
        (oneDependencyManifest false none)) = some (.named .missingImportedSymbol) := by
      decide +kernel
    exact named_failure cause
  · decide +kernel
  · decide +kernel
  · decide +kernel
  · decide +kernel
  · decide +kernel
  · have cause : loadCause (openManifest x86Host (pairOfDylibs true) smoothLoader
        (oneDependencyManifest true (some ⟨"dep", "Dep"⟩))) =
        some (.named .missingInitializer) := by
      decide +kernel
    exact named_failure cause

end LeanRs
