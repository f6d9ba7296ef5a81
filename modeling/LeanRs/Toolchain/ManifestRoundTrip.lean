import LeanRs.General.Fallible
import LeanRs.Toolchain.BuildHelpers

/-! When the manifest that a build writes is read back as what was written: a condition on each
field, and together the exact condition on the specification. -/
namespace LeanRs

open Json Fallible CapabilityManifest

def LeanExportArgAbi.Consistent (arg : LeanExportArgAbi) : Prop :=
  arg.ownership = expectedOwnership arg.repr

structure LeanExportReturnAbi.Consistent (result : LeanExportReturnAbi) : Prop where
  ownership : result.ownership = expectedOwnership result.repr
  ioResult : result.convention = .ioResult → result.repr = .leanObject

structure LeanExportSignature.Consistent (signature : LeanExportSignature) : Prop where
  symbol : signature.symbol ≠ ""
  args : ∀ arg ∈ signature.args, arg.Consistent
  result : signature.result.Consistent
  globalPure : signature.kind = .global → signature.result.convention ≠ .ioResult

/-- A dependency has a path, and an initializer with both of its names. -/
structure LeanLibraryDependency.Readable (dependency : LeanLibraryDependency) : Prop where
  path : dependency.path.bytes ≠ []
  initializer : ∃ initializer, dependency.initializer = some initializer ∧
    initializer.package ≠ "" ∧ initializer.module ≠ ""

structure ManifestFacts.Readable (facts : ManifestFacts) : Prop where
  dylibPath : facts.dylibPath.bytes ≠ []
  package : facts.package ≠ ""
  module : facts.module ≠ ""
  leanVersion : facts.fingerprint.leanVersion ≠ ""
  resolvedVersion : facts.fingerprint.resolvedVersion ≠ ""
  headerSha256 : facts.fingerprint.headerSha256 ≠ ""
  dependencies : ∀ dependency ∈ facts.dependencies, dependency.Readable
  signatures : ∀ signature ∈ facts.exportSignatures, signature.Consistent
  distinct : (facts.exportSignatures.map LeanExportSignature.symbol).Nodup

theorem nonempty?_ok {v : Value} {field s : String} :
    nonempty? v field = some s ↔ v.get? field = some (.string s) ∧ s ≠ "" := by
  unfold nonempty?
  cases found : v.get? field with
  | none => simp
  | some member =>
    cases member <;> simp [Value.asStr?, Option.filter_eq_some_iff]

section Reading

variable (path : PathBuf)

theorem requiredString_ok {v : Value} {field s : String} :
    requiredString path v field = .ok s ↔ v.get? field = some (.string s) ∧ s ≠ "" := by
  rw [← nonempty?_ok]
  unfold requiredString
  cases nonempty? v field with
  | none => simp
  | some t => simp

theorem requiredString_written {v : Value} {field text s : String}
    (written : v.get? field = some (.string text)) :
    requiredString path v field = .ok s ↔ text ≠ "" ∧ s = text := by
  rw [requiredString_ok, written]
  constructor
  · rintro ⟨same, given⟩
    cases same
    exact ⟨given, rfl⟩
  · rintro ⟨given, rfl⟩
    exact ⟨rfl, given⟩

theorem parseExportRepr_written {v : Value} (repr : LeanExportAbiRepr)
    (written : v.get? "repr" = some (.string repr.asStr)) : parseExportRepr path v = .ok repr := by
  have text : requiredString path v "repr" = .ok repr.asStr :=
    (requiredString_ok path).mpr ⟨written, repr.asStr_ne⟩
  unfold parseExportRepr
  simp only [text, bind, Except.bind, LeanExportAbiRepr.fromStr_asStr]

theorem parseExportOwnership_written {v : Value} (ownership : LeanExportOwnership)
    (written : v.get? "ownership" = some (.string ownership.asStr)) :
    parseExportOwnership path v = .ok ownership := by
  have text : requiredString path v "ownership" = .ok ownership.asStr :=
    (requiredString_ok path).mpr ⟨written, ownership.asStr_ne⟩
  unfold parseExportOwnership
  simp only [text, bind, Except.bind, LeanExportOwnership.fromStr_asStr]

theorem parseExportResultConvention_written {v : Value} (convention : LeanExportResultConvention)
    (written : v.get? "convention" = some (.string convention.asStr)) :
    parseExportResultConvention path v = .ok convention := by
  have text : requiredString path v "convention" = .ok convention.asStr :=
    (requiredString_ok path).mpr ⟨written, convention.asStr_ne⟩
  unfold parseExportResultConvention
  simp only [text, bind, Except.bind, LeanExportResultConvention.fromStr_asStr]

theorem parseExportKind_written {v : Value} (kind : LeanExportSymbolKind)
    (written : v.get? "kind" = some (.string kind.asStr)) : parseExportKind path v = .ok kind := by
  have text : requiredString path v "kind" = .ok kind.asStr :=
    (requiredString_ok path).mpr ⟨written, kind.asStr_ne⟩
  unfold parseExportKind
  simp only [text, bind, Except.bind, LeanExportSymbolKind.fromStr_asStr]

theorem validateOwnership_ok {repr : LeanExportAbiRepr} {ownership : LeanExportOwnership} :
    validateOwnership path repr ownership = .ok () ↔ ownership = expectedOwnership repr := by
  unfold validateOwnership
  split
  · simp [*]
  · simp [*]

theorem validateConvention_ok {result : LeanExportReturnAbi} :
    validateConvention path result = .ok () ↔
      (result.convention = .ioResult → result.repr = .leanObject ∧ result.ownership = .owned) := by
  unfold validateConvention
  split
  · rename_i refused
    simp only [reduceCtorEq, false_iff]
    intro allowed
    have both := allowed refused.1
    rcases refused.2 with other | other
    · exact other both.1
    · exact other both.2
  · rename_i allowed
    simp only [true_iff]
    intro io
    by_contra other
    exact allowed ⟨io, by grind⟩

theorem validateGlobal_ok {symbol : String} {kind : LeanExportSymbolKind}
    {args : List LeanExportArgAbi} {result : LeanExportReturnAbi} :
    validateGlobal symbol kind args result = .ok () ↔
      (kind = .global → args = [] ∧ result.convention ≠ .ioResult) := by
  unfold validateGlobal
  grind

theorem exportArg_written (arg out : LeanExportArgAbi) :
    exportArgFromManifest path arg.toJson = .ok out ↔ arg.Consistent ∧ out = arg := by
  have repr : parseExportRepr path arg.toJson = .ok arg.repr :=
    parseExportRepr_written path arg.repr (by simp [LeanExportArgAbi.toJson])
  have ownership : parseExportOwnership path arg.toJson = .ok arg.ownership :=
    parseExportOwnership_written path arg.ownership (by simp [LeanExportArgAbi.toJson])
  unfold exportArgFromManifest LeanExportArgAbi.Consistent
  rw [repr, ownership, ← validateOwnership_ok path]
  constructor
  · intro h
    obtain ⟨_, first, h⟩ := bind_ok.mp h
    cases first
    obtain ⟨_, second, h⟩ := bind_ok.mp h
    cases second
    obtain ⟨_, valid, h⟩ := bind_ok.mp h
    cases h
    exact ⟨valid, rfl⟩
  · rintro ⟨valid, rfl⟩
    refine bind_ok.mpr ⟨_, rfl, bind_ok.mpr ⟨_, rfl, ?_⟩⟩
    exact bind_ok.mpr ⟨(), valid, rfl⟩

theorem exportReturn_written {v : Value} (result out : LeanExportReturnAbi)
    (written : v.get? "return" = some result.toJson) :
    exportReturnFromManifest path v = .ok out ↔ result.Consistent ∧ out = result := by
  have repr : parseExportRepr path result.toJson = .ok result.repr :=
    parseExportRepr_written path result.repr (by simp [LeanExportReturnAbi.toJson])
  have ownership : parseExportOwnership path result.toJson = .ok result.ownership :=
    parseExportOwnership_written path result.ownership (by simp [LeanExportReturnAbi.toJson])
  have convention : parseExportResultConvention path result.toJson = .ok result.convention :=
    parseExportResultConvention_written path result.convention
      (by simp [LeanExportReturnAbi.toJson])
  unfold exportReturnFromManifest
  simp only [written, repr, ownership, convention]
  constructor
  · intro h
    obtain ⟨_, first, h⟩ := bind_ok.mp h
    cases first
    obtain ⟨_, second, h⟩ := bind_ok.mp h
    cases second
    obtain ⟨_, owned, h⟩ := bind_ok.mp h
    obtain ⟨_, third, h⟩ := bind_ok.mp h
    cases third
    obtain ⟨_, io, h⟩ := bind_ok.mp h
    cases h
    exact ⟨⟨(validateOwnership_ok path).mp owned,
      fun h => ((validateConvention_ok path).mp io h).1⟩, rfl⟩
  · rintro ⟨consistent, rfl⟩
    have owned := (validateOwnership_ok path).mpr consistent.ownership
    have io : validateConvention path out = .ok () := by
      refine (validateConvention_ok path).mpr fun h => ⟨consistent.ioResult h, ?_⟩
      rw [consistent.ownership, consistent.ioResult h]
      rfl
    refine bind_ok.mpr ⟨_, rfl, bind_ok.mpr ⟨_, rfl, ?_⟩⟩
    refine bind_ok.mpr ⟨(), owned, bind_ok.mpr ⟨_, rfl, ?_⟩⟩
    exact bind_ok.mpr ⟨(), io, rfl⟩

theorem exportArgs_written {v : Value} (args out : List LeanExportArgAbi)
    (written : v.get? "args" = some (.array (args.map LeanExportArgAbi.toJson))) :
    exportArgsFromManifest path v = .ok out ↔ (∀ arg ∈ args, arg.Consistent) ∧ out = args := by
  unfold exportArgsFromManifest
  simp only [written, Value.asArray?_array]
  exact mapM_written args out fun arg _ => exportArg_written path arg

theorem signatureOf_parts (signature : LeanExportSignature) :
    signatureOf signature.symbol signature.kind signature.args signature.result = signature := by
  obtain ⟨symbol, kind, args, result, globalArgs⟩ := signature
  cases kind with
  | function => rfl
  | «global» =>
    cases globalArgs rfl
    rfl

theorem exportsFrom_cons (seen : List String) (signature : LeanExportSignature)
    (rest : List Value) (out : List LeanExportSignature) :
    exportsFrom path seen (signature.toJson :: rest) = .ok out ↔
      signature.Consistent ∧ signature.symbol ∉ seen ∧
        ∃ out', exportsFrom path (signature.symbol :: seen) rest = .ok out' ∧
          out = signature :: out' := by
  have symbol : ∀ s, requiredString path signature.toJson "symbol" = .ok s ↔
      signature.symbol ≠ "" ∧ s = signature.symbol :=
    fun s => requiredString_written path (by simp [LeanExportSignature.toJson])
  have kind : parseExportKind path signature.toJson = .ok signature.kind :=
    parseExportKind_written path signature.kind (by simp [LeanExportSignature.toJson])
  have args := fun out => exportArgs_written path signature.args out (v := signature.toJson)
    (by simp [LeanExportSignature.toJson])
  have result := fun out => exportReturn_written path signature.result out
    (v := signature.toJson) (by simp [LeanExportSignature.toJson])
  rw [exportsFrom]
  constructor
  · intro h
    obtain ⟨_, first, h⟩ := bind_ok.mp h
    obtain ⟨named, rfl⟩ := (symbol _).mp first
    by_cases known : signature.symbol ∈ seen
    · rw [if_pos known] at h
      cases h
    rw [if_neg known, kind] at h
    obtain ⟨_, second, h⟩ := bind_ok.mp h
    cases second
    obtain ⟨_, third, h⟩ := bind_ok.mp h
    obtain ⟨consistent, rfl⟩ := (args _).mp third
    obtain ⟨_, fourth, h⟩ := bind_ok.mp h
    obtain ⟨returned, rfl⟩ := (result _).mp fourth
    obtain ⟨_, allowed, h⟩ := bind_ok.mp h
    obtain ⟨out', others, h⟩ := bind_ok.mp h
    rw [signatureOf_parts] at h
    cases h
    exact ⟨⟨named, consistent, returned, fun g => (validateGlobal_ok.mp allowed g).2⟩, known,
      out', others, rfl⟩
  · rintro ⟨consistent, known, out', others, rfl⟩
    have allowed : validateGlobal signature.symbol signature.kind signature.args
        signature.result = .ok () :=
      validateGlobal_ok.mpr fun g => ⟨signature.globalArgs g, consistent.globalPure g⟩
    refine bind_ok.mpr ⟨_, (symbol _).mpr ⟨consistent.symbol, rfl⟩, ?_⟩
    rw [if_neg known, kind]
    refine bind_ok.mpr ⟨_, rfl, ?_⟩
    refine bind_ok.mpr ⟨_, (args _).mpr ⟨consistent.args, rfl⟩, ?_⟩
    refine bind_ok.mpr ⟨_, (result _).mpr ⟨consistent.result, rfl⟩, ?_⟩
    refine bind_ok.mpr ⟨(), allowed, bind_ok.mpr ⟨out', others, ?_⟩⟩
    rw [signatureOf_parts]

theorem exportsFrom_written (seen : List String) (signatures out : List LeanExportSignature) :
    exportsFrom path seen (signatures.map LeanExportSignature.toJson) = .ok out ↔
      ((∀ signature ∈ signatures, signature.Consistent) ∧
        (∀ signature ∈ signatures, signature.symbol ∉ seen) ∧
          (signatures.map LeanExportSignature.symbol).Nodup) ∧ out = signatures := by
  induction signatures generalizing seen out with
  | nil =>
    constructor
    · intro h
      cases h
      exact ⟨⟨List.forall_mem_nil _, List.forall_mem_nil _, List.nodup_nil⟩, rfl⟩
    · rintro ⟨-, rfl⟩
      rfl
  | cons signature signatures ih =>
    rw [List.map_cons, exportsFrom_cons, List.map_cons, List.nodup_cons, List.forall_mem_cons,
      List.forall_mem_cons]
    constructor
    · rintro ⟨consistent, fresh, out', others, rfl⟩
      obtain ⟨⟨consistent', fresh', distinct⟩, rfl⟩ := (ih _ _).mp others
      refine ⟨⟨⟨consistent, consistent'⟩, ⟨fresh, ?_⟩, ?_, distinct⟩, rfl⟩
      · intro other member known
        exact fresh' other member (List.mem_cons_of_mem _ known)
      · intro again
        obtain ⟨other, member, same⟩ := List.mem_map.mp again
        exact fresh' other member (same ▸ List.mem_cons_self)
    · rintro ⟨⟨⟨consistent, consistent'⟩, ⟨fresh, fresh'⟩, unique, distinct⟩, rfl⟩
      refine ⟨consistent, fresh, signatures, (ih _ _).mpr ⟨⟨consistent', ?_, distinct⟩, rfl⟩, rfl⟩
      intro other member known
      rcases List.mem_cons.mp known with same | older
      · exact unique (same ▸ List.mem_map_of_mem member)
      · exact fresh' other member older

theorem initializer_written (initializer out : LeanModuleInitializer) :
    initializerFromManifest path initializer.toJson = .ok out ↔
      (initializer.package ≠ "" ∧ initializer.module ≠ "") ∧ out = initializer := by
  have package : ∀ s, requiredString path initializer.toJson "package" = .ok s ↔
      initializer.package ≠ "" ∧ s = initializer.package :=
    fun s => requiredString_written path (by simp [LeanModuleInitializer.toJson])
  have module : ∀ s, requiredString path initializer.toJson "module" = .ok s ↔
      initializer.module ≠ "" ∧ s = initializer.module :=
    fun s => requiredString_written path (by simp [LeanModuleInitializer.toJson])
  unfold initializerFromManifest
  constructor
  · intro h
    obtain ⟨_, first, h⟩ := bind_ok.mp h
    obtain ⟨named, rfl⟩ := (package _).mp first
    obtain ⟨_, second, h⟩ := bind_ok.mp h
    obtain ⟨named', rfl⟩ := (module _).mp second
    cases h
    exact ⟨⟨named, named'⟩, rfl⟩
  · rintro ⟨⟨named, named'⟩, rfl⟩
    refine bind_ok.mpr ⟨_, (package _).mpr ⟨named, rfl⟩, ?_⟩
    exact bind_ok.mpr ⟨_, (module _).mpr ⟨named', rfl⟩, rfl⟩

theorem initializer_null (out : LeanModuleInitializer) :
    initializerFromManifest path .null ≠ .ok out := by
  intro h
  obtain ⟨_, first, -⟩ := bind_ok.mp h
  cases ((requiredString_ok path).mp first).1

theorem dependency_written (dependency out : LeanLibraryDependency)
    (utf8 : dependency.path.Utf8) :
    dependencyFromManifest path dependency.toJson = .ok out ↔
      dependency.Readable ∧ out = dependency := by
  obtain ⟨dylib, exported, initializer⟩ := dependency
  have dylibPath : ∀ s, requiredString path
      (LeanLibraryDependency.toJson ⟨dylib, exported, initializer⟩) "dylib_path" = .ok s ↔
      dylib.pathString ≠ "" ∧ s = dylib.pathString :=
    fun s => requiredString_written path (by simp [LeanLibraryDependency.toJson])
  have flag : (LeanLibraryDependency.toJson ⟨dylib, exported, initializer⟩).get?
      "export_symbols_for_dependents" = some (.bool exported) := by
    simp [LeanLibraryDependency.toJson]
  have init : (LeanLibraryDependency.toJson ⟨dylib, exported, initializer⟩).get? "initializer" =
      some (.ofOption LeanModuleInitializer.toJson initializer) := by
    simp [LeanLibraryDependency.toJson]
  have named : dylib.pathString ≠ "" ↔ dylib.bytes ≠ [] :=
    not_congr (PathBuf.pathString_empty_iff utf8)
  have same : PathBuf.ofString dylib.pathString = dylib := utf8
  unfold dependencyFromManifest
  simp only [flag, init]
  constructor
  · intro h
    obtain ⟨_, first, h⟩ := bind_ok.mp h
    obtain ⟨given, rfl⟩ := (dylibPath _).mp first
    obtain ⟨_, second, h⟩ := bind_ok.mp h
    rw [same] at h
    cases h
    cases initializer with
    | none => exact absurd second (initializer_null path _)
    | some initializer =>
      obtain ⟨both, rfl⟩ := (initializer_written path initializer _).mp second
      exact ⟨⟨named.mp given, ⟨_, rfl, both⟩⟩, rfl⟩
  · rintro ⟨⟨given, taken, rfl, both⟩, rfl⟩
    refine bind_ok.mpr ⟨_, (dylibPath _).mpr ⟨named.mpr given, rfl⟩, ?_⟩
    refine bind_ok.mpr ⟨taken, (initializer_written path taken taken).mpr ⟨both, rfl⟩, ?_⟩
    rw [same]
    rfl

end Reading

/-- Every path that is written is valid UTF-8, and the ones that were looked up are not empty. -/
structure ManifestFacts.WellFormed (facts : ManifestFacts) : Prop where
  dylibPath : facts.dylibPath.Utf8
  interop : ∀ dylib ∈ facts.interop, dylib.Utf8 ∧ dylib.bytes ≠ []
  dependencies : ∀ dependency ∈ facts.dependencies, dependency.path.Utf8

section Document

variable (path : PathBuf) (facts : ManifestFacts) (targetName manifestEnvVar : String)
  (selected : Option ToolchainInfo) (searchDirs : List PathBuf)

structure Written (v : Value) (facts : ManifestFacts) : Prop where
  schema : v.get? "schema_version" = some (.posInt capabilityManifestSchemaVersion)
  primaryDylib : v.get? "primary_dylib" = some (.string facts.dylibPath.pathString)
  package : v.get? "package" = some (.string facts.package)
  module : v.get? "module" = some (.string facts.module)
  dependencies : v.get? "dependencies" = some (.array
    ((facts.interop.map interopShims ++ facts.dependencies).map LeanLibraryDependency.toJson))
  exports : v.get? "exports" =
    some (.array (facts.exportSignatures.map LeanExportSignature.toJson))
  fingerprint : v.get? "toolchain_fingerprint" = some facts.fingerprint.toJson
  leanVersion : v.get? "lean_version" = some (.string facts.fingerprint.leanVersion)
  resolvedVersion : v.get? "resolved_lean_version" =
    some (.string facts.fingerprint.resolvedVersion)
  headerSha256 : v.get? "lean_header_sha256" = some (.string facts.fingerprint.headerSha256)

theorem document_written :
    Written (facts.document targetName manifestEnvVar selected searchDirs) facts := by
  have dependencies : facts.interop.map interopShimsJson ++
      facts.dependencies.map LeanLibraryDependency.toJson =
        (facts.interop.map interopShims ++ facts.dependencies).map
          LeanLibraryDependency.toJson := by
    rw [List.map_append, List.map_map]
    rfl
  unfold ManifestFacts.document
  rw [dependencies]
  constructor <;> simp

variable {path facts} {v : Value}

theorem requiredSchema_written (written : Written v facts) : requiredSchema path v = .ok () := by
  unfold requiredSchema requiredU64
  rw [written.schema]
  rfl

theorem interopShims_readable {dylib : PathBuf} (given : dylib.bytes ≠ []) :
    (interopShims dylib).Readable :=
  ⟨given, _, rfl, by decide, by decide⟩

theorem dependencies_written (written : Written v facts) (wellFormed : facts.WellFormed)
    (out : List LeanLibraryDependency) :
    dependenciesFromManifest path v = .ok out ↔
      (∀ dependency ∈ facts.dependencies, dependency.Readable) ∧
        out = facts.interop.map interopShims ++ facts.dependencies := by
  have utf8 : ∀ dependency ∈ facts.interop.map interopShims ++ facts.dependencies,
      dependency.path.Utf8 := by
    rw [List.forall_mem_append]
    refine ⟨?_, wellFormed.dependencies⟩
    intro dependency member
    obtain ⟨dylib, found, rfl⟩ := List.mem_map.mp member
    exact (wellFormed.interop dylib found).1
  have interop : ∀ dependency ∈ facts.interop.map interopShims, dependency.Readable := by
    intro dependency member
    obtain ⟨dylib, found, rfl⟩ := List.mem_map.mp member
    exact interopShims_readable (wellFormed.interop dylib found).2
  unfold dependenciesFromManifest
  simp only [written.dependencies, Value.asArray?_array]
  rw [mapM_written _ _ fun dependency member out =>
    dependency_written path dependency out (utf8 dependency member), List.forall_mem_append]
  exact and_congr_left fun _ => and_iff_right interop

theorem exports_written (written : Written v facts) (out : List LeanExportSignature) :
    exportsFromManifest path v = .ok out ↔
      ((∀ signature ∈ facts.exportSignatures, signature.Consistent) ∧
        (facts.exportSignatures.map LeanExportSignature.symbol).Nodup) ∧
          out = facts.exportSignatures := by
  unfold exportsFromManifest
  simp only [written.exports, Value.asArray?_array]
  rw [exportsFrom_written]
  simp

theorem fingerprintString_written {field legacy text : String}
    (inner : ((v.get? "toolchain_fingerprint").getD .null).get? field = some (.string text))
    (outer : v.get? legacy = some (.string text)) :
    fingerprintString v field legacy = some text ↔ text ≠ "" := by
  unfold fingerprintString
  by_cases given : text = ""
  · have absent : ∀ v' field', v'.get? field' = some (.string text) →
        nonempty? v' field' = none := by
      intro v' field' member
      cases found : nonempty? v' field' with
      | none => rfl
      | some s =>
        obtain ⟨same, ne⟩ := nonempty?_ok.mp found
        rw [member] at same
        cases same
        exact absurd given ne
    rw [absent _ _ inner, absent _ _ outer]
    simp [given]
  · rw [nonempty?_ok.mpr ⟨inner, given⟩]
    simp [given]

theorem readValue_written (written : Written v facts) (wellFormed : facts.WellFormed) :
    readValue path v = .ok facts.manifest ↔ facts.Readable := by
  have primaryDylib : ∀ s, requiredString path v "primary_dylib" = .ok s ↔
      facts.dylibPath.pathString ≠ "" ∧ s = facts.dylibPath.pathString :=
    fun s => requiredString_written path written.primaryDylib
  have package : ∀ s, requiredString path v "package" = .ok s ↔
      facts.package ≠ "" ∧ s = facts.package :=
    fun s => requiredString_written path written.package
  have module : ∀ s, requiredString path v "module" = .ok s ↔
      facts.module ≠ "" ∧ s = facts.module :=
    fun s => requiredString_written path written.module
  have inner : (v.get? "toolchain_fingerprint").getD .null = facts.fingerprint.toJson := by
    rw [written.fingerprint]
    rfl
  have leanVersion : fingerprintString v "lean_version" "lean_version" =
      some facts.fingerprint.leanVersion ↔ facts.fingerprint.leanVersion ≠ "" :=
    fingerprintString_written (by simp [inner, ToolchainFingerprint.toJson]) written.leanVersion
  have resolvedVersion : fingerprintString v "resolved_version" "resolved_lean_version" =
      some facts.fingerprint.resolvedVersion ↔ facts.fingerprint.resolvedVersion ≠ "" :=
    fingerprintString_written (by simp [inner, ToolchainFingerprint.toJson])
      written.resolvedVersion
  have headerSha256 : fingerprintString v "header_sha256" "lean_header_sha256" =
      some facts.fingerprint.headerSha256 ↔ facts.fingerprint.headerSha256 ≠ "" :=
    fingerprintString_written (by simp [inner, ToolchainFingerprint.toJson]) written.headerSha256
  have named : facts.dylibPath.pathString ≠ "" ↔ facts.dylibPath.bytes ≠ [] :=
    not_congr (PathBuf.pathString_empty_iff wellFormed.dylibPath)
  have same : PathBuf.ofString facts.dylibPath.pathString = facts.dylibPath :=
    wellFormed.dylibPath
  unfold CapabilityManifest.readValue
  rw [requiredSchema_written written]
  constructor
  · intro h
    obtain ⟨_, -, h⟩ := bind_ok.mp h
    obtain ⟨_, first, h⟩ := bind_ok.mp h
    obtain ⟨given, rfl⟩ := (primaryDylib _).mp first
    obtain ⟨_, second, h⟩ := bind_ok.mp h
    obtain ⟨named', rfl⟩ := (package _).mp second
    obtain ⟨_, third, h⟩ := bind_ok.mp h
    obtain ⟨named'', rfl⟩ := (module _).mp third
    obtain ⟨_, fourth, h⟩ := bind_ok.mp h
    obtain ⟨readable, rfl⟩ := (dependencies_written written wellFormed _).mp fourth
    obtain ⟨_, fifth, h⟩ := bind_ok.mp h
    obtain ⟨⟨consistent, distinct⟩, rfl⟩ := (exports_written written _).mp fifth
    have fields := congrArg (fun manifest : CapabilityManifest =>
      (manifest.leanVersion, manifest.resolvedLeanVersion, manifest.leanHeaderSha256))
        (Except.ok.inj h)
    obtain ⟨lean, resolved, header⟩ := by simpa [ManifestFacts.manifest] using fields
    exact {
      dylibPath := named.mp given
      package := named'
      module := named''
      leanVersion := leanVersion.mp lean
      resolvedVersion := resolvedVersion.mp resolved
      headerSha256 := headerSha256.mp header
      dependencies := readable
      signatures := consistent
      distinct := distinct }
  · intro readable
    refine bind_ok.mpr ⟨(), rfl, ?_⟩
    refine bind_ok.mpr ⟨_, (primaryDylib _).mpr ⟨named.mpr readable.dylibPath, rfl⟩, ?_⟩
    refine bind_ok.mpr ⟨_, (package _).mpr ⟨readable.package, rfl⟩, ?_⟩
    refine bind_ok.mpr ⟨_, (module _).mpr ⟨readable.module, rfl⟩, ?_⟩
    refine bind_ok.mpr ⟨_,
      (dependencies_written written wellFormed _).mpr ⟨readable.dependencies, rfl⟩, ?_⟩
    refine bind_ok.mpr ⟨_,
      (exports_written written _).mpr ⟨⟨readable.signatures, readable.distinct⟩, rfl⟩, ?_⟩
    rw [leanVersion.mpr readable.leanVersion, resolvedVersion.mpr readable.resolvedVersion,
      headerSha256.mpr readable.headerSha256, same]
    rfl

theorem readValue_dependencies {manifest : CapabilityManifest}
    (read : readValue path v = .ok manifest) :
    ∃ dependencies, dependenciesFromManifest path v = .ok dependencies := by
  unfold CapabilityManifest.readValue at read
  obtain ⟨_, -, read⟩ := bind_ok.mp read
  obtain ⟨_, -, read⟩ := bind_ok.mp read
  obtain ⟨_, -, read⟩ := bind_ok.mp read
  obtain ⟨_, -, read⟩ := bind_ok.mp read
  obtain ⟨dependencies, found, -⟩ := bind_ok.mp read
  exact ⟨dependencies, found⟩

end Document

theorem join_ne_nil {base relative : PathBuf} (given : relative.bytes ≠ []) :
    (base.join relative).bytes ≠ [] := by
  unfold PathBuf.join
  split
  · exact given
  · split
    · exact given
    · split <;> simp [given]

theorem joinStr_ne_nil {base : PathBuf} {relative : String} (given : relative ≠ "") :
    (base.joinStr relative).bytes ≠ [] := by
  exact join_ne_nil (PathBuf.ofString_ne_nil given)

theorem resolveDylibPath_ne_nil (a : OutputAnswers) (projectRoot : PathBuf)
    (packageName targetName : String) :
    (resolveDylibPath a projectRoot packageName targetName).bytes ≠ [] := by
  have newStyle : (newStyleDylib a projectRoot packageName targetName).bytes ≠ [] :=
    joinStr_ne_nil (by simp)
  have oldStyle : (oldStyleDylib a projectRoot targetName).bytes ≠ [] :=
    joinStr_ne_nil (by simp)
  unfold resolveDylibPath
  split
  · exact newStyle
  · split
    · exact oldStyle
    · exact newStyle

theorem interopDylibs_ne_nil {a : FinishAnswers} {projectRoot : PathBuf} {targetName : String}
    {packages : List Value} {dylibs : List PathBuf}
    (found : interopDylibs a projectRoot targetName packages = .ok dylibs) :
    ∀ dylib ∈ dylibs, dylib.bytes ≠ [] := by
  induction packages generalizing dylibs with
  | nil =>
    cases found
    exact List.forall_mem_nil _
  | cons package rest ih =>
    unfold interopDylibs at found
    cases wanted : interopDir? package with
    | none =>
      rw [wanted] at found
      exact ih found
    | some dir =>
      rw [wanted] at found
      cases resolved : a.canonicalize (projectRoot.joinStr dir) with
      | error err =>
        simp only [resolved] at found
        cases found
      | ok dependencyRoot =>
        simp only [resolved] at found
        obtain ⟨others, tail, same⟩ := bind_ok.mp found
        cases same
        exact List.forall_mem_cons.mpr ⟨resolveDylibPath_ne_nil _ _ _ _, ih tail⟩

theorem capabilityDependencies_ne_nil {a : FinishAnswers} {projectRoot : PathBuf}
    {targetName : String} {dylibs : List PathBuf}
    (found : capabilityDependencies a projectRoot targetName = .ok dylibs) :
    ∀ dylib ∈ dylibs, dylib.bytes ≠ [] := by
  unfold capabilityDependencies at found
  split at found
  · cases found
    exact List.forall_mem_nil _
  · cases found
  · split at found
    · cases found
    · exact interopDylibs_ne_nil found

namespace CargoLeanCapability

variable {spec : CargoLeanCapability} {dylibPath : PathBuf} {selected : Option ToolchainInfo}
  {a : FinishAnswers} {facts : ManifestFacts} {document : Value}

/-- What a build that gets to its end has written, and where each part of it is from. -/
structure Finished (spec : CargoLeanCapability) (dylibPath : PathBuf) (facts : ManifestFacts)
    (document : Value) : Prop where
  dylibPath : facts.dylibPath = dylibPath
  package : ∀ package, spec.package = some package → facts.package = package
  module : facts.module = spec.module.getD spec.targetName
  dependencies : facts.dependencies = spec.dependencies
  exportSignatures : facts.exportSignatures = spec.exportSignatures
  interop : ∀ dylib ∈ facts.interop, dylib.bytes ≠ []
  document : Written document facts

theorem finish_finished (finished : spec.finish dylibPath selected a = .ok (facts, document)) :
    Finished spec dylibPath facts document := by
  unfold finish at finished
  split at finished
  · cases finished
  · obtain ⟨_, gathered, finished⟩ := bind_ok.mp finished
    split at finished
    · cases finished
    · split at finished
      · cases finished
      · cases finished
        unfold CargoLeanCapability.facts at gathered
        obtain ⟨package, named, gathered⟩ := bind_ok.mp gathered
        obtain ⟨interop, found, gathered⟩ := bind_ok.mp gathered
        obtain ⟨fingerprint, -, gathered⟩ := bind_ok.mp gathered
        cases gathered
        refine ⟨rfl, ?_, rfl, rfl, rfl, capabilityDependencies_ne_nil found,
          document_written _ _ _ _ _⟩
        intro given same
        unfold packageName at named
        rw [same] at named
        cases named
        rfl

structure Utf8 (facts : ManifestFacts) : Prop where
  dylibPath : facts.dylibPath.Utf8
  interop : ∀ dylib ∈ facts.interop, dylib.Utf8
  dependencies : ∀ dependency ∈ facts.dependencies, dependency.path.Utf8

theorem Finished.wellFormed (all : Finished spec dylibPath facts document) (utf8 : Utf8 facts) :
    facts.WellFormed where
  dylibPath := utf8.dylibPath
  interop dylib member := ⟨utf8.interop dylib member, all.interop dylib member⟩
  dependencies := utf8.dependencies

def RoundTrips (facts : ManifestFacts) (document : Value) : Prop :=
  ∀ path, CapabilityManifest.read path (.json document) = .ok facts.manifest

/-- A manifest is read back as it was written if and only if its names and paths are not empty,
its signatures are consistent and of distinct symbols, and each dependency that the build was given
has an initializer. -/
theorem finish_roundTrips_iff
    (finished : spec.finish dylibPath selected a = .ok (facts, document)) (utf8 : Utf8 facts) :
    RoundTrips facts document ↔ facts.Readable := by
  have all := finish_finished finished
  have wellFormed := all.wellFormed utf8
  constructor
  · intro reads
    exact (readValue_written all.document wellFormed).mp (reads ⟨[]⟩)
  · intro readable path
    exact (readValue_written all.document wellFormed).mpr readable

def withDependency (dependency : LeanLibraryDependency) : CargoLeanCapability where
  projectRoot := .ofString "/p"
  targetName := "Cap"
  package := some "pkg"
  exportSignatures := [.function "cap_id" [⟨.u8, .none⟩] ⟨.u8, .none, .pure⟩]
  dependencies := [dependency]

def withDependencyFacts (dependency : LeanLibraryDependency) : ManifestFacts where
  dylibPath := .ofString "/p/libCap.so"
  package := "pkg"
  module := "Cap"
  fingerprint := FinishAnswers.smooth.current
  interop := []
  dependencies := [dependency]
  exportSignatures := [.function "cap_id" [⟨.u8, .none⟩] ⟨.u8, .none, .pure⟩]

theorem withDependency_utf8 (dependency : LeanLibraryDependency) (utf8 : dependency.path.Utf8) :
    Utf8 (withDependencyFacts dependency) :=
  ⟨PathBuf.utf8_ofString _, List.forall_mem_nil _, by simpa [withDependencyFacts] using utf8⟩

theorem withDependency_finishes (dependency : LeanLibraryDependency) : ∃ document,
    (withDependency dependency).finish (.ofString "/p/libCap.so") none .smooth =
      .ok (withDependencyFacts dependency, document) := ⟨_, rfl⟩

theorem initialized_dependency_round_trips : ∃ document,
    (withDependency ⟨.ofString "/d.so", true, some ⟨"dep", "Dep"⟩⟩).finish
      (.ofString "/p/libCap.so")
      none .smooth = .ok (withDependencyFacts ⟨.ofString "/d.so", true, some ⟨"dep", "Dep"⟩⟩,
        document) ∧
    RoundTrips (withDependencyFacts ⟨.ofString "/d.so", true, some ⟨"dep", "Dep"⟩⟩) document := by
  obtain ⟨document, finished⟩ := withDependency_finishes _
  refine ⟨document, finished, (finish_roundTrips_iff finished ?_).mpr ?_⟩
  · exact withDependency_utf8 _ (PathBuf.utf8_ofString _)
  · constructor
    case dependencies =>
      rintro _ (_ | ⟨_, ⟨⟩⟩)
      exact ⟨PathBuf.ofString_ne_nil (by decide), _, rfl, by decide, by decide⟩
    case signatures =>
      rintro _ (_ | ⟨_, ⟨⟩⟩)
      refine ⟨by decide, ?_, ⟨rfl, fun io => nomatch io⟩, fun _ io => nomatch io⟩
      rintro _ (_ | ⟨_, ⟨⟩⟩)
      rfl
    case dylibPath => exact PathBuf.ofString_ne_nil (by decide)
    all_goals decide

/-- A dependency that needs no initialization makes a manifest that the loader refuses. -/
theorem plain_dependency_is_refused : ∃ document,
    (withDependency ⟨.ofString "/d.so", true, none⟩).finish (.ofString "/p/libCap.so") none
      .smooth = .ok (withDependencyFacts ⟨.ofString "/d.so", true, none⟩, document) ∧
    ∀ path manifest, CapabilityManifest.read path (.json document) ≠ .ok manifest := by
  obtain ⟨document, finished⟩ := withDependency_finishes ⟨.ofString "/d.so", true, none⟩
  refine ⟨document, finished, fun path manifest read => ?_⟩
  have all := finish_finished finished
  have wellFormed := all.wellFormed (withDependency_utf8 _ (PathBuf.utf8_ofString _))
  obtain ⟨dependencies, found⟩ := readValue_dependencies read
  have readable := ((dependencies_written all.document wellFormed _).mp found).1
  obtain ⟨-, initializer, none, -⟩ := readable _ (List.mem_singleton.mpr rfl)
  cases none

end CargoLeanCapability

end LeanRs
