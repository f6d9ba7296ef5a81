import LeanRs.General.Fallible
import Mathlib.Data.List.Nodup
import LeanRs.Loader.Exported

/-! When the handle that a checked lookup returns is called the way its symbol is. A handle always
goes with the manifest's entry; the one entry whose call goes wrong is a global that holds a
scalar. -/
namespace LeanRs

open Fallible CapabilityManifest

theorem signatureOf_symbol (symbol : String) (kind : LeanExportSymbolKind)
    (args : List LeanExportArgAbi) (result : LeanExportReturnAbi) :
    (signatureOf symbol kind args result).symbol = symbol := by
  cases kind <;> rfl

theorem exportsFrom_distinct {path : PathBuf} (entries : List Json.Value) (seen : List String)
    (signatures : List LeanExportSignature) (h : exportsFrom path seen entries = .ok signatures) :
    (∀ signature ∈ signatures, signature.symbol ∉ seen) ∧
      (signatures.map LeanExportSignature.symbol).Nodup := by
  induction entries generalizing seen signatures with
  | nil =>
    cases h
    simp
  | cons entry entries ih =>
    obtain ⟨symbol, -, h⟩ := bind_ok.mp h
    by_cases again : symbol ∈ seen
    · rw [if_pos again] at h
      cases h
    rw [if_neg again] at h
    obtain ⟨kind, -, h⟩ := bind_ok.mp h
    obtain ⟨args, -, h⟩ := bind_ok.mp h
    obtain ⟨result, -, h⟩ := bind_ok.mp h
    obtain ⟨_, -, h⟩ := bind_ok.mp h
    obtain ⟨rest, others, h⟩ := bind_ok.mp h
    cases h
    obtain ⟨fresh, distinct⟩ := ih (symbol :: seen) rest others
    have apart : ∀ signature ∈ rest, signature.symbol ≠ symbol ∧ signature.symbol ∉ seen := by
      intro signature mem
      have := fresh signature mem
      simpa using this
    constructor
    · intro signature mem
      rcases List.mem_cons.mp mem with rfl | mem
      · rwa [signatureOf_symbol]
      · exact (apart signature mem).2
    · rw [List.map_cons, List.nodup_cons, signatureOf_symbol]
      constructor
      · intro mem
        obtain ⟨signature, mem, same⟩ := List.mem_map.mp mem
        exact (apart signature mem).1 same
      · exact distinct

theorem read_distinct {path : PathBuf} {file : ManifestFile} {manifest : CapabilityManifest}
    (h : CapabilityManifest.read path file = .ok manifest) :
    (manifest.exports.map LeanExportSignature.symbol).Nodup := by
  cases file with
  | missing err => cases h
  | unreadable err => cases h
  | notJson err => cases h
  | json v =>
    obtain ⟨_, -, h⟩ := bind_ok.mp h
    obtain ⟨_, -, h⟩ := bind_ok.mp h
    obtain ⟨_, -, h⟩ := bind_ok.mp h
    obtain ⟨_, -, h⟩ := bind_ok.mp h
    obtain ⟨_, -, h⟩ := bind_ok.mp h
    obtain ⟨exports, read, h⟩ := bind_ok.mp h
    cases h
    unfold exportsFromManifest at read
    split at read
    · cases read
    · split at read
      · cases read
      · exact (exportsFrom_distinct _ _ _ read).2

/-- The entry is the requested call shape: its arity, representations, ownership and convention,
and no arguments and no `IO` if it is a global. -/
structure LeanExportSignature.Requests (signature : LeanExportSignature) (args : List RustType)
    (result : ReturnType) : Prop where
  arguments : signature.args = exportAbiArgs args
  returns : signature.result = result.exportAbiReturn
  globalNullary : signature.kind = .global → args = [] ∧ result.expectsIoResult = false

theorem expectedSignature_requests {signature : LeanExportSignature} {name : String}
    {args : List RustType} {result : ReturnType}
    (same : LeanCapability.expectedSignature signature.kind name args result = signature) :
    signature.Requests args result := by
  cases kind : signature.kind with
  | function =>
    rw [kind] at same
    constructor
    · rw [← same]
      rfl
    · rw [← same]
      rfl
    · intro isGlobal
      rw [kind] at isGlobal
      cases isGlobal
  | «global» =>
    rw [kind] at same
    simp only [LeanCapability.expectedSignature] at same
    split at same
    next nullary =>
      have none : args = [] := List.length_eq_zero_iff.mp nullary.1
      subst none
      constructor
      · rw [← same]
        rfl
      · rw [← same]
        rfl
      · intro _
        exact ⟨rfl, nullary.2⟩
    next =>
      rw [← same] at kind
      cases kind

theorem exportedUnchecked_ok {library : LeanLibrary} {loaderError name : String}
    {args : List RustType} {result : ReturnType} {handle : LeanExported}
    (h : exportedUnchecked library loaderError name args result = .ok handle) :
    handle = ⟨if library.inGlobals name then .global name else .function name, args, result⟩ := by
  have resolved : ∀ {kind symbol : String}, library.resolveSymbol loaderError kind name =
      .ok symbol → symbol = name := by
    intro kind symbol h
    unfold LeanLibrary.resolveSymbol at h
    split at h <;> cases h
    rfl
  unfold exportedUnchecked at h
  split at h
  next data =>
    rw [if_pos data]
    split at h
    · cases h
    · split at h
      · cases h
      · cases found : library.resolveSymbol loaderError "global" name with
        | error err =>
          rw [found] at h
          cases h
        | ok symbol =>
          rw [found] at h
          cases h
          rw [resolved found]
  next code =>
    rw [if_neg code]
    cases found : library.resolveSymbol loaderError "exported" name with
    | error err =>
      rw [found] at h
      cases h
    | ok symbol =>
      rw [found] at h
      cases h
      rw [resolved found]

theorem exported_ok {capability : LeanCapability} {loaderError name : String}
    {args : List RustType} {result : ReturnType} {handle : LeanExported}
    (h : capability.exported loaderError name args result = .ok handle) :
    ∃ signature ∈ capability.exportSignatures, signature.symbol = name ∧
      signature.Requests args result ∧
      signature.kind = LeanCapability.actualKind capability.library name ∧
      handle = ⟨if signature.kind = .global then .global name else .function name, args,
        result⟩ := by
  unfold LeanCapability.exported at h
  cases found : capability.signatureFor name with
  | none =>
    rw [found] at h
    cases h
  | some signature =>
    simp only [found] at h
    split at h
    · cases h
    next same =>
      split at h
      · cases h
      next kind =>
        have kind := not_not.mp kind
        split at h
        · cases h
        · cases unchecked : exportedUnchecked capability.library loaderError name args result with
          | error err =>
            rw [unchecked] at h
            cases h
          | ok handle' =>
            rw [unchecked] at h
            cases h
            have mem := List.mem_of_find?_eq_some found
            have named := List.find?_some found
            refine ⟨signature, List.mem_reverse.mp mem, by simpa using named,
              expectedSignature_requests (not_not.mp same), kind, ?_⟩
            rw [exportedUnchecked_ok unchecked, kind]
            unfold LeanCapability.actualKind
            split <;> rfl

section Call

variable {library : LeanLibrary} {signature : LeanExportSignature} {args : List RustType}
  {result : ReturnType} (described : library.symbol signature.symbol = some signature.describes)
  (requested : signature.Requests args result)
include described requested

theorem function_call_sound (kind : signature.kind = .function) :
    (LeanExported.call ⟨.function signature.symbol, args, result⟩).Sound library := by
  have shape : signature.describes = .function (args.map RustType.cRepr) result.cRepr
      result.exportAbiReturn.convention := by
    unfold LeanExportSignature.describes
    rw [kind, requested.arguments, requested.returns, exportAbiArgs_repr,
      ReturnType.exportAbiReturn_repr]
  exact ⟨_, described.trans (congrArg some shape), (ReturnType.exportAbiReturn_io result).symm⟩

theorem global_call_sound_iff (kind : signature.kind = .global) :
    (LeanExported.call ⟨.global signature.symbol, args, result⟩).Sound library ↔
      signature.result.repr = .leanObject := by
  have shape : signature.describes = .slot signature.result.repr := by
    unfold LeanExportSignature.describes
    rw [kind]
  have asked : result.cRepr = signature.result.repr := by
    rw [requested.returns, ReturnType.exportAbiReturn_repr]
  constructor
  · rintro ⟨holds, -⟩
    rw [described, shape] at holds
    exact DylibSymbol.slot.inj (Option.some.inj holds)
  · intro object
    rw [object] at shape asked
    exact ⟨described.trans (congrArg some shape), asked⟩

end Call

def LeanCapability.ofManifest (manifest : CapabilityManifest) (library : LeanLibrary)
    (initialized : Except HostFailure Unit) : LeanCapability :=
  ⟨library, manifest.exports, initialized⟩

/-- A handle of a checked lookup always goes with the manifest's only entry for the name, and it
is called the way its symbol is unless that entry is a global with a scalar representation. -/
theorem exported_sound_iff {path : PathBuf} {file : ManifestFile} {manifest : CapabilityManifest}
    {library : LeanLibrary} {initialized : Except HostFailure Unit} {loaderError name : String}
    {args : List RustType} {result : ReturnType} {handle : LeanExported}
    (accepted : CapabilityManifest.read path file = .ok manifest)
    (truthful : library.DescribedBy manifest.exports)
    (returned : (LeanCapability.ofManifest manifest library initialized).exported loaderError name
      args result = .ok handle) :
    (handle.call.Sound library ∧ ∀ signature ∈ manifest.exports, signature.symbol = name →
        signature.Requests args result) ↔
      ∀ signature ∈ manifest.exports, signature.symbol = name → signature.kind = .global →
        signature.result.repr = .leanObject := by
  obtain ⟨signature, mem, rfl, requested, -, rfl⟩ := exported_ok returned
  have mem : signature ∈ manifest.exports := mem
  have described := truthful signature mem
  have only : ∀ other ∈ manifest.exports, other.symbol = signature.symbol → other = signature :=
    fun other otherMem same =>
      List.inj_on_of_nodup_map (read_distinct accepted) otherMem mem same
  have agree : ∀ other ∈ manifest.exports, other.symbol = signature.symbol →
      other.Requests args result := by
    intro other otherMem same
    rw [only other otherMem same]
    exact requested
  cases kind : signature.kind with
  | function =>
    constructor
    · intro _ other otherMem same isGlobal
      rw [only other otherMem same, kind] at isGlobal
      cases isGlobal
    · intro _
      exact ⟨function_call_sound described requested kind, agree⟩
  | «global» =>
    have call := global_call_sound_iff described requested kind
    constructor
    · rintro ⟨sound, -⟩ other otherMem same -
      rw [only other otherMem same]
      exact call.mp sound
    · intro objects
      exact ⟨call.mpr (objects signature mem rfl kind), agree⟩

def globalDocument (result : LeanExportReturnAbi) : Json.Value :=
  .object [("schema_version", .posInt 2), ("primary_dylib", .string "libcap.so"),
    ("package", .string "pkg"), ("module", .string "Cap"),
    ("exports", .array [(LeanExportSignature.global "answer" result).toJson])]

def globalManifest (result : LeanExportReturnAbi) : CapabilityManifest where
  primaryDylib := .ofString "libcap.so"
  package := "pkg"
  module := "Cap"
  dependencies := []
  leanVersion := none
  resolvedLeanVersion := none
  leanHeaderSha256 := none
  exports := [.global "answer" result]

def slotLibrary (result : LeanExportReturnAbi) : LeanLibrary where
  path := .ofString "libcap.so"
  symbol name := if name = "answer" then some (.slot result.repr) else none
  listed name := name == "answer"

theorem slotLibrary_described (result : LeanExportReturnAbi) :
    (slotLibrary result).DescribedBy (globalManifest result).exports := by
  rintro _ (_ | ⟨_, ⟨⟩⟩)
  rfl

def objectGlobal : LeanExportReturnAbi := ⟨.leanObject, .owned, .pure⟩

def byteGlobal : LeanExportReturnAbi := ⟨.u8, .none, .pure⟩

theorem object_global_is_read_soundly :
    (LeanExported.call ⟨.global "answer", [], .pure (.base .string)⟩).Sound
      (slotLibrary objectGlobal) := by
  have accepted : CapabilityManifest.read (.ofString "cap.json")
      (.json (globalDocument objectGlobal)) = .ok (globalManifest objectGlobal) := by
    decide +kernel
  have returned : (LeanCapability.ofManifest (globalManifest objectGlobal)
      (slotLibrary objectGlobal) (.ok ())).exported "" "answer" [] (.pure (.base .string)) =
      .ok ⟨.global "answer", [], .pure (.base .string)⟩ := rfl
  have holds := exported_sound_iff accepted (slotLibrary_described objectGlobal) returned
  apply (holds.mpr _).1
  rintro _ (_ | ⟨_, ⟨⟩⟩) - -
  rfl

/-- The manifest lists a global that holds a byte, truthfully; a lookup for a byte returns a
handle, and its call takes the byte and what follows it for a pointer to an object. -/
theorem scalar_global_is_read_as_a_pointer :
    ∃ handle, CapabilityManifest.read (.ofString "cap.json") (.json (globalDocument byteGlobal)) =
        .ok (globalManifest byteGlobal) ∧
      (slotLibrary byteGlobal).DescribedBy (globalManifest byteGlobal).exports ∧
      (LeanCapability.ofManifest (globalManifest byteGlobal) (slotLibrary byteGlobal)
        (.ok ())).exported "" "answer" [] (.pure (.base .u8)) = .ok handle ∧
      handle.call = .readPointer "answer" .u8 ∧ ¬handle.call.Sound (slotLibrary byteGlobal) := by
  refine ⟨⟨.global "answer", [], .pure (.base .u8)⟩, ?_, slotLibrary_described byteGlobal,
    rfl, rfl, ?_⟩
  · decide +kernel
  · rintro ⟨-, ⟨⟩⟩

end LeanRs
