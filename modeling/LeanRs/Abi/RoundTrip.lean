import LeanRs.Abi.Encoded

/-! A value that was encoded is decoded to itself. The argument looks at the heap that the encoder
leaves behind: whatever is reached later was there, and looked the same. -/
namespace LeanRs

open Procedures RefCounting Procedure

/-- The decoder returns the value that the heap held from the start. -/
def Decodes {V : Type} (E : LeanHeap → Ref → V → Prop) (owns : V → List Ref)
    (f : Ref → HeapProc V) : Prop :=
  ∀ (h : LeanHeap) (roots : Nat → Nat) (handles : List Ref) (r : Ref) (v : V), E h r v →
    Triple (Since h roots (r :: handles)) (f r)
      (fun w now => Since h roots (owns v ++ handles) now ∧ w = v) (fun _ _ => False)

section Decoders

variable {rt : Runtime} {V W : Type} {f : Ref → HeapProc V} {g : Ref → HeapProc W}
  {owns : V → List Ref} {owns' : W → List Ref} {E : LeanHeap → Ref → V → Prop}
  {F : LeanHeap → Ref → W → Prop}

theorem lookAt_known {U : Type} {h : LeanHeap} {roots : Nat → Nat} {handles : List Ref} {r : Ref}
    {view : View Ref} (seen : h.view r = some view) {next : View Ref → HeapProc U}
    {Q : U → LeanHeap → Prop} {R : HeapError → LeanHeap → Prop}
    (rest : Triple (Since h roots (r :: handles)) (next view) Q R) :
    Triple (Since h roots (r :: handles)) (do let view ← lookAt r; next view) Q R := by
  apply Triple.bind (lookAt_since r)
  intro view'
  apply Triple.given
  intro seen'
  rw [seen] at seen'
  cases seen'
  exact rest

theorem orDrop_returns {U : Type} {P : LeanHeap → Prop} {Q : U → LeanHeap → Prop}
    {R : HeapError → LeanHeap → Prop} {owned : List Ref} {m : HeapProc U}
    (body : Triple P m Q (fun _ _ => False)) : Triple P (orDrop rt owned m) Q R := by
  apply Triple.captured body
  · exact fun v => Triple.pure fun _ holds => holds
  · exact fun e _ never => never.elim

theorem loadBase_decodes (frees : FreesAtZero rt.decRefCold) (type : BaseType) :
    Decodes (fun h r v => h.view r = some (type.encode v)) (fun _ => []) (loadBase rt type) := by
  intro h roots handles r v encoded
  apply lookAt_known encoded
  rw [type.read_encode]
  apply Triple.bind (leanDec_since frees r)
  exact fun _ => Triple.pure fun _ since => ⟨since, rfl⟩

theorem loadOption_decodes (frees : FreesAtZero rt.decRefCold) (inner : Decodes E owns f) :
    Decodes (OptionEncoded E) (fun v : Option V => v.toList.flatMap owns) (loadOption rt f) := by
  intro h roots handles r v encoded
  cases v with
  | none =>
    apply lookAt_known encoded
    rw [optionSlot_none.mpr rfl]
    apply Triple.bind (leanDec_since frees r)
    exact fun _ => Triple.pure fun _ since => ⟨since, rfl⟩
  | some v =>
    obtain ⟨slot, seen, part⟩ := encoded
    apply lookAt_known seen
    rw [optionSlot_some.mpr ⟨[], rfl⟩]
    apply Triple.bind (takeCtorObjects_since frees seen fun s mem => mem)
    intro _
    apply Triple.bind (inner h roots handles slot v part)
    intro w
    apply Triple.pure
    rintro now ⟨since, rfl⟩
    exact ⟨by simpa using since, rfl⟩

theorem loadResult_decodes (frees : FreesAtZero rt.decRefCold) (ok : Decodes E owns f)
    (err : Decodes F owns' g) :
    Decodes (ResultEncoded E F) (resultHandles owns owns') (loadResult rt f g) := by
  intro h roots handles r v encoded
  cases v with
  | error w =>
    obtain ⟨slot, seen, part⟩ := encoded
    apply lookAt_known seen
    rw [exceptSlot_error.mpr ⟨[], rfl⟩]
    apply Triple.bind (takeCtorObjects_since frees seen fun s mem => mem)
    intro _
    apply Triple.bind (err h roots handles slot w part)
    intro w'
    apply Triple.pure
    rintro now ⟨since, rfl⟩
    exact ⟨since, rfl⟩
  | ok v =>
    obtain ⟨slot, seen, part⟩ := encoded
    apply lookAt_known seen
    rw [exceptSlot_ok.mpr ⟨[], rfl⟩]
    apply Triple.bind (takeCtorObjects_since frees seen fun s mem => mem)
    intro _
    apply Triple.bind (ok h roots handles slot v part)
    intro v'
    apply Triple.pure
    rintro now ⟨since, rfl⟩
    exact ⟨since, rfl⟩

theorem loadPair_decodes (frees : FreesAtZero rt.decRefCold) (first : Decodes E owns f)
    (second : Decodes F owns' g) :
    Decodes (PairEncoded E F) (fun v : V × W => owns v.1 ++ owns' v.2)
      (loadPair rt f g owns) := by
  rintro h roots handles r ⟨v, w⟩ ⟨slot, slot', seen, part, part'⟩
  apply lookAt_known seen
  rw [pairSlots_ok.mpr ⟨[], rfl⟩]
  apply Triple.bind (takeCtorObjects_since frees seen fun s mem => mem)
  intro _
  apply Triple.bind (orDrop_returns (first h roots (slot' :: handles) slot v part))
  intro v'
  apply Triple.given
  rintro rfl
  apply Triple.bind
    (M := fun w' now => Since h roots (owns' w ++ (owns v' ++ handles)) now ∧ w' = w)
  · apply orDrop_returns
    apply (second h roots (owns v' ++ handles) slot' w part').consequence
    · exact fun _ since => since.perm List.perm_middle.symm
    · exact fun _ _ => id
    · exact fun _ _ => id
  · intro w'
    apply Triple.pure
    rintro now ⟨since, rfl⟩
    refine ⟨since.perm ?_, rfl⟩
    dsimp only
    rw [← List.append_assoc]
    exact List.perm_append_comm.append_right handles

theorem loadEach_decodes (element : Decodes E owns f)
    {h : LeanHeap} {roots : Nat → Nat} {handles : List Ref} {array : Ref} {elements : List Ref}
    (seen : h.view array = some (.array elements)) {slots : List Ref} {vs : List V}
    (parts : List.Forall₂ (E h) slots vs) (inside : ∀ s ∈ slots, s ∈ elements) (out : List V) :
    Triple (Since h roots (out.flatMap owns ++ array :: handles))
      (loadEach rt f owns array slots out)
      (fun ws now => Since h roots (ws.flatMap owns ++ array :: handles) now ∧ ws = out ++ vs)
      (fun _ _ => False) := by
  induction parts generalizing out with
  | nil =>
    rw [List.append_nil]
    exact Triple.pure fun _ since => ⟨since, rfl⟩
  | @cons slot v rest vs part _ ih =>
    have held : array ∈ out.flatMap owns ++ array :: handles := by simp
    apply Triple.bind (leanInc_slot seen held (inside slot (List.mem_cons_self ..)))
    intro _
    apply Triple.bind (orDrop_returns
      (element h roots (out.flatMap owns ++ array :: handles) slot v part))
    intro w
    apply Triple.given
    rintro rfl
    apply (ih (fun s mem => inside s (List.mem_cons_of_mem slot mem)) (out ++ [w])).consequence
    · intro now since
      apply since.perm
      rw [List.flatMap_append, List.flatMap_singleton, ← List.append_assoc]
      exact List.perm_append_comm.append_right (array :: handles)
    · intro ws now returns
      rw [List.append_assoc] at returns
      exact returns
    · exact fun _ _ => id

theorem loadVec_decodes (frees : FreesAtZero rt.decRefCold) (element : Decodes E owns f) :
    Decodes (VecEncoded E) (fun vs : List V => vs.flatMap owns) (loadVec rt f owns) := by
  rintro h roots handles r vs ⟨slots, seen, parts⟩
  apply lookAt_known seen
  rw [arraySlots_ok.mpr rfl]
  apply Triple.bind (loadEach_decodes element seen parts (fun _ mem => mem) [])
  intro ws
  apply Triple.given
  intro same
  rw [List.nil_append] at same
  subst same
  apply Triple.bind (M := fun _ => Since h roots (ws.flatMap owns ++ handles))
  · apply (leanDec_since frees r).consequence
    · exact fun _ since => since.perm List.perm_middle.symm
    · exact fun _ _ => id
    · exact fun _ _ => id
  · exact fun _ => Triple.pure fun _ since => ⟨since, rfl⟩

end Decoders

theorem RustType.load_decodes {rt : Runtime} (frees : FreesAtZero rt.decRefCold) :
    (type : RustType) → Decodes type.Encoded type.handles (type.load rt)
  | base type => loadBase_decodes frees type
  | option inner => loadOption_decodes frees (inner.load_decodes frees)
  | result ok err => loadResult_decodes frees (ok.load_decodes frees) (err.load_decodes frees)
  | vec element => loadVec_decodes frees (element.load_decodes frees)
  | pair first second =>
    loadPair_decodes frees (first.load_decodes frees) (second.load_decodes frees)
  | triple first second third =>
    loadPair_decodes frees (first.load_decodes frees)
      (loadPair_decodes frees (second.load_decodes frees) (third.load_decodes frees))
  | obj => fun _ _ _ _ _ encoded => Triple.pure fun _ since => ⟨encoded ▸ since, encoded⟩

/-- `try_from_lean` gives back what `into_lean` was given; and on any object, whether it returns or
fails, the counts are right afterwards without the handle it was given and with those it returns. -/
theorem conversions_balance (rt : Runtime) (frees : FreesAtZero rt.decRefCold) :
    (∀ (type : RustType) (v : type.Value Ref) (h : LeanHeap) (roots : Nat → Nat)
        (handles : List Ref), Held h roots (type.handles v ++ handles) →
      ∃ r h', type.store v h = .returned r h' ∧ Held h' roots (r :: handles) ∧ Extends h h' ∧
        Settles (type.load rt r h')
          (fun w now => w = v ∧ Since h' roots (type.handles v ++ handles) now)
          (fun _ _ => False)) ∧
    ∀ (type : RustType) (r : Ref) (h : LeanHeap) (roots : Nat → Nat) (handles : List Ref),
      Held h roots (r :: handles) →
      Settles (type.load rt r h) (fun v => Since h roots (type.handles v ++ handles))
        (Fails h roots handles) := by
  constructor
  · intro type v h roots handles held
    obtain ⟨r, h', run, held', kept, encoded⟩ := type.store_stores h roots handles v held
    have decodes := type.load_decodes frees h' roots handles r v encoded h' ⟨held', .refl h'⟩
    refine ⟨r, h', run, held', kept, ?_, type.load_waits r h'⟩
    exact decodes.weaken (fun _ _ returns => ⟨returns.2, returns.1⟩) (fun _ _ => id)
  · intro type r h roots handles held
    exact ⟨type.load_balances frees h roots handles r h ⟨held, .refl h⟩, type.load_waits r h⟩

/-- A value for each base type, where nothing is known of the memory. -/
def BaseType.zero : (type : BaseType) → type.Value
  | unit => ()
  | bool => false
  | u8 => 0
  | u16 => 0
  | u32 => 0
  | i8 => 0
  | i16 => 0
  | i32 => 0
  | u64 => 0
  | usize => 0
  | i64 => 0
  | isize => 0
  | char => 'a'
  | f64 => 0
  | string => ""

def plainRuntime : Runtime := ⟨releaseCold, fun _ _ type => type.zero, fun _ => 0⟩

/-- An array with one string in it twice, and then a number. -/
def sharedHeap : LeanHeap :=
  [some ⟨1, .array [.addr 1, .addr 1, .scalar 3]⟩, some ⟨-2, ⟨.string "x".toByteArray, rfl⟩⟩]

theorem sharedHeap_held : Held sharedHeap (fun _ => 0) [.addr 0] := by
  constructor
  · intro a c live counts
    match a with
    | 0 | 1 =>
      cases live
      decide
    | a + 2 => cases live
  · intro a gone
    match a with
    | 0 | 1 => cases gone
    | a + 2 =>
      simp [inRefs, sharedHeap, cellRefs, HeapObject.addresses, HeapObject.array, View.slots,
        Ref.address?]
      rfl

theorem emptyHeap_held : Held [] (fun _ => 0) [] := by
  constructor
  · intro a c live
    simp [Heap.cell] at live
  · exact fun _ _ => rfl

theorem conversions_balance_shared :
    (∃ r h', (RustType.vec (.pair (.base .u64) (.base .string))).store [(7, "a")] [] =
        .returned r h' ∧ Held h' (fun _ => 0) [r] ∧ Extends [] h' ∧
        Settles ((RustType.vec (.pair (.base .u64) (.base .string))).load plainRuntime r h')
          (fun w now => w = [(7, "a")] ∧ Since h' (fun _ => 0) [] now) (fun _ _ => False)) ∧
      Settles ((RustType.vec (.base .string)).load plainRuntime (.addr 0) sharedHeap)
        (fun _ => Since sharedHeap (fun _ => 0) []) (Fails sharedHeap (fun _ => 0) []) := by
  constructor
  · exact (conversions_balance plainRuntime releaseCold_frees).1
      (.vec (.pair (.base .u64) (.base .string))) [(7, "a")] [] (fun _ => 0) [] emptyHeap_held
  · have settles := (conversions_balance plainRuntime releaseCold_frees).2
      (.vec (.base .string)) (.addr 0) sharedHeap (fun _ => 0) [] sharedHeap_held
    have bare : ∀ v : List String, (RustType.vec (.base .string)).handles v = [] := by
      intro v
      induction v with
      | nil => rfl
      | cons _ _ ih => exact ih
    simpa only [bare, List.append_nil] using settles

end LeanRs
