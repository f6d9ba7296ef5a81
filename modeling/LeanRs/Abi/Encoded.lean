import LeanRs.Abi.Balance

/-! What the encoders leave on the heap: objects that encode the value, each with one owner. -/
namespace LeanRs

open Procedures RefCounting Procedure

theorem smallInt_scalar {A B : Type} (expected : String) {width payload : Nat} (cast : Nat → B)
    {v : B} (fits : payload < 2 ^ width) (back : cast payload = v) :
    (smallInt expected width cast (.scalar payload : View A)).mapError DecodeError.conversion =
      .ok v := by
  unfold smallInt
  simp only [requireScalar, bind, Except.bind, if_pos fits, back]
  rfl

theorem unboxUInt64_boxed {A : Type} (expected : String) (n : UInt64) :
    unboxUInt64 expected (.ctor 0 [] (LittleEndian.toBytes 8 n.toNat) : View A) = .ok n := by
  have fits : n.toNat < 256 ^ 8 := n.toNat_lt
  have length := LittleEndian.length_toBytes 8 n.toNat
  simp only [unboxUInt64, requireCtor, scalarArea, length, Nat.le_refl, if_true]
  rw [List.take_of_length_le (by rw [length]), LittleEndian.ofBytes_toBytes fits]
  simp

theorem unboxUSize_boxed {A : Type} (bits : A → UInt64) (expected : String) (n : UInt64) :
    unboxUSize bits expected (.ctor 0 [] (LittleEndian.toBytes 8 n.toNat) : View A) = .ok n :=
  unboxUInt64_boxed (A := A) expected n

theorem readBool_encode {A : Type} (b : Bool) :
    readBool (.scalar b.toNat : View A) = .ok b := by
  cases b <;> rfl

theorem readChar_encode {A : Type} (ch : Char) :
    readChar (.scalar ch.toNat : View A) = .ok ch := by
  have fits : ch.toNat < 2 ^ 32 := ch.val.toNat_lt
  have valid : ch.toNat.isValidChar := ch.valid
  simp only [readChar, requireScalar, bind, Except.bind, if_pos fits, if_pos valid,
    Char.ofNat_toNat]

theorem readString_encode {A : Type} (text : String) :
    readString (.string text.toByteArray : View A) = .ok text := by
  simp only [readString, requireString, bind, Except.bind, String.fromUTF8?, text.isValidUTF8,
    dif_pos]
  rfl

theorem BaseType.read_encode {A : Type} (bits : A → UInt64) (type : BaseType) (v : type.Value) :
    type.read bits (type.encode v) = .ok v := by
  cases type with
  | unit => rfl
  | bool => exact congrArg (Except.mapError _) (readBool_encode v)
  | u8 => exact smallInt_scalar _ _ v.toNat_lt UInt8.ofNat_toNat
  | u16 => exact smallInt_scalar _ _ v.toNat_lt UInt16.ofNat_toNat
  | u32 => exact smallInt_scalar _ _ v.toNat_lt UInt32.ofNat_toNat
  | i8 => exact smallInt_scalar _ _ v.toUInt8.toNat_lt (congrArg _ UInt8.ofNat_toNat)
  | i16 => exact smallInt_scalar _ _ v.toUInt16.toNat_lt (congrArg _ UInt16.ofNat_toNat)
  | i32 => exact smallInt_scalar _ _ v.toUInt32.toNat_lt (congrArg _ UInt32.ofNat_toNat)
  | u64 => exact unboxUInt64_boxed (A := A) "u64" v
  | usize => exact unboxUSize_boxed bits "usize" v
  | i64 => exact congrArg (Except.map UInt64.toInt64) (unboxUInt64_boxed (A := A) "i64" v.toUInt64)
  | isize => exact congrArg (Except.map UInt64.toInt64) (unboxUSize_boxed bits "isize" v.toUInt64)
  | char => exact congrArg (Except.mapError _) (readChar_encode v)
  | f64 => exact unboxUInt64_boxed (A := A) "f64" v
  | string => exact congrArg (Except.mapError _) (readString_encode v)

section Parts

variable {V W : Type} (E : LeanHeap → Ref → V → Prop) (F : LeanHeap → Ref → W → Prop)
  (h : LeanHeap) (r : Ref)

def OptionEncoded : Option V → Prop
  | none => h.view r = some (.scalar 0)
  | some v => ∃ slot, h.view r = some (.ctor 1 [slot] []) ∧ E h slot v

def ResultEncoded : Except W V → Prop
  | .error w => ∃ slot, h.view r = some (.ctor 0 [slot] []) ∧ F h slot w
  | .ok v => ∃ slot, h.view r = some (.ctor 1 [slot] []) ∧ E h slot v

def VecEncoded (vs : List V) : Prop :=
  ∃ slots, h.view r = some (.array slots) ∧ List.Forall₂ (E h) slots vs

def PairEncoded (v : V × W) : Prop :=
  ∃ first second, h.view r = some (.ctor 0 [first, second] []) ∧ E h first v.1 ∧ F h second v.2

end Parts

def RustType.Encoded : (type : RustType) → LeanHeap → Ref → type.Value Ref → Prop
  | base type => fun h r v => h.view r = some (type.encode v)
  | option inner => OptionEncoded inner.Encoded
  | result ok err => ResultEncoded ok.Encoded err.Encoded
  | vec element => VecEncoded element.Encoded
  | pair first second => PairEncoded first.Encoded second.Encoded
  | triple first second third =>
    PairEncoded first.Encoded (PairEncoded second.Encoded third.Encoded)
  | obj => fun _ r v => r = v

/-- The pointers in `S` are seen in `h'` as in `h`, and lead to others in `S`. -/
def Region (h h' : LeanHeap) (S : Ref → Prop) : Prop :=
  ∀ r view, S r → h.view r = some view → h'.view r = some view ∧ ∀ s ∈ view.slots, S s

def Frames {V : Type} (E : LeanHeap → Ref → V → Prop) : Prop :=
  ∀ (h h' : LeanHeap) (S : Ref → Prop) (r : Ref) (v : V), Region h h' S → S r → E h r v → E h' r v

section Frames

variable {V W : Type} {E : LeanHeap → Ref → V → Prop} {F : LeanHeap → Ref → W → Prop}

theorem OptionEncoded.frames (inner : Frames E) : Frames (OptionEncoded E) := by
  intro h h' S r v region mem encoded
  cases v with
  | none => exact (region r _ mem encoded).1
  | some v =>
    obtain ⟨slot, seen, part⟩ := encoded
    obtain ⟨seen', slots⟩ := region r _ mem seen
    exact ⟨slot, seen', inner h h' S slot v region (slots slot (List.mem_singleton_self _)) part⟩

theorem ResultEncoded.frames (ok : Frames E) (err : Frames F) : Frames (ResultEncoded E F) := by
  intro h h' S r v region mem encoded
  cases v with
  | error w =>
    obtain ⟨slot, seen, part⟩ := encoded
    obtain ⟨seen', slots⟩ := region r _ mem seen
    exact ⟨slot, seen', err h h' S slot w region (slots slot (List.mem_singleton_self _)) part⟩
  | ok v =>
    obtain ⟨slot, seen, part⟩ := encoded
    obtain ⟨seen', slots⟩ := region r _ mem seen
    exact ⟨slot, seen', ok h h' S slot v region (slots slot (List.mem_singleton_self _)) part⟩

theorem Frames.each (element : Frames E) {h h' : LeanHeap} {S : Ref → Prop}
    (region : Region h h' S) {slots : List Ref} {vs : List V}
    (parts : List.Forall₂ (E h) slots vs) (mem : ∀ s ∈ slots, S s) :
    List.Forall₂ (E h') slots vs := by
  induction parts with
  | nil => exact .nil
  | cons part _ ih =>
    rw [List.forall_mem_cons] at mem
    exact .cons (element h h' S _ _ region mem.1 part) (ih mem.2)

theorem VecEncoded.frames (element : Frames E) : Frames (VecEncoded E) := by
  rintro h h' S r vs region mem ⟨slots, seen, parts⟩
  obtain ⟨seen', inside⟩ := region r _ mem seen
  exact ⟨slots, seen', element.each region parts inside⟩

theorem PairEncoded.frames (first : Frames E) (second : Frames F) :
    Frames (PairEncoded E F) := by
  rintro h h' S r v region mem ⟨slot, slot', seen, part, part'⟩
  obtain ⟨seen', slots⟩ := region r _ mem seen
  have left := slots slot (List.mem_cons_self ..)
  have right := slots slot' (List.mem_cons_of_mem _ (List.mem_cons_self ..))
  exact ⟨slot, slot', seen', first h h' S slot v.1 region left part,
    second h h' S slot' v.2 region right part'⟩

end Frames

theorem RustType.encoded_frames : (type : RustType) → Frames type.Encoded
  | base _ => fun _ _ _ r _ region mem seen => (region r _ mem seen).1
  | option inner => OptionEncoded.frames inner.encoded_frames
  | result ok err => ResultEncoded.frames ok.encoded_frames err.encoded_frames
  | vec element => VecEncoded.frames element.encoded_frames
  | pair first second => PairEncoded.frames first.encoded_frames second.encoded_frames
  | triple first second third => PairEncoded.frames first.encoded_frames
      (PairEncoded.frames second.encoded_frames third.encoded_frames)
  | obj => fun _ _ _ _ _ _ _ same => same

theorem region_extends {h h' : LeanHeap} (extends' : Extends h h') :
    Region h h' fun _ => True := by
  intro r view _ seen
  refine ⟨?_, fun _ _ => trivial⟩
  cases r with
  | scalar payload => exact seen
  | addr a =>
    cases live : h.cell a with
    | none => simp [LeanHeap.view, live] at seen
    | some c =>
      rw [LeanHeap.view, live] at seen
      rw [LeanHeap.view, extends' a c live]
      exact seen

theorem slot_ne_unused {h : LeanHeap} {a b : Nat} {c : Cell HeapObject} {s : Ref}
    (unused : inRefs HeapObject.addresses h a = 0) (live : h.cell b = some c)
    (slot : s ∈ c.body.view.slots) : s ≠ .addr a := by
  rintro rfl
  have child : a ∈ c.body.addresses := List.mem_filterMap.mpr ⟨_, slot, rfl⟩
  have once : 0 < c.body.addresses.count a := List.count_pos_iff.mpr child
  have below := count_le_inRefs HeapObject.addresses (b := a) live
  omega

theorem region_put {h : LeanHeap} {a : Nat} {c : Cell HeapObject}
    (unused : inRefs HeapObject.addresses h a = 0) : Region h (h.put a c) (· ≠ .addr a) := by
  intro r view other seen
  cases r with
  | scalar payload =>
    cases seen
    exact ⟨rfl, nofun⟩
  | addr b =>
    have apart : b ≠ a := fun same => other (congrArg _ same)
    cases live : h.cell b with
    | none => simp [LeanHeap.view, live] at seen
    | some d =>
      rw [LeanHeap.view, live, Option.map_some] at seen
      cases seen
      constructor
      · rw [LeanHeap.view, Heap.cell_put_other apart, live, Option.map_some]
      · exact fun s slot => slot_ne_unused unused live slot

section Store

variable {h : LeanHeap} {roots : Nat → Nat} {handles : List Ref}

theorem count_address (refs : List Ref) (b : Nat) :
    (refs.filterMap Ref.address?).count b = refs.count (.addr b) := by
  induction refs with
  | nil => rfl
  | cons r refs ih =>
    cases r with
    | scalar payload =>
      rw [List.filterMap_cons_none rfl, ih, List.count_cons_of_ne (by simp)]
    | addr a =>
      have step : (Ref.addr a :: refs).filterMap Ref.address? = a :: refs.filterMap Ref.address? :=
        rfl
      rw [step, List.count_cons, List.count_cons, ih]
      simp

theorem Held.alloc {object : HeapObject} (held : Held h roots (object.view.slots ++ handles)) :
    Held (h.alloc object) roots (.addr h.length :: handles) := by
  apply Consistent.alloc held
  intro b
  rw [HeapObject.addresses, count_address, List.count_append]
  by_cases here : b = h.length
  · subst here
    rw [if_pos rfl, List.count_cons_self]
    omega
  · rw [if_neg here, List.count_cons_of_ne (by simpa using Ne.symm here)]
    omega

/-- What an encoder leaves: a handle to an object that encodes the value. -/
structure Stored {V : Type} (E : LeanHeap → Ref → V → Prop) (h : LeanHeap) (roots : Nat → Nat)
    (handles : List Ref) (v : V) (r : Ref) (h' : LeanHeap) : Prop where
  held : Held h' roots (r :: handles)
  kept : Extends h h'
  encoded : E h' r v

def Stores {V : Type} (E : LeanHeap → Ref → V → Prop) (owns : V → List Ref)
    (f : V → HeapProc Ref) : Prop :=
  ∀ (h : LeanHeap) (roots : Nat → Nat) (handles : List Ref) (v : V),
    Held h roots (owns v ++ handles) →
      ∃ r h', f v h = .returned r h' ∧ Stored E h roots handles v r h'

theorem view_alloc (object : HeapObject) :
    LeanHeap.view (h.alloc object) (.addr h.length) = some object.view := by
  rw [LeanHeap.view, Heap.cell_alloc_new, Option.map_some]

theorem place_stores (view : View Ref) (handles : List Ref)
    (held : Held h roots (view.slots ++ handles)) :
    ∃ r h', view.place h = .returned r h' ∧ Held h' roots (r :: handles) ∧ Extends h h' ∧
      h'.view r = some view := by
  cases view with
  | scalar payload =>
    exact ⟨.scalar payload, h, rfl, Held.scalar.mpr held, .refl h, rfl⟩
  | ctor tag fields scalars =>
    exact ⟨_, _, rfl, Held.alloc held, .alloc h _, view_alloc _⟩
  | string bytes => exact ⟨_, _, rfl, Held.alloc held, .alloc h _, view_alloc _⟩
  | array elements => exact ⟨_, _, rfl, Held.alloc held, .alloc h _, view_alloc _⟩
  | sarray elemSize bytes => exact ⟨_, _, rfl, Held.alloc held, .alloc h _, view_alloc _⟩
  | other kind children => exact ⟨_, _, rfl, Held.alloc held, .alloc h _, view_alloc _⟩

end Store

section Encoders

variable {V W : Type} {E : LeanHeap → Ref → V → Prop} {F : LeanHeap → Ref → W → Prop}
  {owns : V → List Ref} {owns' : W → List Ref} {f : V → HeapProc Ref} {g : W → HeapProc Ref}

theorem Frames.extends {h h' : LeanHeap} {r : Ref} {v : V} (frames : Frames E)
    (kept : Extends h h') (encoded : E h r v) : E h' r v :=
  frames h h' _ r v (region_extends kept) trivial encoded

theorem storeBase_stores (type : BaseType) :
    Stores (fun h r v => h.view r = some (type.encode v)) (fun _ => [])
      (fun v => (type.encode v).place) := by
  intro h roots handles v held
  have bare : (type.encode v : View Ref).slots = [] := by cases type <;> rfl
  obtain ⟨r, h', run, held', kept, seen⟩ :=
    place_stores (type.encode v) handles (by rw [bare]; exact held)
  exact ⟨r, h', run, held', kept, seen⟩

theorem storeField_stores (stores : Stores E owns f) (frames : Frames E) (tag : Nat)
    {h : LeanHeap} {roots : Nat → Nat} {handles : List Ref} {v : V}
    (held : Held h roots (owns v ++ handles)) :
    ∃ r h', (do let field ← f v; allocCtorWithObjects tag [field] : HeapProc Ref) h =
        .returned r h' ∧ Held h' roots (r :: handles) ∧ Extends h h' ∧
        ∃ slot, h'.view r = some (.ctor tag [slot] []) ∧ E h' slot v := by
  obtain ⟨slot, h₁, run, held₁, kept₁, part⟩ := stores h roots handles v held
  obtain ⟨r, h₂, run', held₂, kept₂, seen⟩ :=
    place_stores (.ctor tag [slot] []) handles held₁
  refine ⟨r, h₂, ?_, held₂, kept₁.trans kept₂, slot, seen, frames.extends kept₂ part⟩
  rw [Procedure.bind_apply, run]
  exact run'

theorem storeOption_stores (stores : Stores E owns f) (frames : Frames E) :
    Stores (OptionEncoded E) (fun v : Option V => v.toList.flatMap owns) (storeOption f) := by
  intro h roots handles v held
  cases v with
  | none => exact ⟨.scalar 0, h, rfl, Held.scalar.mpr held, .refl h, rfl⟩
  | some v =>
    have held' : Held h roots (owns v ++ handles) := by simpa using held
    obtain ⟨r, h', run, held'', kept, encoded⟩ := storeField_stores stores frames 1 held'
    exact ⟨r, h', run, held'', kept, encoded⟩

theorem storeResult_stores (ok : Stores E owns f) (okFrames : Frames E) (err : Stores F owns' g)
    (errFrames : Frames F) :
    Stores (ResultEncoded E F) (resultHandles owns owns') (storeResult f g) := by
  intro h roots handles v held
  cases v with
  | error w =>
    obtain ⟨r, h', run, held', kept, encoded⟩ := storeField_stores err errFrames 0 held
    exact ⟨r, h', run, held', kept, encoded⟩
  | ok v =>
    obtain ⟨r, h', run, held', kept, encoded⟩ := storeField_stores ok okFrames 1 held
    exact ⟨r, h', run, held', kept, encoded⟩

theorem storePair_stores (first : Stores E owns f) (firstFrames : Frames E)
    (second : Stores F owns' g) (secondFrames : Frames F) :
    Stores (PairEncoded E F) (fun v : V × W => owns v.1 ++ owns' v.2) (storePair f g) := by
  intro h roots handles v held
  rw [List.append_assoc] at held
  obtain ⟨slot, h₁, run₁, held₁, kept₁, part₁⟩ := first h roots (owns' v.2 ++ handles) v.1 held
  obtain ⟨slot', h₂, run₂, held₂, kept₂, part₂⟩ :=
    second h₁ roots (slot :: handles) v.2 (held₁.perm List.perm_middle)
  obtain ⟨r, h₃, run₃, held₃, kept₃, seen⟩ :=
    place_stores (.ctor 0 [slot, slot'] []) handles
      (held₂.perm (List.Perm.swap ..))
  refine ⟨r, h₃, ?_, held₃, (kept₁.trans kept₂).trans kept₃, slot, slot', seen, ?_, ?_⟩
  · rw [storePair, Procedure.bind_apply, run₁, Outcome.andThen_returned, Procedure.bind_apply, run₂]
    exact run₃
  · exact firstFrames.extends (kept₂.trans kept₃) part₁
  · exact secondFrames.extends kept₃ part₂

/-- The array at `a` between two writes: its first slots are written, the others hold nothing. -/
structure Filling (E : LeanHeap → Ref → V → Prop) (h₀ : LeanHeap) (a : Nat) (left : Nat)
    (done : List V) (h : LeanHeap) : Prop where
  fresh : h₀.cell a = none
  kept : Extends h₀ h
  filled : ∃ slots, h.cell a =
      some ⟨1, .array (slots ++ List.replicate left (.scalar 0))⟩ ∧
    List.Forall₂ (E h) slots done

theorem Held.sole_owner {h : LeanHeap} {roots : Nat → Nat} {handles : List Ref} {a : Nat}
    {body : HeapObject} (held : Held h roots handles) (live : h.cell a = some ⟨1, body⟩)
    (mem : .addr a ∈ handles) :
    inRefs HeapObject.addresses h a = 0 ∧ handles.count (.addr a) = 1 := by
  have once : 0 < handles.count (.addr a) := List.count_pos_iff.mpr mem
  have counted := Consistent.counted held a _ live Int.one_ne_zero
  dsimp only at counted
  omega

theorem leanArraySetCore_fills (frames : Frames E) {h₀ h : LeanHeap} {roots : Nat → Nat}
    {handles : List Ref} {a left : Nat} {done : List V} {value : Ref} {v : V}
    (filling : Filling E h₀ a (left + 1) done h)
    (held : Held h roots (value :: .addr a :: handles)) (encoded : E h value v) :
    ∃ h', leanArraySetCore (.addr a) done.length value h = .returned () h' ∧
      Filling E h₀ a left (done ++ [v]) h' ∧ Held h' roots (.addr a :: handles) := by
  obtain ⟨fresh, kept, slots, live, parts⟩ := filling
  have same := parts.length_eq
  have mem : Ref.addr a ∈ value :: .addr a :: handles := by simp
  obtain ⟨unused, once⟩ := held.sole_owner live mem
  have written : (slots ++ List.replicate (left + 1) (Ref.scalar 0)).set done.length value =
      slots ++ [value] ++ List.replicate left (.scalar 0) := by
    rw [← same, List.set_append_right _ _ (Nat.le_refl _), Nat.sub_self, List.replicate_succ,
      List.set_cons_zero, List.append_assoc]
    rfl
  have run : leanArraySetCore (.addr a) done.length value h = .returned () (h.put a
      ⟨1, .array (slots ++ [value] ++ List.replicate left (.scalar 0))⟩) := by
    simp only [leanArraySetCore, live, HeapObject.array, written]
  have apart : value ≠ .addr a := by
    rintro rfl
    rw [List.count_cons_self, List.count_cons_self] at once
    omega
  have region := region_put
    (c := ⟨1, .array (slots ++ [value] ++ List.replicate left (.scalar 0))⟩) unused
  have parts' := frames.each region parts fun s mem =>
    slot_ne_unused unused live (List.mem_append_left _ mem)
  refine ⟨_, run, ⟨fresh, ?_, _, Heap.cell_put_same live, ?_⟩, ?_⟩
  · intro b c before
    have other : b ≠ a := by
      rintro rfl
      rw [fresh] at before
      cases before
    rw [Heap.cell_put_other other]
    exact kept b c before
  · exact List.rel_append parts' (.cons (frames _ _ _ _ _ region apart encoded) .nil)
  · apply Consistent.rewrite held live
    intro b
    rw [HeapObject.addresses, HeapObject.addresses, count_address, count_address]
    simp [HeapObject.array, View.slots, List.count_append, List.count_replicate, List.count_cons]
    omega

theorem Filling.extends (frames : Frames E) {h₀ h h' : LeanHeap} {a left : Nat} {done : List V}
    (filling : Filling E h₀ a left done h) (kept : Extends h h') : Filling E h₀ a left done h' := by
  obtain ⟨fresh, before, slots, live, parts⟩ := filling
  exact ⟨fresh, before.trans kept, slots, kept a _ live,
    frames.each (region_extends kept) parts fun _ _ => trivial⟩

theorem storeEach_fills (stores : Stores E owns f) (frames : Frames E) {h₀ : LeanHeap}
    {roots : Nat → Nat} {handles : List Ref} {a : Nat} (vs : List V) :
    ∀ (h : LeanHeap) (done : List V), Filling E h₀ a vs.length done h →
      Held h roots (vs.flatMap owns ++ .addr a :: handles) →
      ∃ h', storeEach f (.addr a) done.length vs h = .returned () h' ∧
        Filling E h₀ a 0 (done ++ vs) h' ∧ Held h' roots (.addr a :: handles) := by
  induction vs with
  | nil =>
    intro h done filling held
    exact ⟨h, rfl, by rwa [List.append_nil], held⟩
  | cons v vs ih =>
    intro h done filling held
    rw [List.flatMap_cons, List.append_assoc] at held
    obtain ⟨value, h₁, run₁, held₁, kept₁, encoded⟩ := stores h roots _ v held
    obtain ⟨h₂, run₂, filling₂, held₂⟩ := leanArraySetCore_fills frames
      (filling.extends frames kept₁) (held₁.perm (List.perm_middle.symm.cons value)) encoded
    have next : (done ++ [v]).length = done.length + 1 := List.length_append
    obtain ⟨h₃, run₃, filling₃, held₃⟩ :=
      ih h₂ (done ++ [v]) filling₂ (held₂.perm List.perm_middle)
    rw [next] at run₃
    rw [List.append_assoc] at filling₃
    refine ⟨h₃, ?_, filling₃, held₃⟩
    rw [storeEach, Procedure.bind_apply, run₁, Outcome.andThen_returned, Procedure.bind_apply, run₂]
    exact run₃

theorem Held.scalars {h : LeanHeap} {roots : Nat → Nat} {handles : List Ref}
    (held : Held h roots handles) (n payload : Nat) :
    Held h roots (List.replicate n (.scalar payload) ++ handles) := by
  induction n with
  | zero => exact held
  | succ n ih => exact Held.scalar.mpr ih

theorem storeVec_stores (stores : Stores E owns f) (frames : Frames E) :
    Stores (VecEncoded E) (fun vs : List V => vs.flatMap owns) (storeVec f) := by
  intro h roots handles vs held
  have empty := held.scalars vs.length 0
  have filling : Filling E h h.length vs.length []
      (h.alloc (.array (List.replicate vs.length (.scalar 0)))) :=
    ⟨Heap.cell_length, .alloc h _, [], Heap.cell_alloc_new _, .nil⟩
  have allocated : Held (h.alloc (.array (List.replicate vs.length (.scalar 0)))) roots
      (.addr h.length :: (vs.flatMap owns ++ handles)) := Held.alloc empty
  obtain ⟨h', run, ⟨-, kept, slots, live, parts⟩, held'⟩ :=
    storeEach_fills stores frames vs _ [] filling (allocated.perm List.perm_middle)
  refine ⟨.addr h.length, h', ?_, held', kept, slots, ?_, parts⟩
  · rw [storeVec, Procedure.bind_apply, View.place, allocObject, Outcome.andThen_returned,
      Procedure.bind_apply]
    rw [List.length_nil] at run
    rw [run]
    rfl
  · rw [LeanHeap.view, live, Option.map_some, List.replicate_zero, List.append_nil]
    rfl

end Encoders

theorem RustType.store_stores :
    (type : RustType) → Stores type.Encoded type.handles type.store
  | base type => storeBase_stores type
  | option inner => storeOption_stores inner.store_stores inner.encoded_frames
  | result ok err => storeResult_stores ok.store_stores ok.encoded_frames err.store_stores
      err.encoded_frames
  | vec element => storeVec_stores element.store_stores element.encoded_frames
  | pair first second => storePair_stores first.store_stores first.encoded_frames
      second.store_stores second.encoded_frames
  | triple first second third => storePair_stores first.store_stores first.encoded_frames
      (storePair_stores second.store_stores second.encoded_frames third.store_stores
        third.encoded_frames)
      (PairEncoded.frames second.encoded_frames third.encoded_frames)
  | obj => fun h _ _ v held => ⟨v, h, rfl, held, .refl h, rfl⟩

end LeanRs
