import LeanRs.Abi.Heap

/-! `into_lean` and `try_from_lean` with the counts they change. A handle that the Rust code owns
is dropped where the source drops it: at the end of the decoder, or before a field is decoded. -/
namespace LeanRs

open Procedures RefCounting

def resultHandles {V W : Type} (f : V → List Ref) (g : W → List Ref) : Except W V → List Ref
  | .ok v => f v
  | .error w => g w

def RustType.handles : (type : RustType) → type.Value Ref → List Ref
  | base _, _ => []
  | option inner, v => v.toList.flatMap inner.handles
  | result ok err, v => resultHandles ok.handles err.handles v
  | vec element, v => v.flatMap element.handles
  | pair first second, v => first.handles v.1 ++ second.handles v.2
  | triple first second third, v =>
    first.handles v.1 ++ (second.handles v.2.1 ++ third.handles v.2.2)
  | obj, v => [v]

def RustType.ownsNothing : RustType → Bool
  | base _ => true
  | option inner => inner.ownsNothing
  | result ok err => ok.ownsNothing && err.ownsNothing
  | vec element => element.ownsNothing
  | pair first second => first.ownsNothing && second.ownsNothing
  | triple first second third =>
    first.ownsNothing && (second.ownsNothing && third.ownsNothing)
  | obj => false

/-- The object of a base value, the same whether on the heap or not. -/
def BaseType.encode {A : Type} : (type : BaseType) → type.Value → View A
  | unit, _ => .scalar 0
  | bool, b => .scalar b.toNat
  | u8, n => .scalar n.toNat
  | u16, n => .scalar n.toNat
  | u32, n => .scalar n.toNat
  | i8, n => .scalar n.toUInt8.toNat
  | i16, n => .scalar n.toUInt16.toNat
  | i32, n => .scalar n.toUInt32.toNat
  | u64, n => .ctor 0 [] (LittleEndian.toBytes 8 n.toNat)
  | usize, n => .ctor 0 [] (LittleEndian.toBytes 8 n.toNat)
  | i64, n => .ctor 0 [] (LittleEndian.toBytes 8 n.toUInt64.toNat)
  | isize, n => .ctor 0 [] (LittleEndian.toBytes 8 n.toUInt64.toNat)
  | char, ch => .scalar ch.toNat
  | f64, bits => .ctor 0 [] (LittleEndian.toBytes 8 bits.toNat)
  | string, text => .string text.toByteArray

theorem BaseType.view_intoLeanObj (type : BaseType) (v : type.Value) :
    (type.intoLeanObj v).view = type.encode v := by
  cases type <;> rfl

def allocObject (object : HeapObject) : HeapProc Ref := fun h =>
  .returned (.addr h.length) (h.alloc object)

def View.place : View Ref → HeapProc Ref
  | .scalar payload => pure (.scalar payload)
  | .ctor tag fields scalars => allocObject ⟨.ctor tag fields scalars, rfl⟩
  | .string bytes => allocObject ⟨.string bytes, rfl⟩
  | .array elements => allocObject (.array elements)
  | .sarray elemSize bytes => allocObject ⟨.sarray elemSize bytes, rfl⟩
  | .other kind children => allocObject ⟨.other kind children, rfl⟩

def allocCtorWithObjects (tag : Nat) (objects : List Ref) : HeapProc Ref :=
  View.place (.ctor tag objects [])

/-- `lean_array_set_core`: what was in the slot is overwritten and not released. -/
def leanArraySetCore (array : Ref) (i : Nat) (value : Ref) : HeapProc Unit := fun h =>
  match array with
  | .scalar _ => .raised .dangling h
  | .addr a =>
    match h.cell a with
    | none => .raised .dangling h
    | some c =>
      match c.body.view with
      | .array elements => .returned () (h.put a ⟨c.rc, .array (elements.set i value)⟩)
      | _ => .raised .dangling h

section Encoders

variable {V W : Type} (f : V → HeapProc Ref) (g : W → HeapProc Ref)

def storeOption : Option V → HeapProc Ref
  | none => pure (.scalar 0)
  | some v => do
    let field ← f v
    allocCtorWithObjects 1 [field]

def storeResult : Except W V → HeapProc Ref
  | .error w => do
    let field ← g w
    allocCtorWithObjects 0 [field]
  | .ok v => do
    let field ← f v
    allocCtorWithObjects 1 [field]

def storeEach (array : Ref) : Nat → List V → HeapProc Unit
  | _, [] => pure ()
  | i, v :: rest => do
    let element ← f v
    leanArraySetCore array i element
    storeEach array (i + 1) rest

/-- `from_iter_exact`. A slot not yet written holds no reference. -/
def storeVec (vs : List V) : HeapProc Ref := do
  let array ← View.place (.array (List.replicate vs.length (.scalar 0)))
  storeEach f array 0 vs
  pure array

def storePair (v : V × W) : HeapProc Ref := do
  let first ← f v.1
  let second ← g v.2
  allocCtorWithObjects 0 [first, second]

end Encoders

def RustType.store : (type : RustType) → type.Value Ref → HeapProc Ref
  | base type => fun v => (type.encode v).place
  | option inner => storeOption inner.store
  | result ok err => storeResult ok.store err.store
  | vec element => storeVec element.store
  | pair first second => storePair first.store second.store
  | triple first second third => storePair first.store (storePair second.store third.store)
  | obj => fun v => pure v

/-- What the decoders get from outside the repository: the cold path of Lean's runtime, the bytes
past the end of an object, and an address as a number. -/
structure Runtime where
  decRefCold : Nat → LeanHeap → Option LeanHeap
  stray : LeanHeap → Ref → (type : BaseType) → type.Value
  bits : Ref → UInt64

def lookAt (r : Ref) : HeapProc (View Ref) := fun h =>
  match h.view r with
  | none => .raised .dangling h
  | some view => .returned view h

def leanIncs : List Ref → HeapProc Unit
  | [] => pure ()
  | r :: rest => do
    leanInc r
    leanIncs rest

section Decoders

variable (rt : Runtime)

/-- The early return of `?`: the handles still owned are dropped on the way out. -/
def failWith {V : Type} (owned : List Ref) (failure : HostFailure) : HeapProc V := do
  leanDecs rt.decRefCold owned
  Procedure.raise (.conversion failure)

def orDrop {V : Type} (owned : List Ref) (m : HeapProc V) : HeapProc V := do
  match ← Procedure.capture m with
  | .ok v => pure v
  | .error (.conversion failure) => failWith rt owned failure
  | .error .dangling => Procedure.raise .dangling

/-- `take_ctor_objects` past its checks: each field gets a handle, and the parent is dropped. -/
def takeCtorObjects (fields : List Ref) (parent : Ref) : HeapProc Unit := do
  leanIncs fields
  leanDec rt.decRefCold parent

def strayValue (r : Ref) (type : BaseType) : HeapProc type.Value := do
  let h ← Procedure.read
  pure (rt.stray h r type)

def loadBase (type : BaseType) (r : Ref) : HeapProc type.Value := do
  let view ← lookAt r
  match type.read rt.bits view with
  | .error (.conversion failure) => failWith rt [r] failure
  | .error .outOfBounds => do
    let v ← strayValue rt r type
    leanDec rt.decRefCold r
    pure v
  | .ok v => do
    leanDec rt.decRefCold r
    pure v

variable {V W : Type} (f : Ref → HeapProc V) (g : Ref → HeapProc W) (owns : V → List Ref)

def loadOption (r : Ref) : HeapProc (Option V) := do
  let view ← lookAt r
  match optionSlot view with
  | .error failure => failWith rt [r] failure
  | .ok none => do
    leanDec rt.decRefCold r
    pure none
  | .ok (some slot) => do
    takeCtorObjects rt [slot] r
    let v ← f slot
    pure (some v)

def loadResult (r : Ref) : HeapProc (Except W V) := do
  let view ← lookAt r
  match exceptSlot view with
  | .error failure => failWith rt [r] failure
  | .ok (.error slot) => do
    takeCtorObjects rt [slot] r
    let w ← g slot
    pure (.error w)
  | .ok (.ok slot) => do
    takeCtorObjects rt [slot] r
    let v ← f slot
    pure (.ok v)

/-- The loop over the elements. `out` is dropped before the array. -/
def loadEach (array : Ref) : List Ref → List V → HeapProc (List V)
  | [], out => pure out
  | slot :: rest, out => do
    leanInc slot
    let v ← orDrop rt (out.flatMap owns ++ [array]) (f slot)
    loadEach array rest (out ++ [v])

def loadVec (r : Ref) : HeapProc (List V) := do
  let view ← lookAt r
  match arraySlots view with
  | .error failure => failWith rt [r] failure
  | .ok slots => do
    let vs ← loadEach rt f owns r slots []
    leanDec rt.decRefCold r
    pure vs

def loadPair (r : Ref) : HeapProc (V × W) := do
  let view ← lookAt r
  match pairSlots view with
  | .error failure => failWith rt [r] failure
  | .ok (first, second) => do
    takeCtorObjects rt [first, second] r
    let v ← orDrop rt [second] (f first)
    let w ← orDrop rt (owns v) (g second)
    pure (v, w)

end Decoders

def RustType.load (rt : Runtime) : (type : RustType) → Ref → HeapProc (type.Value Ref)
  | base type => loadBase rt type
  | option inner => loadOption rt (inner.load rt)
  | result ok err => loadResult rt (ok.load rt) (err.load rt)
  | vec element => loadVec rt (element.load rt) element.handles
  | pair first second => loadPair rt (first.load rt) (second.load rt) first.handles
  | triple first second third => loadPair rt (first.load rt)
      (loadPair rt (second.load rt) (third.load rt) second.handles) first.handles
  | obj => fun r => pure r

end LeanRs
