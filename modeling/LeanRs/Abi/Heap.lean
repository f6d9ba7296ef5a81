import LeanRs.Abi.Decode
import LeanRs.General.Procedure
import LeanRs.General.RefCount

/-! Lean objects as counted cells, and what the runtime crate does to their counts. -/
namespace LeanRs

open Procedures RefCounting

/-- A pointer: a scalar in its own bits, or the address of an object. -/
inductive Ref where
  | scalar (payload : Nat)
  | addr (a : Nat)
  deriving DecidableEq

def Ref.address? : Ref → Option Nat
  | scalar _ => none
  | addr a => some a

namespace View

variable {A : Type}

def isScalar : View A → Bool
  | scalar _ => true
  | _ => false

/-- The pointers an object holds, each with one reference. -/
def slots : View A → List A
  | ctor _ fields _ => fields
  | array elements => elements
  | other _ children => children
  | scalar _ | string _ | sarray _ _ => []

end View

structure HeapObject where
  view : View Ref
  onHeap : view.isScalar = false

def HeapObject.array (elements : List Ref) : HeapObject := ⟨.array elements, rfl⟩

def HeapObject.addresses (object : HeapObject) : List Nat :=
  object.view.slots.filterMap Ref.address?

abbrev LeanHeap := Heap HeapObject

def LeanHeap.view (h : LeanHeap) : Ref → Option (View Ref)
  | .scalar payload => some (.scalar payload)
  | .addr a => (h.cell a).map (·.body.view)

inductive HeapError where
  | dangling
  | conversion (failure : HostFailure)
  deriving DecidableEq

abbrev HeapProc (V : Type) := Procedure LeanHeap HeapError V

def maxCount : Int := 2 ^ 31 - 1

/-- `lean_inc_ref`. A count that leaves the 32 bits is the caller's breach: the first branch panics
there and the second wraps, and here the run stops. -/
def leanIncRef (a : Nat) : HeapProc Unit := fun h =>
  match h.cell a with
  | none => .raised .dangling h
  | some c =>
    if 0 < c.rc then
      if c.rc < maxCount then .returned () (h.put a ⟨c.rc + 1, c.body⟩) else .waiting h
    else if c.rc ≠ 0 then
      if -maxCount - 1 < c.rc then .returned () (h.put a ⟨c.rc - 1, c.body⟩) else .waiting h
    else .returned () h

def leanInc : Ref → HeapProc Unit
  | .scalar _ => pure ()
  | .addr a => leanIncRef a

section Cold

-- `lean_dec_ref_cold`, which is part of Lean's own runtime
variable (cold : Nat → LeanHeap → Option LeanHeap)

/-- `lean_dec_ref`. Nothing comes of an address with no object. -/
def leanDecRef (a : Nat) (h : LeanHeap) : Option LeanHeap :=
  match h.cell a with
  | none => none
  | some c =>
    if 1 < c.rc then some (h.put a ⟨c.rc - 1, c.body⟩)
    else if c.rc ≠ 0 then cold a h
    else some h

def leanDecRefs : List Nat → LeanHeap → Option LeanHeap
  | [], h => some h
  | a :: rest, h => (leanDecRef cold a h).bind (leanDecRefs rest)

/-- The cold path counts a shared object down, and frees one that has lost its last owner along
with the references in its slots. -/
structure FreesAtZero : Prop where
  counted : ∀ h a c, h.cell a = some c → c.rc < -1 → cold a h = some (h.put a ⟨c.rc + 1, c.body⟩)
  freed : ∀ h a c, h.cell a = some c → c.rc.natAbs = 1 →
    cold a h = leanDecRefs cold c.body.addresses (h.free a)

def leanDec : Ref → HeapProc Unit
  | .scalar _ => pure ()
  | .addr a => fun h =>
    match leanDecRef cold a h with
    | none => .raised .dangling h
    | some h' => .returned () h'

def leanDecs : List Ref → HeapProc Unit
  | [] => pure ()
  | r :: rest => do
    leanDec cold r
    leanDecs rest

end Cold

def releaseAll : LeanHeap → List Nat → Option LeanHeap
  | h, [] => some h
  | h, a :: rest =>
    match _ : h.cell a with
    | none => none
    | some c =>
      if 1 < c.rc then releaseAll (h.put a ⟨c.rc - 1, c.body⟩) rest
      else if c.rc < -1 then releaseAll (h.put a ⟨c.rc + 1, c.body⟩) rest
      else if c.rc = 0 then releaseAll h rest
      else releaseAll (h.free a) (c.body.addresses ++ rest)
termination_by h todo => (h.liveCells, todo.length)
decreasing_by
  · rename_i live _
    rw [Heap.liveCells_put live]
    exact Prod.Lex.right _ (Nat.lt_succ_self _)
  · rename_i live _ _
    rw [Heap.liveCells_put live]
    exact Prod.Lex.right _ (Nat.lt_succ_self _)
  · exact Prod.Lex.right _ (Nat.lt_succ_self _)
  · rename_i live _ _ _
    have fewer := Heap.liveCells_free live
    exact Prod.Lex.left _ _ (by omega)

def releaseCold (a : Nat) (h : LeanHeap) : Option LeanHeap :=
  match h.cell a with
  | none => none
  | some c =>
    if c.rc < -1 then some (h.put a ⟨c.rc + 1, c.body⟩)
    else releaseAll (h.free a) c.body.addresses

theorem leanDecRefs_append (cold : Nat → LeanHeap → Option LeanHeap) (xs ys : List Nat)
    (h : LeanHeap) :
    leanDecRefs cold (xs ++ ys) h = (leanDecRefs cold xs h).bind (leanDecRefs cold ys) := by
  induction xs generalizing h with
  | nil => rfl
  | cons a xs ih =>
    rw [List.cons_append, leanDecRefs, leanDecRefs, Option.bind_assoc]
    congr 1
    funext h'
    exact ih h'

/-- Freeing object by object ends where the list does: induction on the live cells, and then on
what is still to release. -/
theorem leanDecRefs_eq_releaseAll (n : Nat) : ∀ h : LeanHeap, h.liveCells ≤ n → ∀ todo,
    leanDecRefs releaseCold todo h = releaseAll h todo := by
  induction n with
  | zero =>
    intro h small todo
    cases todo with
    | nil => rw [releaseAll, leanDecRefs]
    | cons a rest =>
      rw [releaseAll, leanDecRefs, leanDecRef]
      cases live : h.cell a with
      | none => rfl
      | some c =>
        have fewer := Heap.liveCells_free live
        omega
  | succ n smaller =>
    intro h small todo
    induction todo generalizing h with
    | nil => rw [releaseAll, leanDecRefs]
    | cons a rest ih =>
      rw [releaseAll, leanDecRefs, leanDecRef]
      cases live : h.cell a with
      | none => rfl
      | some c =>
        have put : ∀ d, (h.put a d).liveCells ≤ n + 1 := by
          intro d
          rw [Heap.liveCells_put live]
          exact small
        have fewer := Heap.liveCells_free live
        dsimp only
        by_cases shared : 1 < c.rc
        · rw [if_pos shared, if_pos shared]
          exact ih _ (put _)
        · rw [if_neg shared, if_neg shared]
          by_cases many : c.rc < -1
          · have counts : c.rc ≠ 0 := by omega
            rw [if_pos counts, if_pos many, releaseCold, live]
            dsimp only
            rw [if_pos many]
            exact ih _ (put _)
          · rw [if_neg many]
            by_cases zero : c.rc = 0
            · have uncounted : ¬ c.rc ≠ 0 := fun counts => counts zero
              rw [if_neg uncounted, if_pos zero]
              exact ih _ small
            · rw [if_pos zero, if_neg zero, releaseCold, live]
              dsimp only
              rw [if_neg many, ← smaller _ (by omega), ← smaller _ (by omega),
                leanDecRefs_append]

theorem releaseCold_frees : FreesAtZero releaseCold := by
  constructor
  · intro h a c live many
    rw [releaseCold, live]
    exact if_pos many
  · intro h a c live last
    have few : ¬ c.rc < -1 := by omega
    rw [releaseCold, live]
    dsimp only
    rw [if_neg few]
    exact (leanDecRefs_eq_releaseAll _ _ (Nat.le_refl _) _).symm

end LeanRs
