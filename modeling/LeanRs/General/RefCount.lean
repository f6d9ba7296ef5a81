import Mathlib.Data.List.Basic
import Mathlib.Algebra.BigOperators.Group.List.Basic
import Mathlib.Algebra.Order.Ring.Int

/-! Heaps of counted cells. The sign of a count says how the cell is kept, and a count of zero that
it is not counted at all. What a cell holds is left open, up to the addresses it refers to. -/
namespace RefCounting

structure Cell (B : Type) where
  rc : Int
  body : B

/-- The address of a cell is its index. A freed cell leaves a gap. -/
abbrev Heap (B : Type) := List (Option (Cell B))

namespace Heap

variable {B : Type} {h : Heap B} {a b : Nat} {c d : Cell B}

def cell (h : Heap B) (a : Nat) : Option (Cell B) := (h[a]?).join

def put (h : Heap B) (a : Nat) (c : Cell B) : Heap B := h.set a (some c)

def free (h : Heap B) (a : Nat) : Heap B := h.set a none

def alloc (h : Heap B) (body : B) : Heap B := h ++ [some ⟨1, body⟩]

def liveCells (h : Heap B) : Nat := h.countP Option.isSome

theorem getElem?_of_cell (live : h.cell a = some c) : h[a]? = some (some c) := by
  unfold cell at live
  cases slot : h[a]? with
  | none => rw [slot] at live; cases live
  | some o =>
    rw [slot] at live
    exact congrArg some live

theorem lt_length_of_cell (live : h.cell a = some c) : a < h.length :=
  (List.getElem?_eq_some_iff.mp (getElem?_of_cell live)).1

theorem cell_length : h.cell h.length = none := by simp [cell]

theorem cell_put_same (live : h.cell a = some c) : (h.put a d).cell a = some d := by
  have bound := lt_length_of_cell live
  simp [cell, put, bound]

theorem cell_put_other (other : b ≠ a) : (h.put a d).cell b = h.cell b := by
  simp [cell, put, List.getElem?_set_ne (Ne.symm other)]

theorem cell_free_same : (h.free a).cell a = none := by
  by_cases bound : a < h.length <;> simp [cell, free, bound]

theorem cell_free_other (other : b ≠ a) : (h.free a).cell b = h.cell b := by
  simp [cell, free, List.getElem?_set_ne (Ne.symm other)]

theorem cell_alloc_new (body : B) : (h.alloc body).cell h.length = some ⟨1, body⟩ := by
  simp [cell, alloc]

theorem cell_alloc_other (body : B) (other : a ≠ h.length) :
    (h.alloc body).cell a = h.cell a := by
  rcases Nat.lt_or_gt_of_ne other with inside | outside
  · simp [cell, alloc, List.getElem?_append_left inside]
  · have past : (h.alloc body).length ≤ a := by
      rw [alloc, List.length_append]
      exact outside
    rw [cell, cell, List.getElem?_eq_none past, List.getElem?_eq_none (Nat.le_of_lt outside)]

theorem cell_alloc_old (body : B) (live : h.cell a = some c) :
    (h.alloc body).cell a = some c := by
  rw [cell_alloc_other body (Nat.ne_of_lt (lt_length_of_cell live)), live]

theorem liveCells_put (live : h.cell a = some c) : (h.put a d).liveCells = h.liveCells := by
  obtain ⟨bound, slot⟩ := List.getElem?_eq_some_iff.mp (getElem?_of_cell live)
  unfold liveCells put
  rw [List.countP_set bound, slot]
  have counted : 0 < h.countP Option.isSome :=
    List.countP_pos_iff.mpr ⟨h[a], List.getElem_mem bound, by rw [slot]; rfl⟩
  simp
  omega

theorem liveCells_free (live : h.cell a = some c) : (h.free a).liveCells + 1 = h.liveCells := by
  obtain ⟨bound, slot⟩ := List.getElem?_eq_some_iff.mp (getElem?_of_cell live)
  unfold liveCells free
  rw [List.countP_set bound, slot]
  have counted : 0 < h.countP Option.isSome :=
    List.countP_pos_iff.mpr ⟨h[a], List.getElem_mem bound, by rw [slot]; rfl⟩
  simp
  omega

end Heap

section References

variable {B : Type} (refs : B → List Nat)

def cellRefs (a : Nat) : Option (Cell B) → Nat
  | none => 0
  | some c => (refs c.body).count a

/-- How many times the cells of the heap refer to an address. -/
def inRefs (h : Heap B) (a : Nat) : Nat := (h.map (cellRefs refs a)).sum

theorem sum_map_set {A : Type} (f : A → Nat) (y : A) :
    ∀ {l : List A} {i : Nat} {x : A}, l[i]? = some x →
      ((l.set i y).map f).sum + f x = (l.map f).sum + f y := by
  intro l
  induction l with
  | nil => intro i x at_i; cases at_i
  | cons z l ih =>
    intro i x at_i
    cases i with
    | zero =>
      cases at_i
      simp only [List.set_cons_zero, List.map_cons, List.sum_cons]
      omega
    | succ i =>
      have rest := ih (i := i) (x := x) (by simpa using at_i)
      simp only [List.set_cons_succ, List.map_cons, List.sum_cons]
      omega

variable {h h' : Heap B} {a b : Nat} {c d : Cell B}

theorem inRefs_put (live : h.cell a = some c) :
    inRefs refs (h.put a d) b + (refs c.body).count b =
      inRefs refs h b + (refs d.body).count b :=
  sum_map_set (cellRefs refs b) (some d) (Heap.getElem?_of_cell live)

theorem inRefs_free (live : h.cell a = some c) :
    inRefs refs (h.free a) b + (refs c.body).count b = inRefs refs h b :=
  sum_map_set (cellRefs refs b) none (Heap.getElem?_of_cell live)

theorem inRefs_alloc (body : B) :
    inRefs refs (h.alloc body) b = inRefs refs h b + (refs body).count b := by
  simp [inRefs, Heap.alloc, cellRefs]

theorem count_le_inRefs (live : h.cell a = some c) : (refs c.body).count b ≤ inRefs refs h b := by
  have split := inRefs_free refs (b := b) live
  omega

theorem inRefs_nil : inRefs (fun _ : B => []) h a = 0 := by
  induction h with
  | nil => rfl
  | cons slot rest ih =>
    unfold inRefs at ih ⊢
    rw [List.map_cons, List.sum_cons, ih]
    cases slot <;> rfl

/-- `owned` counts the references from outside the heap. -/
structure Consistent (h : Heap B) (owned : Nat → Nat) : Prop where
  counted : ∀ a c, h.cell a = some c → c.rc ≠ 0 → c.rc.natAbs = inRefs refs h a + owned a
  dead : ∀ a, h.cell a = none → inRefs refs h a + owned a = 0

namespace Consistent

variable {refs} {owned owned' : Nat → Nat}

theorem alive (held : Consistent refs h owned) (used : 0 < inRefs refs h a + owned a) :
    ∃ c, h.cell a = some c := by
  cases live : h.cell a with
  | some c => exact ⟨c, rfl⟩
  | none =>
    have unused := held.dead a live
    omega

theorem child_alive (held : Consistent refs h owned) (live : h.cell a = some c)
    (child : b ∈ refs c.body) : ∃ d, h.cell b = some d := by
  have once : 0 < (refs c.body).count b := List.count_pos_iff.mpr child
  have below := count_le_inRefs refs (b := b) live
  exact held.alive (by omega)

theorem of_eq (held : Consistent refs h owned) (same : ∀ b, owned' b = owned b) :
    Consistent refs h owned' := by
  have equal : owned' = owned := funext same
  exact equal ▸ held

theorem recount {n : Int} (held : Consistent refs h owned) (live : h.cell a = some c)
    (counts : c.rc ≠ 0) (right : n.natAbs + owned a = c.rc.natAbs + owned' a)
    (others : ∀ b, b ≠ a → owned' b = owned b) :
    Consistent refs (h.put a ⟨n, c.body⟩) owned' := by
  have same : ∀ b, inRefs refs (h.put a ⟨n, c.body⟩) b = inRefs refs h b := by
    intro b
    have moved := inRefs_put refs (b := b) (d := ⟨n, c.body⟩) live
    dsimp only at moved
    omega
  have before := held.counted a c live counts
  constructor
  · intro b d at_b _
    rw [same b]
    by_cases here : b = a
    · subst here
      rw [Heap.cell_put_same live] at at_b
      cases at_b
      dsimp only
      omega
    · rw [Heap.cell_put_other here] at at_b
      rw [others b here]
      exact held.counted b d at_b ‹_›
  · intro b at_b
    rw [same b]
    by_cases here : b = a
    · subst here
      rw [Heap.cell_put_same live] at at_b
      cases at_b
    · rw [Heap.cell_put_other here] at at_b
      rw [others b here]
      exact held.dead b at_b

theorem uncounted (held : Consistent refs h owned) (live : h.cell a = some c) (zero : c.rc = 0)
    (others : ∀ b, b ≠ a → owned' b = owned b) : Consistent refs h owned' := by
  constructor
  · intro b d at_b counts
    have here : b ≠ a := by
      rintro rfl
      rw [live] at at_b
      cases at_b
      exact counts zero
    rw [others b here]
    exact held.counted b d at_b counts
  · intro b at_b
    have here : b ≠ a := by
      rintro rfl
      rw [live] at at_b
      cases at_b
    rw [others b here]
    exact held.dead b at_b

theorem free (held : Consistent refs h owned) (live : h.cell a = some c) (last : c.rc.natAbs = 1)
    (owner : 0 < owned a)
    (moved : ∀ b, owned' b + (if b = a then 1 else 0) = owned b + (refs c.body).count b) :
    Consistent refs (h.free a) owned' := by
  have before := held.counted a c live (by omega)
  constructor
  · intro b d at_b counts
    have here : b ≠ a := by
      rintro rfl
      rw [Heap.cell_free_same] at at_b
      cases at_b
    rw [Heap.cell_free_other here] at at_b
    have counted := held.counted b d at_b counts
    have split := inRefs_free refs (b := b) live
    have shift := moved b
    rw [if_neg here] at shift
    omega
  · intro b at_b
    have split := inRefs_free refs (b := b) live
    have shift := moved b
    by_cases here : b = a
    · subst here
      rw [if_pos rfl] at shift
      omega
    · rw [Heap.cell_free_other here] at at_b
      have unused := held.dead b at_b
      rw [if_neg here] at shift
      omega

theorem alloc (held : Consistent refs h owned) (body : B)
    (moved : ∀ b, owned' b + (refs body).count b = owned b + (if b = h.length then 1 else 0)) :
    Consistent refs (h.alloc body) owned' := by
  constructor
  · intro b d at_b counts
    have shift := moved b
    rw [inRefs_alloc]
    by_cases here : b = h.length
    · subst here
      rw [Heap.cell_alloc_new] at at_b
      cases at_b
      have unused := held.dead h.length Heap.cell_length
      rw [if_pos rfl] at shift
      dsimp only
      omega
    · rw [Heap.cell_alloc_other body here] at at_b
      have counted := held.counted b d at_b counts
      rw [if_neg here] at shift
      omega
  · intro b at_b
    have shift := moved b
    have here : b ≠ h.length := by
      rintro rfl
      rw [Heap.cell_alloc_new] at at_b
      cases at_b
    rw [Heap.cell_alloc_other body here] at at_b
    have unused := held.dead b at_b
    rw [inRefs_alloc]
    rw [if_neg here] at shift
    omega

theorem rewrite {body : B} (held : Consistent refs h owned) (live : h.cell a = some c)
    (moved : ∀ b, owned' b + (refs body).count b = owned b + (refs c.body).count b) :
    Consistent refs (h.put a ⟨c.rc, body⟩) owned' := by
  constructor
  · intro b d at_b counts
    have split := inRefs_put refs (b := b) (d := ⟨c.rc, body⟩) live
    have shift := moved b
    dsimp only at split
    by_cases here : b = a
    · subst here
      rw [Heap.cell_put_same live] at at_b
      cases at_b
      have counted := held.counted b c live counts
      dsimp only
      omega
    · rw [Heap.cell_put_other here] at at_b
      have counted := held.counted b d at_b counts
      omega
  · intro b at_b
    have split := inRefs_put refs (b := b) (d := ⟨c.rc, body⟩) live
    have shift := moved b
    dsimp only at split
    by_cases here : b = a
    · subst here
      rw [Heap.cell_put_same live] at at_b
      cases at_b
    · rw [Heap.cell_put_other here] at at_b
      have unused := held.dead b at_b
      omega

end Consistent

end References

/-- Cells may go and counts may change. A cell that stays keeps its body and the way it is kept. -/
def Shrinks {B : Type} (h h' : Heap B) : Prop :=
  ∀ a c', h'.cell a = some c' → ∃ c, h.cell a = some c ∧ c'.body = c.body ∧ c'.rc.sign = c.rc.sign

def Extends {B : Type} (h h' : Heap B) : Prop :=
  ∀ a c, h.cell a = some c → h'.cell a = some c

section Frames

variable {B : Type} {h h' h'' : Heap B} {a : Nat} {c : Cell B}

theorem Shrinks.refl (h : Heap B) : Shrinks h h := fun _ c live => ⟨c, live, rfl, rfl⟩

theorem Shrinks.trans (first : Shrinks h h') (second : Shrinks h' h'') : Shrinks h h'' := by
  intro a c live
  obtain ⟨d, live', body, sign⟩ := second a c live
  obtain ⟨e, live'', body', sign'⟩ := first a d live'
  exact ⟨e, live'', body.trans body', sign.trans sign'⟩

theorem Shrinks.recount {n : Int} (live : h.cell a = some c) (sign : n.sign = c.rc.sign) :
    Shrinks h (h.put a ⟨n, c.body⟩) := by
  intro b d at_b
  by_cases here : b = a
  · subst here
    rw [Heap.cell_put_same live] at at_b
    cases at_b
    exact ⟨c, live, rfl, sign⟩
  · rw [Heap.cell_put_other here] at at_b
    exact ⟨d, at_b, rfl, rfl⟩

theorem Shrinks.free (h : Heap B) (a : Nat) : Shrinks h (h.free a) := by
  intro b d at_b
  by_cases here : b = a
  · subst here
    rw [Heap.cell_free_same] at at_b
    cases at_b
  · rw [Heap.cell_free_other here] at at_b
    exact ⟨d, at_b, rfl, rfl⟩

theorem Extends.refl (h : Heap B) : Extends h h := fun _ _ live => live

theorem Extends.trans (first : Extends h h') (second : Extends h' h'') : Extends h h'' :=
  fun a c live => second a c (first a c live)

theorem Extends.alloc (h : Heap B) (body : B) : Extends h (h.alloc body) :=
  fun _ _ live => Heap.cell_alloc_old body live

end Frames

/-- The cells of the first heap that the second no longer has. -/
def gone {B : Type} : Heap B → Heap B → Heap B
  | [], _ => []
  | h, [] => h
  | slot :: h, slot' :: h' => (if slot'.isSome then none else slot) :: gone h h'

section Gone

variable {B : Type} {h h' : Heap B}

@[simp] theorem Heap.cell_cons_zero (slot : Option (Cell B)) (h : Heap B) :
    Heap.cell (slot :: h) 0 = slot := rfl

@[simp] theorem Heap.cell_cons_succ (slot : Option (Cell B)) (h : Heap B) (a : Nat) :
    Heap.cell (slot :: h) (a + 1) = h.cell a := rfl

theorem Shrinks.tail {slot slot' : Option (Cell B)} (shrinks : Shrinks (slot :: h) (slot' :: h')) :
    Shrinks h h' := fun a c' live => shrinks (a + 1) c' live

theorem inRefs_gone (refs : B → List Nat) (shrinks : Shrinks h h') (b : Nat) :
    inRefs refs h b = inRefs refs h' b + inRefs refs (gone h h') b := by
  induction h generalizing h' with
  | nil =>
    have empty : inRefs refs h' b = 0 := by
      apply List.sum_eq_zero
      intro n mem
      obtain ⟨slot, inside, rfl⟩ := List.mem_map.mp mem
      cases slot with
      | none => rfl
      | some c' =>
        obtain ⟨a, bound, at_a⟩ := List.getElem_of_mem inside
        have live : h'.cell a = some c' := by
          rw [Heap.cell, List.getElem?_eq_getElem bound, at_a]
          rfl
        obtain ⟨c, absent, -⟩ := shrinks a c' live
        cases absent
    rw [empty]
    rfl
  | cons slot h ih =>
    cases h' with
    | nil => exact (Nat.zero_add _).symm
    | cons slot' h' =>
      have rest := ih shrinks.tail
      unfold inRefs at rest ⊢
      simp only [gone, List.map_cons, List.sum_cons]
      cases slot' with
      | none =>
        simp only [Option.isSome_none, cellRefs]
        simp
        omega
      | some c' =>
        obtain ⟨c, live, body, -⟩ := shrinks 0 c' rfl
        rw [Heap.cell_cons_zero] at live
        subst live
        simp only [Option.isSome_some, if_true, cellRefs, body]
        omega

end Gone

end RefCounting
