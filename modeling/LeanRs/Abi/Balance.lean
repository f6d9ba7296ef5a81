import LeanRs.Abi.HeapDecode

/-! Decoding keeps every count equal to the number of references: the handle that is consumed goes,
those inside the result come, whether the decoder returns or fails. -/
namespace LeanRs

open Procedures RefCounting

/-- Every count is right when the Rust code owns the handles and the rest of the program `roots`. -/
def Held (h : LeanHeap) (roots : Nat → Nat) (handles : List Ref) : Prop :=
  Consistent HeapObject.addresses h fun a => roots a + handles.count (.addr a)

def Alive (h : LeanHeap) : Ref → Prop
  | .scalar _ => True
  | .addr a => ∃ c, h.cell a = some c

def AtLimit (h : LeanHeap) : Prop := ∃ a c, h.cell a = some c ∧ maxCount ≤ c.rc.natAbs

/-- Where a run that began at `h` is: the handles it owns, and that no object that is left was
tampered with. -/
structure Since (h : LeanHeap) (roots : Nat → Nat) (handles : List Ref) (now : LeanHeap) :
    Prop where
  held : Held now roots handles
  shrinks : Shrinks h now

section Handles

variable {h now : LeanHeap} {roots : Nat → Nat} {handles handles' : List Ref} {r s : Ref}
  {view : View Ref}

theorem Held.perm (held : Held h roots handles) (same : handles'.Perm handles) :
    Held h roots handles' := by
  apply Consistent.of_eq held
  intro b
  rw [same.count_eq]

theorem Held.scalar {payload : Nat} :
    Held h roots (.scalar payload :: handles) ↔ Held h roots handles := by
  have same : ∀ a, (Ref.scalar payload :: handles).count (.addr a) = handles.count (.addr a) :=
    fun a => List.count_cons_of_ne (by simp)
  unfold Held
  simp only [same]

theorem Held.alive (held : Held h roots handles) (mem : r ∈ handles) : Alive h r := by
  cases r with
  | scalar payload => trivial
  | addr a =>
    have once : 0 < handles.count (.addr a) := List.count_pos_iff.mpr mem
    exact Consistent.alive held (by omega)

theorem Held.slot_alive (held : Held h roots handles) (seen : h.view r = some view)
    (slot : s ∈ view.slots) : Alive h s := by
  cases r with
  | scalar payload =>
    cases seen
    cases slot
  | addr a =>
    cases s with
    | scalar payload => trivial
    | addr b =>
      cases live : h.cell a with
      | none => simp [LeanHeap.view, live] at seen
      | some c =>
        simp only [LeanHeap.view, live, Option.map_some, Option.some.injEq] at seen
        subst seen
        exact Consistent.child_alive held live
          (List.mem_filterMap.mpr ⟨.addr b, slot, rfl⟩)

theorem Alive.seen (alive : Alive h r) : ∃ view, h.view r = some view := by
  cases r with
  | scalar payload => exact ⟨_, rfl⟩
  | addr a =>
    obtain ⟨c, live⟩ := alive
    exact ⟨c.body.view, by rw [LeanHeap.view, live, Option.map_some]⟩

theorem view_kept (shrinks : Shrinks h now) (alive : Alive now r) : now.view r = h.view r := by
  cases r with
  | scalar payload => rfl
  | addr a =>
    obtain ⟨c', live'⟩ := alive
    obtain ⟨c, live, body, -⟩ := shrinks a c' live'
    rw [LeanHeap.view, LeanHeap.view, live, live', Option.map_some, Option.map_some, body]

theorem Since.perm (since : Since h roots handles now) (same : handles'.Perm handles) :
    Since h roots handles' now := ⟨since.held.perm same, since.shrinks⟩

end Handles

section Release

variable {cold : Nat → LeanHeap → Option LeanHeap} {h : LeanHeap} {owned owned' : Nat → Nat}

structure Released (h : LeanHeap) (owned' : Nat → Nat) (h' : LeanHeap) : Prop where
  consistent : Consistent HeapObject.addresses h' owned'
  shrinks : Shrinks h h'
  fewer : h'.liveCells ≤ h.liveCells

/-- One reference can be given up in a heap of at most `n` objects. -/
def ReleasesOne (cold : Nat → LeanHeap → Option LeanHeap) (n : Nat) : Prop :=
  ∀ (h : LeanHeap) (owned owned' : Nat → Nat) (a : Nat), h.liveCells ≤ n →
    Consistent HeapObject.addresses h owned →
    (∀ b, owned' b + (if b = a then 1 else 0) = owned b) →
    ∃ h', leanDecRef cold a h = some h' ∧ Released h owned' h'

theorem ReleasesOne.each {n : Nat} (one : ReleasesOne cold n) (todo : List Nat) :
    ∀ (h : LeanHeap) (owned owned' : Nat → Nat), h.liveCells ≤ n →
      Consistent HeapObject.addresses h owned → (∀ b, owned' b + todo.count b = owned b) →
      ∃ h', leanDecRefs cold todo h = some h' ∧ Released h owned' h' := by
  induction todo with
  | nil =>
    intro h owned owned' small held moved
    exact ⟨h, rfl, held.of_eq (fun b => by simpa using moved b), .refl h, Nat.le_refl _⟩
  | cons a todo ih =>
    intro h owned owned' small held moved
    have split : ∀ b, (owned' b + todo.count b) + (if b = a then 1 else 0) = owned b := by
      intro b
      have total := moved b
      rw [List.count_cons] at total
      by_cases here : b = a
      · subst here
        simp at total ⊢
        omega
      · have there : ¬ (a == b) = true := by simpa using Ne.symm here
        rw [if_neg there] at total
        rw [if_neg here]
        omega
    obtain ⟨h₁, first, consistent, shrinks, fewer⟩ := one h owned _ a small held split
    obtain ⟨h₂, rest, consistent', shrinks', fewer'⟩ :=
      ih h₁ _ owned' (Nat.le_trans fewer small) consistent fun _ => rfl
    refine ⟨h₂, ?_, consistent', shrinks.trans shrinks', Nat.le_trans fewer' fewer⟩
    rw [leanDecRefs, first]
    exact rest

/-- Induction on the objects in the heap: an object that is freed leaves one less for its slots. -/
theorem FreesAtZero.releasesOne (frees : FreesAtZero cold) (n : Nat) : ReleasesOne cold n := by
  induction n with
  | zero =>
    intro h owned owned' a small held moved
    have owner := moved a
    rw [if_pos rfl] at owner
    obtain ⟨c, live⟩ := held.alive (a := a) (by omega)
    have fewer := Heap.liveCells_free live
    omega
  | succ n smaller =>
    intro h owned owned' a small held moved
    have owner := moved a
    rw [if_pos rfl] at owner
    have others : ∀ b, b ≠ a → owned' b = owned b := by
      intro b here
      have same := moved b
      rw [if_neg here] at same
      exact same
    obtain ⟨c, live⟩ := held.alive (a := a) (by omega)
    rw [leanDecRef, live]
    dsimp only
    by_cases shared : 1 < c.rc
    · rw [if_pos shared]
      refine ⟨_, rfl, held.recount live (by omega) (by omega) others, .recount live ?_, ?_⟩
      · rw [Int.sign_eq_one_of_pos (by omega), Int.sign_eq_one_of_pos (by omega)]
      · rw [Heap.liveCells_put live]
    · rw [if_neg shared]
      by_cases zero : c.rc = 0
      · have uncounted : ¬ c.rc ≠ 0 := fun counts => counts zero
        rw [if_neg uncounted]
        exact ⟨h, rfl, held.uncounted live zero others, .refl h, Nat.le_refl _⟩
      · rw [if_pos zero]
        by_cases many : c.rc < -1
        · refine ⟨_, frees.counted h a c live many,
            held.recount live zero (by omega) others, .recount live ?_, ?_⟩
          · rw [Int.sign_eq_neg_one_of_neg (by omega), Int.sign_eq_neg_one_of_neg (by omega)]
          · rw [Heap.liveCells_put live]
        · have last : c.rc.natAbs = 1 := by omega
          have fewer := Heap.liveCells_free live
          have freed : Consistent HeapObject.addresses (h.free a) fun b =>
              owned' b + c.body.addresses.count b := by
            apply held.free live last (by omega)
            intro b
            have total := moved b
            omega
          obtain ⟨h', rest, consistent, shrinks, fewer'⟩ :=
            smaller.each c.body.addresses (h.free a) _ owned' (by omega) freed fun _ => rfl
          refine ⟨h', (frees.freed h a c live last).trans rest, consistent, ?_, by omega⟩
          exact (Shrinks.free h a).trans shrinks

end Release

open Procedure

/-- How a decoder may fail: its errors are conversion failures, and it has dropped what it owned. -/
def Fails (h : LeanHeap) (roots : Nat → Nat) (handles : List Ref) (e : HeapError)
    (now : LeanHeap) : Prop :=
  e ≠ .dangling ∧ Since h roots handles now

section Operations

variable {rt : Runtime} {h : LeanHeap} {roots : Nat → Nat} {handles : List Ref}
  {R : HeapError → LeanHeap → Prop}

theorem leanInc_since (r : Ref) :
    Triple (fun now => Since h roots handles now ∧ Alive now r) (leanInc r)
      (fun _ => Since h roots (r :: handles)) R := by
  rintro now ⟨since, alive⟩
  cases r with
  | scalar payload => exact ⟨Held.scalar.mpr since.held, since.shrinks⟩
  | addr a =>
    obtain ⟨c, live⟩ := alive
    have others : ∀ b, b ≠ a → roots b + (Ref.addr a :: handles).count (.addr b) =
        roots b + handles.count (.addr b) := by
      intro b here
      rw [List.count_cons_of_ne (by simpa using Ne.symm here)]
    have one : (Ref.addr a :: handles).count (.addr a) = handles.count (.addr a) + 1 :=
      List.count_cons_self
    rw [leanInc, leanIncRef, live]
    dsimp only
    split
    · split
      · have shrinks : Shrinks now (now.put a ⟨c.rc + 1, c.body⟩) := by
          apply Shrinks.recount live
          rw [Int.sign_eq_one_of_pos (by omega), Int.sign_eq_one_of_pos (by omega)]
        exact ⟨since.held.recount live (by omega) (by omega) others, since.shrinks.trans shrinks⟩
      · trivial
    · split
      · split
        · have shrinks : Shrinks now (now.put a ⟨c.rc - 1, c.body⟩) := by
            apply Shrinks.recount live
            rw [Int.sign_eq_neg_one_of_neg (by omega), Int.sign_eq_neg_one_of_neg (by omega)]
          exact ⟨since.held.recount live (by omega) (by omega) others, since.shrinks.trans shrinks⟩
        · trivial
      · exact ⟨since.held.uncounted live (by omega) others, since.shrinks⟩

theorem leanDec_since (frees : FreesAtZero rt.decRefCold) (r : Ref) :
    Triple (Since h roots (r :: handles)) (leanDec rt.decRefCold r)
      (fun _ => Since h roots handles) R := by
  intro now since
  cases r with
  | scalar payload => exact ⟨Held.scalar.mp since.held, since.shrinks⟩
  | addr a =>
    have moved : ∀ b, (roots b + handles.count (.addr b)) + (if b = a then 1 else 0) =
        roots b + (Ref.addr a :: handles).count (.addr b) := by
      intro b
      by_cases here : b = a
      · subst here
        rw [if_pos rfl, List.count_cons_self, Nat.add_assoc]
      · rw [if_neg here, List.count_cons_of_ne (by simpa using Ne.symm here), Nat.add_zero]
    obtain ⟨now', done, consistent, shrinks, -⟩ :=
      frees.releasesOne now.liveCells now _ _ a (Nat.le_refl _) since.held moved
    rw [leanDec]
    dsimp only
    rw [done]
    exact ⟨consistent, since.shrinks.trans shrinks⟩

theorem leanDecs_since (frees : FreesAtZero rt.decRefCold) (owned : List Ref) :
    Triple (Since h roots (owned ++ handles)) (leanDecs rt.decRefCold owned)
      (fun _ => Since h roots handles) R := by
  induction owned with
  | nil => exact Triple.pure fun _ since => since
  | cons r owned ih => exact Triple.bind (leanDec_since frees r) fun _ => ih

theorem lookAt_since (r : Ref) :
    Triple (Since h roots (r :: handles)) (lookAt r)
      (fun view now => Since h roots (r :: handles) now ∧ h.view r = some view) R := by
  intro now since
  have alive := since.held.alive (List.mem_cons_self ..)
  obtain ⟨view, seen⟩ := alive.seen
  rw [lookAt, seen]
  exact ⟨since, (view_kept since.shrinks alive).symm.trans seen⟩

theorem leanInc_slot {r s : Ref} {view : View Ref} (seen : h.view r = some view)
    (held : r ∈ handles) (slot : s ∈ view.slots) :
    Triple (Since h roots handles) (leanInc s) (fun _ => Since h roots (s :: handles)) R := by
  intro now since
  have kept := view_kept since.shrinks (since.held.alive held)
  exact leanInc_since s now ⟨since, since.held.slot_alive (kept.trans seen) slot⟩

theorem leanIncs_since {r : Ref} {view : View Ref} (seen : h.view r = some view)
    {fields : List Ref} (held : r ∈ handles) (slots : ∀ s ∈ fields, s ∈ view.slots) :
    Triple (Since h roots handles) (leanIncs fields)
      (fun _ => Since h roots (fields ++ handles)) R := by
  induction fields generalizing handles with
  | nil => exact Triple.pure fun _ since => since
  | cons s fields ih =>
    apply Triple.bind (leanInc_slot seen held (slots s (List.mem_cons_self ..)))
    intro _
    apply (ih (List.mem_cons_of_mem s held) _).consequence
    · exact fun _ since => since
    · exact fun _ _ since => since.perm List.perm_middle.symm
    · exact fun _ _ => id
    · exact fun t mem => slots t (List.mem_cons_of_mem s mem)

theorem takeCtorObjects_since (frees : FreesAtZero rt.decRefCold) {r : Ref} {view : View Ref}
    (seen : h.view r = some view) {fields : List Ref} (slots : ∀ s ∈ fields, s ∈ view.slots) :
    Triple (Since h roots (r :: handles)) (takeCtorObjects rt fields r)
      (fun _ => Since h roots (fields ++ handles)) R := by
  apply Triple.bind (leanIncs_since seen (List.mem_cons_self ..) slots)
  intro _
  apply (leanDec_since frees r).consequence
  · exact fun _ since => since.perm List.perm_middle.symm
  · exact fun _ _ => id
  · exact fun _ _ => id

theorem failWith_since {V : Type} (frees : FreesAtZero rt.decRefCold) (owned : List Ref)
    (failure : HostFailure) (Q : V → LeanHeap → Prop) :
    Triple (Since h roots (owned ++ handles)) (failWith rt owned failure) Q
      (Fails h roots handles) := by
  apply Triple.bind (leanDecs_since frees owned)
  intro _
  apply Triple.raise
  intro now since
  exact ⟨nofun, since⟩

theorem orDrop_since {V : Type} {P : LeanHeap → Prop} {Q : V → LeanHeap → Prop}
    (frees : FreesAtZero rt.decRefCold) {owned : List Ref} {m : HeapProc V}
    (body : Triple P m Q (Fails h roots (owned ++ handles))) :
    Triple P (orDrop rt owned m) Q (Fails h roots handles) := by
  apply Triple.captured body
  · exact fun v => Triple.pure fun _ holds => holds
  · intro e
    cases e with
    | dangling => exact fun now fails => absurd rfl fails.1
    | conversion failure =>
      apply Triple.consequence (failWith_since frees owned failure Q)
      · exact fun _ fails => fails.2
      · exact fun _ _ => id
      · exact fun _ _ => id

end Operations

/-- A decoder that gives up its handle for those inside the value it returns. -/
def Balances {V : Type} (owns : V → List Ref) (f : Ref → HeapProc V) : Prop :=
  ∀ (h : LeanHeap) (roots : Nat → Nat) (handles : List Ref) (r : Ref),
    Triple (Since h roots (r :: handles)) (f r) (fun v => Since h roots (owns v ++ handles))
      (Fails h roots handles)

section Decoders

variable {rt : Runtime} {V W : Type} {f : Ref → HeapProc V} {g : Ref → HeapProc W}
  {owns : V → List Ref} {owns' : W → List Ref}

theorem loadBase_balances (frees : FreesAtZero rt.decRefCold) (type : BaseType) :
    Balances (fun _ => []) (loadBase rt type) := by
  intro h roots handles r
  apply Triple.bind (lookAt_since r)
  intro view
  apply Triple.given
  intro seen
  have drops : ∀ v, Triple (Since h roots (r :: handles))
      (do leanDec rt.decRefCold r; pure v : HeapProc type.Value)
      (fun _ => Since h roots handles) (Fails h roots handles) := fun v =>
    Triple.bind (leanDec_since frees r) fun _ => Triple.pure fun _ since => since
  split
  · exact failWith_since frees [r] _ _
  · apply Triple.bind (M := fun _ => Since h roots (r :: handles))
    · exact fun _ since => since
    · exact drops
  · exact drops _

theorem loadOption_balances (frees : FreesAtZero rt.decRefCold) (inner : Balances owns f) :
    Balances (fun v : Option V => v.toList.flatMap owns) (loadOption rt f) := by
  intro h roots handles r
  apply Triple.bind (lookAt_since r)
  intro view
  apply Triple.given
  intro seen
  split
  · exact failWith_since frees [r] _ _
  · apply Triple.bind (leanDec_since frees r)
    exact fun _ => Triple.pure fun _ since => since
  · rename_i slot found
    obtain ⟨scalars, rfl⟩ := optionSlot_some.mp found
    apply Triple.bind (takeCtorObjects_since frees seen fun s mem => mem)
    intro _
    apply Triple.bind (inner h roots handles slot)
    intro v
    apply Triple.pure
    intro now since
    simpa using since

theorem loadResult_balances (frees : FreesAtZero rt.decRefCold) (ok : Balances owns f)
    (err : Balances owns' g) : Balances (resultHandles owns owns') (loadResult rt f g) := by
  intro h roots handles r
  apply Triple.bind (lookAt_since r)
  intro view
  apply Triple.given
  intro seen
  split
  · exact failWith_since frees [r] _ _
  · rename_i slot found
    obtain ⟨scalars, rfl⟩ := exceptSlot_error.mp found
    apply Triple.bind (takeCtorObjects_since frees seen fun s mem => mem)
    intro _
    apply Triple.bind (err h roots handles slot)
    exact fun w => Triple.pure fun _ since => since
  · rename_i slot found
    obtain ⟨scalars, rfl⟩ := exceptSlot_ok.mp found
    apply Triple.bind (takeCtorObjects_since frees seen fun s mem => mem)
    intro _
    apply Triple.bind (ok h roots handles slot)
    exact fun v => Triple.pure fun _ since => since

theorem loadPair_balances (frees : FreesAtZero rt.decRefCold) (first : Balances owns f)
    (second : Balances owns' g) :
    Balances (fun v : V × W => owns v.1 ++ owns' v.2) (loadPair rt f g owns) := by
  intro h roots handles r
  apply Triple.bind (lookAt_since r)
  intro view
  apply Triple.given
  intro seen
  split
  · exact failWith_since frees [r] _ _
  · rename_i slot slot' found
    obtain ⟨scalars, rfl⟩ := pairSlots_ok.mp found
    apply Triple.bind (takeCtorObjects_since frees seen fun s mem => mem)
    intro _
    apply Triple.bind (orDrop_since frees (first h roots (slot' :: handles) slot))
    intro v
    apply Triple.bind (M := fun w => Since h roots (owns' w ++ (owns v ++ handles)))
    · apply orDrop_since frees
      apply (second h roots (owns v ++ handles) slot').consequence
      · exact fun _ since => since.perm List.perm_middle.symm
      · exact fun _ _ => id
      · exact fun _ _ => id
    · intro w
      apply Triple.pure
      intro now since
      apply since.perm
      dsimp only
      rw [← List.append_assoc]
      exact List.perm_append_comm.append_right handles

theorem loadEach_balances (frees : FreesAtZero rt.decRefCold) (element : Balances owns f)
    {h : LeanHeap} {roots : Nat → Nat} {handles : List Ref} {array : Ref} {elements : List Ref}
    (seen : h.view array = some (.array elements)) (slots : List Ref)
    (inside : ∀ s ∈ slots, s ∈ elements) (out : List V) :
    Triple (Since h roots (out.flatMap owns ++ array :: handles))
      (loadEach rt f owns array slots out)
      (fun vs => Since h roots (vs.flatMap owns ++ array :: handles)) (Fails h roots handles) := by
  induction slots generalizing out with
  | nil => exact Triple.pure fun _ since => since
  | cons slot rest ih =>
    have held : array ∈ out.flatMap owns ++ array :: handles := by simp
    apply Triple.bind (leanInc_slot seen held (inside slot (List.mem_cons_self ..)))
    intro _
    apply Triple.bind
      (M := fun v => Since h roots (owns v ++ (out.flatMap owns ++ array :: handles)))
    · apply orDrop_since frees
      rw [List.append_assoc]
      exact element h roots (out.flatMap owns ++ array :: handles) slot
    · intro v
      apply (ih (fun s mem => inside s (List.mem_cons_of_mem slot mem)) (out ++ [v])).consequence
      · intro now since
        apply since.perm
        rw [List.flatMap_append, List.flatMap_singleton, ← List.append_assoc]
        exact List.perm_append_comm.append_right (array :: handles)
      · exact fun _ _ => id
      · exact fun _ _ => id

theorem loadVec_balances (frees : FreesAtZero rt.decRefCold) (element : Balances owns f) :
    Balances (fun vs : List V => vs.flatMap owns) (loadVec rt f owns) := by
  intro h roots handles r
  apply Triple.bind (lookAt_since r)
  intro view
  apply Triple.given
  intro seen
  split
  · exact failWith_since frees [r] _ _
  · rename_i slots found
    have same := arraySlots_ok.mp found
    subst same
    apply Triple.bind (loadEach_balances frees element seen slots (fun _ mem => mem) [])
    intro vs
    apply Triple.bind (M := fun _ => Since h roots (vs.flatMap owns ++ handles))
    · apply (leanDec_since frees r).consequence
      · exact fun _ since => since.perm List.perm_middle.symm
      · exact fun _ _ => id
      · exact fun _ _ => id
    · exact fun _ => Triple.pure fun _ since => since

end Decoders

/-- Induction on the type. -/
theorem RustType.load_balances {rt : Runtime} (frees : FreesAtZero rt.decRefCold) :
    (type : RustType) → Balances type.handles (type.load rt)
  | base type => loadBase_balances frees type
  | option inner => loadOption_balances frees (inner.load_balances frees)
  | result ok err => loadResult_balances frees (ok.load_balances frees) (err.load_balances frees)
  | vec element => loadVec_balances frees (element.load_balances frees)
  | pair first second =>
    loadPair_balances frees (first.load_balances frees) (second.load_balances frees)
  | triple first second third =>
    loadPair_balances frees (first.load_balances frees)
      (loadPair_balances frees (second.load_balances frees) (third.load_balances frees))
  | obj => fun _ _ _ _ => Triple.pure fun _ since => since

section Waits

variable {rt : Runtime} {V W : Type}

theorem leanInc_stops {r : Ref} {h h' : LeanHeap} (waits : leanInc r h = .waiting h') :
    h' = h ∧ ∃ a c, r = .addr a ∧ h.cell a = some c ∧ maxCount ≤ c.rc.natAbs := by
  cases r with
  | scalar payload => cases waits
  | addr a =>
    rw [leanInc, leanIncRef] at waits
    cases live : h.cell a with
    | none =>
      rw [live] at waits
      cases waits
    | some c =>
      rw [live] at waits
      dsimp only at waits
      split at waits
      · split at waits
        · cases waits
        · cases waits
          exact ⟨rfl, a, c, rfl, live, by omega⟩
      · split at waits
        · split at waits
          · cases waits
          · cases waits
            exact ⟨rfl, a, c, rfl, live, by omega⟩
        · cases waits

theorem leanInc_waits (r : Ref) : WaitsIn AtLimit (leanInc r) := by
  intro h h' waits
  obtain ⟨rfl, a, c, -, live, full⟩ := leanInc_stops waits
  exact ⟨a, c, live, full⟩

theorem leanDec_ends (r : Ref) : Ends (leanDec rt.decRefCold r) := by
  intro h
  cases r with
  | scalar payload => rfl
  | addr a =>
    rw [leanDec]
    dsimp only
    split <;> rfl

theorem leanDec_waits (r : Ref) : WaitsIn AtLimit (leanDec rt.decRefCold r) := by
  cases r with
  | scalar payload => exact WaitsIn.pure ()
  | addr a =>
    intro h h' waits
    rw [leanDec] at waits
    dsimp only at waits
    split at waits <;> cases waits

theorem leanDecs_waits (owned : List Ref) : WaitsIn AtLimit (leanDecs rt.decRefCold owned) := by
  induction owned with
  | nil => exact WaitsIn.pure ()
  | cons r owned ih => exact WaitsIn.bind (leanDec_waits r) fun _ => ih

theorem leanIncs_waits (fields : List Ref) : WaitsIn AtLimit (leanIncs fields) := by
  induction fields with
  | nil => exact WaitsIn.pure ()
  | cons r fields ih => exact WaitsIn.bind (leanInc_waits r) fun _ => ih

theorem lookAt_waits (r : Ref) : WaitsIn AtLimit (lookAt r) := by
  intro h h' waits
  rw [lookAt] at waits
  split at waits <;> cases waits

theorem takeCtorObjects_waits (fields : List Ref) (parent : Ref) :
    WaitsIn AtLimit (takeCtorObjects rt fields parent) :=
  WaitsIn.bind (leanIncs_waits fields) fun _ => leanDec_waits parent

theorem failWith_waits (owned : List Ref) (failure : HostFailure) :
    WaitsIn AtLimit (failWith rt owned failure : HeapProc V) :=
  WaitsIn.bind (leanDecs_waits owned) fun _ => WaitsIn.raise _

theorem orDrop_waits {owned : List Ref} {m : HeapProc V} (body : WaitsIn AtLimit m) :
    WaitsIn AtLimit (orDrop rt owned m) := by
  apply WaitsIn.bind body.capture
  rintro ((_ | failure) | v)
  · exact WaitsIn.raise _
  · exact failWith_waits owned failure
  · exact WaitsIn.pure v

variable {f : Ref → HeapProc V} {g : Ref → HeapProc W} {owns : V → List Ref}

theorem loadBase_waits (type : BaseType) (r : Ref) : WaitsIn AtLimit (loadBase rt type r) := by
  apply WaitsIn.bind (lookAt_waits r)
  intro view
  split
  · exact failWith_waits _ _
  · have stray : WaitsIn AtLimit (strayValue rt r type) :=
      WaitsIn.bind WaitsIn.read fun _ => WaitsIn.pure _
    exact WaitsIn.bind stray fun v => WaitsIn.bind (leanDec_waits r) fun _ => WaitsIn.pure v
  · exact WaitsIn.bind (leanDec_waits r) fun _ => WaitsIn.pure _

theorem loadOption_waits (inner : ∀ r, WaitsIn AtLimit (f r)) (r : Ref) :
    WaitsIn AtLimit (loadOption rt f r) := by
  apply WaitsIn.bind (lookAt_waits r)
  intro view
  split
  · exact failWith_waits _ _
  · exact WaitsIn.bind (leanDec_waits r) fun _ => WaitsIn.pure _
  · apply WaitsIn.bind (takeCtorObjects_waits _ _)
    exact fun _ => WaitsIn.bind (inner _) fun _ => WaitsIn.pure _

theorem loadResult_waits (ok : ∀ r, WaitsIn AtLimit (f r)) (err : ∀ r, WaitsIn AtLimit (g r))
    (r : Ref) : WaitsIn AtLimit (loadResult rt f g r) := by
  apply WaitsIn.bind (lookAt_waits r)
  intro view
  split
  · exact failWith_waits _ _
  · apply WaitsIn.bind (takeCtorObjects_waits _ _)
    exact fun _ => WaitsIn.bind (err _) fun _ => WaitsIn.pure _
  · apply WaitsIn.bind (takeCtorObjects_waits _ _)
    exact fun _ => WaitsIn.bind (ok _) fun _ => WaitsIn.pure _

theorem loadPair_waits (first : ∀ r, WaitsIn AtLimit (f r)) (second : ∀ r, WaitsIn AtLimit (g r))
    (r : Ref) : WaitsIn AtLimit (loadPair rt f g owns r) := by
  apply WaitsIn.bind (lookAt_waits r)
  intro view
  split
  · exact failWith_waits _ _
  · apply WaitsIn.bind (takeCtorObjects_waits _ _)
    intro _
    apply WaitsIn.bind (orDrop_waits (first _))
    intro v
    exact WaitsIn.bind (orDrop_waits (second _)) fun _ => WaitsIn.pure _

theorem loadEach_waits (element : ∀ r, WaitsIn AtLimit (f r)) (array : Ref) (slots : List Ref)
    (out : List V) : WaitsIn AtLimit (loadEach rt f owns array slots out) := by
  induction slots generalizing out with
  | nil => exact WaitsIn.pure out
  | cons slot rest ih =>
    apply WaitsIn.bind (leanInc_waits slot)
    intro _
    exact WaitsIn.bind (orDrop_waits (element slot)) fun v => ih (out ++ [v])

theorem loadVec_waits (element : ∀ r, WaitsIn AtLimit (f r)) (r : Ref) :
    WaitsIn AtLimit (loadVec rt f owns r) := by
  apply WaitsIn.bind (lookAt_waits r)
  intro view
  split
  · exact failWith_waits _ _
  · apply WaitsIn.bind (loadEach_waits element r _ [])
    exact fun _ => WaitsIn.bind (leanDec_waits r) fun _ => WaitsIn.pure _

end Waits

theorem RustType.load_waits {rt : Runtime} :
    (type : RustType) → ∀ r, WaitsIn AtLimit (type.load rt r)
  | base type => loadBase_waits type
  | option inner => loadOption_waits inner.load_waits
  | result ok err => loadResult_waits ok.load_waits err.load_waits
  | vec element => loadVec_waits element.load_waits
  | pair first second => loadPair_waits first.load_waits second.load_waits
  | triple first second third =>
    loadPair_waits first.load_waits (loadPair_waits second.load_waits third.load_waits)
  | obj => fun r => WaitsIn.pure r

/-- A run that ends meets `Q` or `R`, and one that stops does so at a count with no room. -/
structure Settles {V : Type} (o : Outcome LeanHeap HeapError V) (Q : V → LeanHeap → Prop)
    (R : HeapError → LeanHeap → Prop) : Prop where
  meets : o.Meets Q R
  stops : ∀ h, o = .waiting h → AtLimit h

end LeanRs
