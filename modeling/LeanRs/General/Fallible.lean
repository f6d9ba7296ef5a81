import Mathlib.Data.List.Basic

/-! Fallible steps in a row: when a sequence of them comes to a result, and when a list that was
written element by element is read back. -/
namespace Fallible

theorem bind_ok {E A B : Type} {x : Except E A} {f : A → Except E B} {b : B} :
    (x >>= f) = .ok b ↔ ∃ a, x = .ok a ∧ f a = .ok b := by
  cases x with
  | error e =>
    constructor
    · intro h
      cases h
    · rintro ⟨_, h, _⟩
      cases h
  | ok a =>
    constructor
    · intro h
      exact ⟨a, rfl, h⟩
    · rintro ⟨_, h, rest⟩
      cases h
      exact rest

theorem bind_error {E A B : Type} {x : Except E A} {f : A → Except E B} {e : E} :
    (x >>= f) = .error e ↔ x = .error e ∨ ∃ a, x = .ok a ∧ f a = .error e := by
  cases x with
  | error e' =>
    constructor
    · intro h
      cases h
      exact Or.inl rfl
    · rintro (h | ⟨_, h, _⟩)
      · cases h
        rfl
      · cases h
  | ok a =>
    constructor
    · intro h
      exact Or.inr ⟨a, rfl, h⟩
    · rintro (h | ⟨_, h, rest⟩)
      · cases h
      · cases h
        exact rest

theorem mapM_cons_ok {E A B : Type} {f : A → Except E B} {a : A} {as : List A}
    {bs : List B} : (a :: as).mapM f = .ok bs ↔
      ∃ b rest, f a = .ok b ∧ as.mapM f = .ok rest ∧ bs = b :: rest := by
  rw [List.mapM_cons, bind_ok]
  constructor
  · rintro ⟨b, first, h⟩
    obtain ⟨rest, others, last⟩ := bind_ok.mp h
    cases last
    exact ⟨b, rest, first, others, rfl⟩
  · rintro ⟨b, rest, first, others, rfl⟩
    exact ⟨b, first, bind_ok.mpr ⟨rest, others, rfl⟩⟩

theorem mapM_written {E A B : Type} {f : B → Except E A} {g : A → B} {P : A → Prop} (as bs : List A)
    (element : ∀ a ∈ as, ∀ b, f (g a) = .ok b ↔ P a ∧ b = a) :
    (as.map g).mapM f = .ok bs ↔ (∀ a ∈ as, P a) ∧ bs = as := by
  induction as generalizing bs with
  | nil =>
    constructor
    · intro h
      cases h
      exact ⟨List.forall_mem_nil _, rfl⟩
    · rintro ⟨-, rfl⟩
      rfl
  | cons a as ih =>
    obtain ⟨here, elsewhere⟩ := List.forall_mem_cons.mp element
    rw [List.map_cons, mapM_cons_ok, List.forall_mem_cons]
    constructor
    · rintro ⟨b, rest, first, others, rfl⟩
      obtain ⟨taken, rfl⟩ := (here b).mp first
      obtain ⟨taken', rfl⟩ := (ih rest elsewhere).mp others
      exact ⟨⟨taken, taken'⟩, rfl⟩
    · rintro ⟨⟨taken, taken'⟩, rfl⟩
      exact ⟨a, as, (here a).mpr ⟨taken, rfl⟩, (ih as elsewhere).mpr ⟨taken', rfl⟩, rfl⟩

theorem forM_ok {E A : Type} {check : A → Except E Unit} {as : List A}
    (checked : as.forM check = .ok ()) : ∀ a ∈ as, check a = .ok () := by
  induction as with
  | nil => exact List.forall_mem_nil _
  | cons a as ih =>
    change (check a >>= fun _ => as.forM check) = .ok () at checked
    obtain ⟨_, first, others⟩ := bind_ok.mp checked
    exact List.forall_mem_cons.mpr ⟨first, ih others⟩

theorem forM_of_forall {E A : Type} {check : A → Except E Unit} {as : List A}
    (checked : ∀ a ∈ as, check a = .ok ()) : as.forM check = .ok () := by
  induction as with
  | nil => rfl
  | cons a as ih =>
    change (check a >>= fun _ => as.forM check) = .ok ()
    obtain ⟨first, others⟩ := List.forall_mem_cons.mp checked
    rw [first]
    exact ih others

end Fallible
