import Mathlib.Data.List.DropRight

/-! Cutting away the ends of a list, and what cannot be cut away. -/
namespace Trimming

variable {A : Type}

def trim (p : A → Bool) (xs : List A) : List A := (xs.dropWhile p).rdropWhile p

def trimAll (ps : List (A → Bool)) (xs : List A) : List A := ps.foldl (fun xs p => trim p xs) xs

def stripEnd (ps : List (A → Bool)) (xs : List A) : List A :=
  ps.foldl (fun xs p => xs.rdropWhile p) xs

structure EndsApart (p : A → Bool) (core : List A) : Prop where
  some : core ≠ []
  first : ∀ x ∈ core.head?, p x = false
  last : ∀ x ∈ core.getLast?, p x = false

variable {p : A → Bool}

theorem rdropWhile_append {core : List A} (last : ∀ x ∈ core.getLast?, p x = false)
    (u : List A) :
    (core ++ u).rdropWhile p = core ++ u.rdropWhile p := by
  induction u using List.reverseRecOn with
  | nil =>
    have kept : core.rdropWhile p = core := List.rdropWhile_eq_self_iff.mpr fun nonempty =>
      by simp [last _ (List.getLast?_eq_getLast_of_ne_nil nonempty)]
    rw [List.append_nil, kept, List.rdropWhile_nil, List.append_nil]
  | append_singleton u x ih =>
    rw [← List.append_assoc]
    cases drop : p x with
    | true => rw [List.rdropWhile_concat_pos _ _ _ drop, List.rdropWhile_concat_pos _ _ _ drop, ih]
    | false =>
      have keep : ¬p x = true := by simp [drop]
      rw [List.rdropWhile_concat_neg _ _ _ keep, List.rdropWhile_concat_neg _ _ _ keep,
        List.append_assoc]

theorem rdropWhile_cons_apart {c : A} (keep : p c = false) (v : List A) :
    (c :: v).rdropWhile p = c :: v.rdropWhile p := by
  have last : ∀ x ∈ [c].getLast?, p x = false := by
    intro x same
    cases same
    exact keep
  exact rdropWhile_append last v

theorem dropWhile_of_first {xs : List A} (first : ∀ x ∈ xs.head?, p x = false) :
    xs.dropWhile p = xs := by
  cases xs with
  | nil => rfl
  | cons x xs => exact List.dropWhile_cons_of_neg (by simp [first x rfl])

theorem dropWhile_append_all {g : List A} (all : ∀ x ∈ g, p x = true) (xs : List A) :
    (g ++ xs).dropWhile p = xs.dropWhile p := by
  induction g with
  | nil => rfl
  | cons x g ih =>
    rw [List.cons_append, List.dropWhile_cons_of_pos (all x List.mem_cons_self)]
    exact ih fun y member => all y (List.mem_cons_of_mem x member)

theorem head?_append {core : List A} (some : core ≠ []) (u : List A) :
    (core ++ u).head? = core.head? := by
  cases core with
  | nil => exact absurd rfl some
  | cons x core => rfl

theorem EndsApart.trim {core : List A} (apart : EndsApart p core) (u : List A) :
    Trimming.trim p (core ++ u) = core ++ u.rdropWhile p := by
  have first : ∀ x ∈ (core ++ u).head?, p x = false := by
    rw [head?_append apart.some]
    exact apart.first
  rw [Trimming.trim, dropWhile_of_first first, rdropWhile_append apart.last]

theorem trimAll_append {ps : List (A → Bool)} {core : List A}
    (apart : ∀ p ∈ ps, EndsApart p core) (u : List A) :
    trimAll ps (core ++ u) = core ++ stripEnd ps u := by
  induction ps generalizing u with
  | nil => rfl
  | cons p ps ih =>
    show trimAll ps (Trimming.trim p (core ++ u)) = _
    rw [(apart p List.mem_cons_self).trim,
      ih (fun q member => apart q (List.mem_cons_of_mem p member))]
    rfl

theorem trimAll_cons (p : A → Bool) (ps : List (A → Bool)) (xs : List A) :
    trimAll (p :: ps) xs = trimAll ps (trim p xs) := rfl

theorem trimAll_concat (ps qs : List (A → Bool)) (xs : List A) :
    trimAll (ps ++ qs) xs = trimAll qs (trimAll ps xs) := List.foldl_append

theorem stripEnd_concat (ps qs : List (A → Bool)) (xs : List A) :
    stripEnd (ps ++ qs) xs = stripEnd qs (stripEnd ps xs) := List.foldl_append

theorem rdropWhile_mark {c : A} (mark : p c = true) (v : List A) :
    (v.rdropWhile p = [] ∧ (c :: v).rdropWhile p = []) ∨
      (v.rdropWhile p ≠ [] ∧ c ∈ (c :: v).rdropWhile p) := by
  by_cases gone : v.rdropWhile p = []
  · have rest := List.rdropWhile_eq_nil_iff.mp gone
    refine Or.inl ⟨gone, List.rdropWhile_eq_nil_iff.mpr fun x member => ?_⟩
    rcases List.mem_cons.mp member with rfl | member
    · exact mark
    · exact rest x member
  · have left : (c :: v).rdropWhile p ≠ [] := fun none =>
      gone (List.rdropWhile_eq_nil_iff.mpr fun x member =>
        List.rdropWhile_eq_nil_iff.mp none x (List.mem_cons_of_mem c member))
    refine Or.inr ⟨gone, ?_⟩
    cases kept : (c :: v).rdropWhile p with
    | nil => exact absurd kept left
    | cons x rest =>
      have start : x :: rest <+: c :: v := kept ▸ List.rdropWhile_prefix p (c :: v)
      rw [(List.cons_prefix_cons.mp start).1]
      exact List.mem_cons_self

theorem mem_dropWhile {x : A} {xs : List A} (member : x ∈ xs) (keep : p x = false) :
    x ∈ xs.dropWhile p := by
  induction xs with
  | nil => exact member
  | cons y ys ih =>
    by_cases drop : p y = true
    · rw [List.dropWhile_cons_of_pos drop]
      rcases List.mem_cons.mp member with rfl | later
      · simp [keep] at drop
      · exact ih later
    · rwa [List.dropWhile_cons_of_neg drop]

theorem mem_trimAll {x : A} {ps : List (A → Bool)} {xs : List A} (member : x ∈ xs)
    (keep : ∀ p ∈ ps, p x = false) : x ∈ trimAll ps xs := by
  induction ps generalizing xs with
  | nil => exact member
  | cons p ps ih =>
    have here := keep p List.mem_cons_self
    have stays : x ∈ trim p xs :=
      List.mem_reverse.mpr (mem_dropWhile (List.mem_reverse.mpr (mem_dropWhile member here)) here)
    exact ih stays fun q later => keep q (List.mem_cons_of_mem p later)

theorem trimAll_subset (ps : List (A → Bool)) (xs : List A) : trimAll ps xs ⊆ xs := by
  induction ps generalizing xs with
  | nil => exact List.Subset.refl xs
  | cons p ps ih =>
    have here : trim p xs ⊆ xs := fun x member =>
      (List.dropWhile_sublist p).subset ((List.rdropWhile_prefix p _).subset member)
    exact List.Subset.trans (ih (trim p xs)) here

end Trimming
