import Mathlib.Data.List.Basic
import Mathlib.Data.List.Count

/-! Tables ordered by key, as a row of entries, smallest key first, and counters that are kept in
such a table and stop at a limit. -/
namespace KeyTable

open Std

variable {K V : Type} [Ord K]

/-- The entry of the key is changed, or a new entry joins at its place. -/
def upsert (k : K) (new : V) (change : V → V) : List (K × V) → List (K × V)
  | [] => [(k, new)]
  | (k', v) :: rest =>
    match compare k k' with
    | .lt => (k, new) :: (k', v) :: rest
    | .eq => (k', change v) :: rest
    | .gt => (k', v) :: upsert k new change rest

def find? (k : K) : List (K × V) → Option V
  | [] => none
  | (k', v) :: rest =>
    match compare k k' with
    | .lt => none
    | .eq => some v
    | .gt => find? k rest

def Sorted (table : List (K × V)) : Prop := table.Pairwise fun a b => compare a.1 b.1 = .lt

theorem mem_upsert {k : K} {new : V} {change : V → V} {table : List (K × V)} {entry : K × V}
    (member : entry ∈ upsert k new change table) :
    entry ∈ table ∨ entry = (k, new) ∨
      ∃ v, (entry.1, v) ∈ table ∧ compare k entry.1 = .eq ∧ entry.2 = change v := by
  induction table with
  | nil => exact Or.inr (Or.inl (List.mem_singleton.mp member))
  | cons head rest ih =>
    obtain ⟨k', v⟩ := head
    unfold upsert at member
    cases order : compare k k' with
    | lt =>
      rw [order] at member
      obtain new | old := List.mem_cons.mp member
      · exact Or.inr (Or.inl new)
      · exact Or.inl old
    | eq =>
      rw [order] at member
      obtain here | later := List.mem_cons.mp member
      · subst here
        exact Or.inr (Or.inr ⟨v, List.mem_cons_self, order, rfl⟩)
      · exact Or.inl (List.mem_cons_of_mem _ later)
    | gt =>
      rw [order] at member
      obtain here | later := List.mem_cons.mp member
      · exact Or.inl (here ▸ List.mem_cons_self)
      · obtain old | new | ⟨w, found, same, changed⟩ := ih later
        · exact Or.inl (List.mem_cons_of_mem _ old)
        · exact Or.inr (Or.inl new)
        · exact Or.inr (Or.inr ⟨w, List.mem_cons_of_mem _ found, same, changed⟩)

theorem upsert_sorted [TransOrd K] (k : K) (new : V) (change : V → V) {table : List (K × V)}
    (sorted : Sorted table) : Sorted (upsert k new change table) := by
  induction table with
  | nil => exact List.pairwise_singleton _ _
  | cons head rest ih =>
    obtain ⟨k', v⟩ := head
    obtain ⟨above, tail⟩ := List.pairwise_cons.mp sorted
    unfold upsert
    cases order : compare k k' with
    | lt =>
      apply List.pairwise_cons.mpr
      constructor
      · intro entry member
        obtain rfl | later := List.mem_cons.mp member
        · exact order
        · exact TransCmp.lt_trans order (above entry later)
      · exact sorted
    | eq => exact List.pairwise_cons.mpr ⟨above, tail⟩
    | gt =>
      apply List.pairwise_cons.mpr
      constructor
      · intro entry member
        obtain old | rfl | ⟨w, found, -, -⟩ := mem_upsert member
        · exact above entry old
        · exact OrientedCmp.lt_of_gt order
        · exact above (entry.1, w) found
      · exact ih tail

theorem find?_upsert_self [LawfulEqOrd K] (k : K) (new : V) (change : V → V)
    (table : List (K × V)) :
    find? k (upsert k new change table) = some (((find? k table).map change).getD new) := by
  induction table with
  | nil => simp [upsert, find?]
  | cons head rest ih =>
    obtain ⟨k', v⟩ := head
    unfold upsert
    cases order : compare k k' with
    | lt => simp [find?, order]
    | eq => simp [find?, order]
    | gt => simpa [find?, order] using ih

section Lawful

variable [TransOrd K] [LawfulEqOrd K]

theorem find?_eq_some {k : K} {v : V} {table : List (K × V)} (sorted : Sorted table) :
    find? k table = some v ↔ (k, v) ∈ table := by
  induction table with
  | nil =>
    constructor
    · intro found
      cases found
    · intro member
      cases member
  | cons head rest ih =>
    obtain ⟨k', w⟩ := head
    obtain ⟨above, tail⟩ := List.pairwise_cons.mp sorted
    have self : ∀ l : K, compare l l = .eq := fun _ => ReflCmp.compare_self
    unfold find?
    cases order : compare k k' with
    | lt =>
      constructor
      · intro found
        cases found
      · intro member
        obtain same | later := List.mem_cons.mp member
        · cases same
          rw [self] at order
          cases order
        · have less := TransCmp.lt_trans order (above _ later)
          rw [self] at less
          cases less
    | eq =>
      obtain rfl := LawfulEqCmp.eq_of_compare order
      constructor
      · intro found
        cases found
        exact List.mem_cons_self
      · intro member
        obtain same | later := List.mem_cons.mp member
        · cases same
          rfl
        · have less := above _ later
          rw [self] at less
          cases less
    | gt =>
      dsimp only
      rw [ih tail, List.mem_cons]
      constructor
      · exact Or.inr
      · rintro (same | later)
        · cases same
          rw [self] at order
          cases order
        · exact later

theorem find?_upsert_of_ne {j k : K} (other : j ≠ k) (new : V) (change : V → V)
    (table : List (K × V)) : find? j (upsert k new change table) = find? j table := by
  have apart : compare j k ≠ .eq := fun same => other (LawfulEqCmp.eq_of_compare same)
  induction table with
  | nil =>
    cases order : compare j k with
    | eq => exact absurd order apart
    | lt => simp [upsert, find?, order]
    | gt => simp [upsert, find?, order]
  | cons head rest ih =>
    obtain ⟨k', v⟩ := head
    unfold upsert
    cases order : compare k k' with
    | lt =>
      cases below : compare j k with
      | eq => exact absurd below apart
      | lt => simp [find?, below, TransCmp.lt_trans below order]
      | gt => simp [find?, below]
    | eq =>
      obtain rfl := LawfulEqCmp.eq_of_compare order
      cases below : compare j k with
      | eq => exact absurd below apart
      | lt => simp [find?, below]
      | gt => simp [find?, below]
    | gt => simp only [find?, ih]

end Lawful

def bump (limit : Nat) (k : K) (table : List (K × Nat)) : List (K × Nat) :=
  upsert k (min 1 limit) (fun n => min (n + 1) limit) table

def value (k : K) (table : List (K × Nat)) : Nat := (find? k table).getD 0

variable [DecidableEq K]

structure Counts (limit : Nat) (table : List (K × Nat)) (keys : List K) : Prop where
  sorted : Sorted table
  found : ∀ k, find? k table = if k ∈ keys then some (min (keys.count k) limit) else none

namespace Counts

variable {limit : Nat} {table : List (K × Nat)} {keys : List K}

theorem start : Counts limit ([] : List (K × Nat)) [] where
  sorted := List.Pairwise.nil
  found := fun _ => rfl

theorem value_eq (counts : Counts limit table keys) (k : K) :
    value k table = min (keys.count k) limit := by
  unfold value
  rw [counts.found]
  split
  · rfl
  · rename_i missing
    rw [List.count_eq_zero_of_not_mem missing, Nat.zero_min]
    rfl

variable [TransOrd K] [LawfulEqOrd K]

theorem bumped (counts : Counts limit table keys) (k : K) :
    Counts limit (bump limit k table) (keys ++ [k]) where
  sorted := upsert_sorted k _ _ counts.sorted
  found := by
    intro j
    unfold bump
    by_cases same : j = k
    · subst same
      rw [find?_upsert_self, counts.found, if_pos (List.mem_append_right keys List.mem_cons_self),
        List.count_append, List.count_singleton_self]
      split
      · show some (min (min (keys.count j) limit + 1) limit) = _
        congr 1
        omega
      · rename_i missing
        rw [List.count_eq_zero_of_not_mem missing]
        rfl
    · rw [find?_upsert_of_ne same, counts.found, List.count_append,
        List.count_eq_zero_of_not_mem fun member => same (List.mem_singleton.mp member)]
      simp [same]

theorem mem_iff (counts : Counts limit table keys) {k : K} {n : Nat} :
    (k, n) ∈ table ↔ k ∈ keys ∧ n = min (keys.count k) limit := by
  rw [← find?_eq_some counts.sorted, counts.found]
  split
  · rename_i member
    rw [Option.some_inj, and_iff_right member, eq_comm]
  · rename_i missing
    simp [missing]

end Counts

/-- The entries of each key have the numbers from zero on, which stop at the limit. -/
def Numbered (limit : Nat) (entries : List (K × Nat)) : Prop :=
  ∀ k, (entries.filter fun entry => entry.1 = k).map Prod.snd =
    (List.range ((entries.map Prod.fst).count k)).map (min · limit)

theorem Numbered.next {limit : Nat} {table entries : List (K × Nat)}
    (numbered : Numbered limit entries) (counts : Counts limit table (entries.map Prod.fst))
    (k : K) : Numbered limit (entries ++ [(k, value k table)]) := by
  intro j
  rw [List.filter_append, List.map_append, numbered j, List.map_append, List.count_append]
  by_cases same : k = j
  · subst same
    rw [counts.value_eq, List.map_singleton, List.count_singleton_self, List.range_succ,
      List.map_append]
    simp
  · simp [same]

end KeyTable
