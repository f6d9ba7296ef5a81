import Mathlib.Data.List.Nodup

/-! Bounded lists of keys in order of use, the most recent at the back. -/
namespace Recency

variable {K : Type} [DecidableEq K]

def touch (keys : List K) (k : K) : List K := keys.erase k ++ [k]

def keepLast (capacity : Nat) (keys : List K) : List K := keys.drop (keys.length - capacity)

/-- One use of a key: it moves to the back if it is held, and is added there if it is not. -/
def use (capacity : Nat) (keys : List K) (k : K) : List K :=
  if k ∈ keys then touch keys k else keepLast capacity (keys ++ [k])

omit [DecidableEq K] in
theorem keepLast_length_le (capacity : Nat) (keys : List K) :
    (keepLast capacity keys).length ≤ capacity := by
  rw [keepLast, List.length_drop]
  omega

omit [DecidableEq K] in
theorem keepLast_of_le {capacity : Nat} {keys : List K} (fits : keys.length ≤ capacity) :
    keepLast capacity keys = keys := by
  rw [keepLast, Nat.sub_eq_zero_of_le fits, List.drop_zero]

omit [DecidableEq K] in
theorem keepLast_suffix (capacity : Nat) (keys : List K) : keepLast capacity keys <:+ keys :=
  List.drop_suffix _ _

omit [DecidableEq K] in
theorem map_keepLast {B : Type} (f : K → B) (capacity : Nat) (keys : List K) :
    (keepLast capacity keys).map f = keepLast capacity (keys.map f) := by
  rw [keepLast, keepLast, List.map_drop, List.length_map]

omit [DecidableEq K] in
theorem keepLast_append_singleton (capacity : Nat) (keys : List K) (k : K) :
    keepLast (capacity + 1) (keys ++ [k]) = keepLast capacity keys ++ [k] := by
  have room : (keys ++ [k]).length - (capacity + 1) = keys.length - capacity := by
    rw [List.length_append, List.length_singleton]
    omega
  rw [keepLast, keepLast, room, List.drop_append_of_le_length (Nat.sub_le _ _)]

theorem touch_length {keys : List K} {k : K} (held : k ∈ keys) :
    (touch keys k).length = keys.length := by
  have one : 0 < keys.length := List.length_pos_of_mem held
  rw [touch, List.length_append, List.length_singleton, List.length_erase_of_mem held]
  omega

theorem use_length_le {capacity : Nat} {keys : List K} (fits : keys.length ≤ capacity) (k : K) :
    (use capacity keys k).length ≤ capacity := by
  unfold use
  split
  · rename_i held
    rw [touch_length held]
    exact fits
  · exact keepLast_length_le _ _

theorem touch_nodup {keys : List K} (distinct : keys.Nodup) (k : K) : (touch keys k).Nodup := by
  refine List.Nodup.append (distinct.erase k) (List.nodup_singleton k) ?_
  rw [List.disjoint_singleton]
  exact distinct.not_mem_erase

theorem use_nodup (capacity : Nat) {keys : List K} (distinct : keys.Nodup) (k : K) :
    (use capacity keys k).Nodup := by
  unfold use
  split
  · exact touch_nodup distinct k
  · rename_i unheld
    have added : (keys ++ [k]).Nodup :=
      List.Nodup.append distinct (List.nodup_singleton k) (List.disjoint_singleton.mpr unheld)
    exact added.sublist (keepLast_suffix _ _).sublist

omit [DecidableEq K] in
theorem keepLast_mono (capacity : Nat) {p q : List K} (suffix : p <:+ q) :
    keepLast capacity p <:+ keepLast capacity q := by
  refine List.suffix_of_suffix_length_le ((keepLast_suffix _ _).trans suffix)
    (keepLast_suffix _ _) ?_
  have shorter := suffix.length_le
  simp only [keepLast, List.length_drop]
  omega

theorem touch_mono {p q : List K} (suffix : p <:+ q) (distinct : q.Nodup) {k : K} (held : k ∈ p) :
    touch p k <:+ touch q k := by
  obtain ⟨older, rfl⟩ := suffix
  have apart : k ∉ older := fun member => (List.disjoint_of_nodup_append distinct) member held
  rw [touch, touch, List.erase_append_right p apart, List.append_assoc]
  exact List.suffix_append _ _

theorem append_suffix_touch {p q : List K} (suffix : p <:+ q) {k : K} (unheld : k ∉ p)
    (held : k ∈ q) : p ++ [k] <:+ touch q k := by
  obtain ⟨older, rfl⟩ := suffix
  have member : k ∈ older := (List.mem_append.mp held).resolve_right unheld
  rw [touch, List.erase_append_left p member, List.append_assoc]
  exact List.suffix_append _ _

/-- Two lists that see the same uses: the one that remembers less goes on remembering a recent
part of what the other does. -/
theorem use_mono (capacity : Nat) {p q : List K} (suffix : p <:+ q) (distinct : q.Nodup) (k : K) :
    use capacity p k <:+ use capacity q k := by
  by_cases held : k ∈ p
  · rw [use, use, if_pos held, if_pos (suffix.subset held)]
    exact touch_mono suffix distinct held
  · rw [use, use, if_neg held]
    split
    · rename_i member
      exact (keepLast_suffix _ _).trans (append_suffix_touch suffix held member)
    · exact keepLast_mono capacity (List.suffix_append_self_iff.mpr suffix)

end Recency
