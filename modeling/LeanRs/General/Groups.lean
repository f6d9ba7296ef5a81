import LeanRs.General.KeyTable
import Mathlib.Data.List.Induction
import Mathlib.Data.List.Perm.Basic

/-! Grouping values in a map ordered by key, as a row of entries, smallest key first. -/
namespace Groups

open Std

variable {K V : Type} [Ord K]

/-- The value joins the group of its key, at the end; a key that is new opens a group. -/
def push (k : K) (v : V) : List (K × List V) → List (K × List V)
  | [] => [(k, [v])]
  | (k', vs) :: rest =>
    match compare k k' with
    | .lt => (k, [v]) :: (k', vs) :: rest
    | .eq => (k', vs ++ [v]) :: rest
    | .gt => (k', vs) :: push k v rest

def group (keyOf : V → K) (vs : List V) : List (K × List V) :=
  vs.foldl (fun m v => push (keyOf v) v m) []

def Sorted (m : List (K × List V)) : Prop := m.Pairwise fun a b => compare a.1 b.1 = .lt

theorem group_concat (keyOf : V → K) (vs : List V) (v : V) :
    group keyOf (vs ++ [v]) = push (keyOf v) v (group keyOf vs) := by
  unfold group
  rw [List.foldl_append]
  rfl

theorem push_eq_upsert (k : K) (v : V) (m : List (K × List V)) :
    push k v m = KeyTable.upsert k [v] (· ++ [v]) m := by
  induction m with
  | nil => rfl
  | cons head rest ih =>
    cases order : compare k head.1 <;> simp [push, KeyTable.upsert, order, ih]

theorem mem_push {k : K} {v : V} {m : List (K × List V)} {entry : K × List V}
    (member : entry ∈ push k v m) :
    entry ∈ m ∨ entry = (k, [v]) ∨ ∃ vs, (entry.1, vs) ∈ m ∧ compare k entry.1 = .eq ∧
      entry.2 = vs ++ [v] := by
  rw [push_eq_upsert] at member
  exact KeyTable.mem_upsert member

theorem push_flatten (k : K) (v : V) (m : List (K × List V)) :
    ((push k v m).flatMap Prod.snd).Perm (v :: m.flatMap Prod.snd) := by
  induction m with
  | nil => exact List.Perm.refl _
  | cons head rest ih =>
    obtain ⟨k', vs⟩ := head
    unfold push
    cases compare k k' with
    | lt => exact List.Perm.refl _
    | eq =>
      show ((vs ++ [v]) ++ rest.flatMap Prod.snd).Perm (v :: (vs ++ rest.flatMap Prod.snd))
      rw [List.append_assoc]
      exact List.perm_middle
    | gt =>
      show (vs ++ (push k v rest).flatMap Prod.snd).Perm (v :: (vs ++ rest.flatMap Prod.snd))
      exact (ih.append_left vs).trans List.perm_middle

section Ordered

variable [TransOrd K]

theorem push_sorted (k : K) (v : V) {m : List (K × List V)} (sorted : Sorted m) :
    Sorted (push k v m) := by
  rw [push_eq_upsert]
  exact KeyTable.upsert_sorted k _ _ sorted

theorem group_sorted (keyOf : V → K) (vs : List V) : Sorted (group keyOf vs) := by
  induction vs using List.reverseRecOn with
  | nil => exact List.Pairwise.nil
  | append_singleton vs v ih =>
    rw [group_concat]
    exact push_sorted _ _ ih

end Ordered

theorem group_flatten (keyOf : V → K) (vs : List V) :
    ((group keyOf vs).flatMap Prod.snd).Perm vs := by
  induction vs using List.reverseRecOn with
  | nil => exact List.Perm.refl _
  | append_singleton vs v ih =>
    rw [group_concat]
    exact (push_flatten _ _ _).trans ((ih.cons v).trans (List.perm_append_singleton v vs).symm)

theorem group_nonempty {keyOf : V → K} {vs : List V} {entry : K × List V}
    (member : entry ∈ group keyOf vs) : entry.2 ≠ [] := by
  induction vs using List.reverseRecOn generalizing entry with
  | nil => cases member
  | append_singleton vs v ih =>
    rw [group_concat] at member
    obtain old | rfl | ⟨ws, -, -, joined⟩ := mem_push member
    · exact ih old
    · exact List.cons_ne_nil _ _
    · rw [joined]
      exact List.append_ne_nil_of_right_ne_nil _ (List.cons_ne_nil _ _)

theorem group_keyed {keyOf : V → K} {vs : List V}
    (separate : ∀ v ∈ vs, ∀ w ∈ vs, compare (keyOf v) (keyOf w) = .eq → keyOf v = keyOf w)
    {entry : K × List V} (member : entry ∈ group keyOf vs) : ∀ v ∈ entry.2, keyOf v = entry.1 := by
  induction vs using List.reverseRecOn generalizing entry with
  | nil => cases member
  | append_singleton vs v ih =>
    have earlier : ∀ {entry}, entry ∈ group keyOf vs → ∀ v ∈ entry.2, keyOf v = entry.1 :=
      ih fun v memberV w memberW =>
        separate v (List.mem_append_left _ memberV) w (List.mem_append_left _ memberW)
    rw [group_concat] at member
    obtain old | rfl | ⟨ws, found, same, joined⟩ := mem_push member
    · exact earlier old
    · intro w inside
      rw [List.mem_singleton.mp inside]
    · obtain ⟨w, inside⟩ := List.exists_mem_of_ne_nil ws (group_nonempty found)
      have key := earlier found w inside
      have known : w ∈ vs := (group_flatten keyOf vs).mem_iff.mp
        (List.mem_flatMap.mpr ⟨_, found, inside⟩)
      intro u member
      rw [joined] at member
      obtain old | new := List.mem_append.mp member
      · exact earlier found u old
      · rw [List.mem_singleton.mp new, ← key]
        rw [← key] at same
        exact separate v (List.mem_append_right _ List.mem_cons_self) w
          (List.mem_append_left _ known) same

/-- Entries with ascending keys, none of them empty, each with the values of its key. -/
structure Row (keyOf : V → K) (m : List (K × List V)) : Prop where
  sorted : Sorted m
  nonempty : ∀ entry ∈ m, entry.2 ≠ []
  keyed : ∀ entry ∈ m, ∀ v ∈ entry.2, keyOf v = entry.1

section Unique

variable {keyOf : V → K}

theorem Row.tail {head : K × List V} {m : List (K × List V)} (row : Row keyOf (head :: m)) :
    Row keyOf m where
  sorted := (List.pairwise_cons.mp row.sorted).2
  nonempty := fun entry member => row.nonempty entry (List.mem_cons_of_mem _ member)
  keyed := fun entry member => row.keyed entry (List.mem_cons_of_mem _ member)

theorem Row.head_le {k k' : K} {vs vs' : List V} {m m' : List (K × List V)}
    (row : Row keyOf ((k, vs) :: m)) (row' : Row keyOf ((k', vs') :: m'))
    (within : ∀ v ∈ vs, v ∈ (((k', vs') :: m').flatMap Prod.snd)) :
    k = k' ∨ compare k' k = .lt := by
  obtain ⟨v, inside⟩ := List.exists_mem_of_ne_nil vs (row.nonempty _ List.mem_cons_self)
  have key : keyOf v = k := row.keyed _ List.mem_cons_self v inside
  obtain ⟨entry, member, found⟩ := List.mem_flatMap.mp (within v inside)
  have key' := row'.keyed entry member v found
  obtain rfl | later := List.mem_cons.mp member
  · exact Or.inl (key.symm.trans key')
  · have above := (List.pairwise_cons.mp row'.sorted).1 entry later
    rw [← key', key] at above
    exact Or.inr above

variable [TransOrd K]

theorem Row.filter_head {k : K} {vs : List V} {m : List (K × List V)}
    (row : Row keyOf ((k, vs) :: m)) :
    (((k, vs) :: m).flatMap Prod.snd).filter (fun v => compare (keyOf v) k == .eq) = vs := by
  have here : vs.filter (fun v => compare (keyOf v) k == .eq) = vs := by
    rw [List.filter_eq_self]
    intro v member
    rw [row.keyed _ List.mem_cons_self v member, beq_iff_eq]
    exact ReflCmp.compare_self
  have later : (m.flatMap Prod.snd).filter (fun v => compare (keyOf v) k == .eq) = [] := by
    rw [List.filter_eq_nil_iff]
    intro v member same
    obtain ⟨entry, inside, found⟩ := List.mem_flatMap.mp member
    have above := (List.pairwise_cons.mp row.sorted).1 entry inside
    rw [row.keyed entry (List.mem_cons_of_mem _ inside) v found, beq_iff_eq] at same
    rw [OrientedCmp.eq_comm.mp same] at above
    cases above
  rw [List.flatMap_cons, List.filter_append, here, later, List.append_nil]

theorem Row.unique {m m' : List (K × List V)} (row : Row keyOf m) (row' : Row keyOf m')
    (same : (m.flatMap Prod.snd).Perm (m'.flatMap Prod.snd)) :
    List.Forall₂ (fun a b => a.1 = b.1 ∧ a.2.Perm b.2) m m' := by
  induction m generalizing m' with
  | nil =>
    cases m' with
    | nil => exact List.Forall₂.nil
    | cons head' rest' =>
      have nothing := List.nil_perm.mp same
      exact absurd (List.append_eq_nil_iff.mp nothing).1 (row'.nonempty _ List.mem_cons_self)
  | cons head rest ih =>
    cases m' with
    | nil =>
      have nothing := List.perm_nil.mp same
      exact absurd (List.append_eq_nil_iff.mp nothing).1 (row.nonempty _ List.mem_cons_self)
    | cons head' rest' =>
      obtain ⟨k, vs⟩ := head
      obtain ⟨k', vs'⟩ := head'
      have keys : k = k' := by
        have below := row.head_le row' fun v member =>
          same.mem_iff.mp (List.mem_append_left _ member)
        have above := row'.head_le row fun v member =>
          same.mem_iff.mpr (List.mem_append_left _ member)
        obtain equal | lower := below
        · exact equal
        · obtain equal | higher := above
          · exact equal.symm
          · rw [OrientedCmp.gt_of_lt lower] at higher
            cases higher
      subst keys
      have groups : vs.Perm vs' := by
        have filtered := same.filter (fun v => compare (keyOf v) k == .eq)
        rwa [row.filter_head, row'.filter_head] at filtered
      have rests : (rest.flatMap Prod.snd).Perm (rest'.flatMap Prod.snd) :=
        (List.perm_append_left_iff vs').mp ((groups.symm.append_right _).trans same)
      exact List.Forall₂.cons ⟨rfl, groups⟩ (ih row.tail row'.tail rests)

end Unique

end Groups
