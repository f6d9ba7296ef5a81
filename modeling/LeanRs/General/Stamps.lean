import Mathlib.Data.List.Perm.Subperm

/-! Items that carry the time of their last change. How many there are and how new the newest is
says whether there was a change, as long as what is new is newer than everything before. -/
namespace Stamps

variable {A : Type} (stamp : A → Int)

/-- The newest stamp, where those before the epoch count as the epoch. -/
def newest (items : List A) : Nat := items.foldr (fun a latest => max (stamp a).toNat latest) 0

/-- What is there afterwards was there before, or is newer than the clock was. -/
def Since (clock : Int) (before after : List A) : Prop :=
  ∀ a ∈ after, a ∈ before ∨ clock < stamp a

def Elapsed (clock : Int) (items : List A) : Prop := ∀ a ∈ items, stamp a ≤ clock

variable {stamp}

theorem newest_le_iff {items : List A} {n : Nat} :
    newest stamp items ≤ n ↔ ∀ a ∈ items, (stamp a).toNat ≤ n := by
  induction items with
  | nil => exact ⟨fun _ _ member => absurd member List.not_mem_nil, fun _ => Nat.zero_le _⟩
  | cons a rest ih =>
    rw [List.forall_mem_cons, ← ih]
    exact Nat.max_le

theorem le_newest {items : List A} {a : A} (member : a ∈ items) :
    (stamp a).toNat ≤ newest stamp items := newest_le_iff.mp (Nat.le_refl _) a member

theorem newest_le {clock : Int} {items : List A} (elapsed : Elapsed stamp clock items) :
    newest stamp items ≤ clock.toNat :=
  newest_le_iff.mpr fun a member => Int.toNat_le_toNat (elapsed a member)

theorem Since.refl (clock : Int) (items : List A) : Since stamp clock items items :=
  fun _ member => .inl member

theorem Since.trans {clock clock' : Int} {first second third : List A} (later : clock ≤ clock')
    (one : Since stamp clock first second) (two : Since stamp clock' second third) :
    Since stamp clock first third := by
  intro a member
  obtain old | new := two a member
  · exact one a old
  · exact .inr (Int.lt_of_le_of_lt later new)

theorem Since.elapsed {clock clock' : Int} {before after : List A} (later : clock ≤ clock')
    (since : Since stamp clock before after) (elapsed : Elapsed stamp clock before)
    (new : ∀ a ∈ after, clock < stamp a → stamp a ≤ clock') : Elapsed stamp clock' after := by
  intro a member
  obtain old | fresh := since a member
  · exact Int.le_trans (elapsed a old) later
  · exact new a member fresh

theorem Since.perm {clock : Int} {before after : List A} (epoch : 0 ≤ clock)
    (since : Since stamp clock before after) (elapsed : Elapsed stamp clock before)
    (distinct : after.Nodup) (size : after.length = before.length)
    (same : newest stamp after = newest stamp before) : after.Perm before := by
  have kept : after ⊆ before := by
    intro a member
    obtain old | new := since a member
    · exact old
    · have above : clock.toNat < (stamp a).toNat := by omega
      have below : (stamp a).toNat ≤ clock.toNat :=
        Nat.le_trans (le_newest member) (same ▸ newest_le elapsed)
      exact absurd above (Nat.not_lt_of_le below)
  exact (List.subperm_of_subset distinct kept).perm_of_length_le (Nat.le_of_eq size.symm)

end Stamps
