import Mathlib.Data.List.MinMax

/-! The first least element of a list, as a walk over the list with one best entry finds it. -/
namespace Selection

variable {α β : Type} [LinearOrder β] {f : α → β} {l : List α} {a : α}

theorem argmin_split (found : l.argmin f = some a) :
    ∃ before after, l = before ++ a :: after ∧ (∀ b ∈ before, f a < f b) ∧
      ∀ b ∈ after, f a ≤ f b := by
  induction l generalizing a with
  | nil => cases found
  | cons head tail ih =>
    rw [List.argmin_cons] at found
    cases rest : tail.argmin f with
    | none =>
      rw [rest] at found
      obtain rfl := Option.some.inj found
      exact ⟨[], [], by rw [List.argmin_eq_none.mp rest]; rfl, nofun, nofun⟩
    | some c =>
      rw [rest] at found
      dsimp only at found
      by_cases less : f c < f head
      · rw [if_pos less] at found
        obtain rfl := Option.some.inj found
        obtain ⟨before, after, split, first, least⟩ := ih rest
        refine ⟨head :: before, after, congrArg (head :: ·) split, ?_, least⟩
        intro b member
        obtain rfl | member := List.mem_cons.mp member
        · exact less
        · exact first b member
      · rw [if_neg less] at found
        obtain rfl := Option.some.inj found
        refine ⟨[], tail, rfl, nofun, fun b member => ?_⟩
        exact le_trans (not_lt.mp less) (List.le_of_mem_argmin member rest)

/-- Whatever has the property loses: against an earlier entry that is no worse, or against a later
one that is better. -/
def Beaten (f : α → β) (bad : α → Prop) (l : List α) : Prop :=
  ∀ before m after, l = before ++ m :: after → bad m →
    ∃ n, n ∈ before ∧ f n ≤ f m ∨ n ∈ after ∧ f n < f m

theorem beaten_of_argmin {bad : α → Prop} (chosen : ∀ a, l.argmin f = some a → ¬bad a) :
    Beaten f bad l := by
  intro before m after split isBad
  obtain ⟨a, found⟩ : ∃ a, l.argmin f = some a := by
    cases found : l.argmin f with
    | none => rw [List.argmin_eq_none.mp found] at split; cases before <;> cases split
    | some a => exact ⟨a, rfl⟩
  have isGood := chosen a found
  have least : f a ≤ f m := List.le_of_mem_argmin (by rw [split]; simp) found
  refine ⟨a, ?_⟩
  by_cases earlier : a ∈ before
  · exact Or.inl ⟨earlier, least⟩
  · obtain ⟨first, rest, same, greater, -⟩ := argmin_split found
    have member : a ∈ after := by
      have inside := List.argmin_mem found
      rw [split] at inside
      obtain inside | inside := List.mem_append.mp inside
      · exact absurd inside earlier
      · obtain rfl | inside := List.mem_cons.mp inside
        · exact absurd isBad isGood
        · exact inside
    refine Or.inr ⟨member, greater m ?_⟩
    -- the first occurrence of the chosen one lies behind the other
    rw [split] at same
    obtain ⟨more, front, back⟩ | ⟨more, front, back⟩ := List.append_eq_append_iff.mp same
    · cases more with
      | nil => exact absurd isBad ((List.cons.inj back).1 ▸ isGood)
      | cons head more => rw [front, (List.cons.inj back).1]; simp
    · cases more with
      | nil => exact absurd isBad ((List.cons.inj back).1 ▸ isGood)
      | cons head more =>
        refine absurd ?_ earlier
        rw [front, (List.cons.inj back).1]
        simp

theorem argmin_of_beaten {bad : α → Prop} (beaten : Beaten f bad l)
    (found : l.argmin f = some a) : ¬bad a := by
  obtain ⟨before, after, split, greater, least⟩ := argmin_split found
  intro isBad
  obtain ⟨n, ⟨earlier, le⟩ | ⟨later, lt⟩⟩ := beaten before a after split isBad
  · exact absurd (greater n earlier) (not_lt.mpr le)
  · exact absurd (least n later) (not_le.mpr lt)

theorem argmin_not_iff {bad : α → Prop} :
    (∀ a, l.argmin f = some a → ¬bad a) ↔ Beaten f bad l :=
  ⟨beaten_of_argmin, fun beaten _ found => argmin_of_beaten beaten found⟩

def keepBetter (f : α → β) (best? : Option α) (candidate : α) : Option α :=
  match best? with
  | none => some candidate
  | some best => if f candidate < f best then some candidate else best?

theorem foldl_keepBetter (l : List α) : l.foldl (keepBetter f) none = l.argmin f := by
  have same : keepBetter f = List.argAux fun b c => f b < f c := by
    funext best? candidate
    cases best? <;> rfl
  rw [same]
  rfl

theorem foldl_picks {pick : Option α → α → Option α}
    (picks : ∀ best? candidate,
      pick best? candidate = best? ∨ pick best? candidate = some candidate)
    {l : List α} {best? : Option α} (found : l.foldl pick best? = some a) :
    best? = some a ∨ a ∈ l := by
  induction l generalizing best? with
  | nil => exact .inl found
  | cons candidate rest ih =>
    obtain kept | later := ih found
    · obtain same | same := picks best? candidate
      · exact .inl (same ▸ kept)
      · rw [same] at kept
        exact .inr (Option.some.inj kept ▸ List.mem_cons_self)
    · exact .inr (List.mem_cons_of_mem _ later)

end Selection
