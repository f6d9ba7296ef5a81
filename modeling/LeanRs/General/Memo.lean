import Mathlib.Data.List.Basic

/-! A function with a table of the values it has already given. -/
namespace Memo

variable {A B : Type} [DecidableEq A]

/-- The value for a key, from the table if it is there, and the table after the call. -/
def fetch (f : A → B) (cache : List (A × B)) (a : A) : B × List (A × B) :=
  match cache.lookup a with
  | some b => (b, cache)
  | none => (f a, (a, f a) :: cache)

def Sound (f : A → B) (cache : List (A × B)) : Prop :=
  ∀ a b, cache.lookup a = some b → b = f a

variable {f : A → B} {cache : List (A × B)}

theorem sound_nil : Sound f [] := nofun

theorem Sound.cons (sound : Sound f cache) (a : A) : Sound f ((a, f a) :: cache) := by
  intro key b found
  rw [List.lookup_cons] at found
  cases same : key == a with
  | true =>
    rw [same] at found
    cases found
    rw [beq_iff_eq.mp same]
  | false =>
    rw [same] at found
    exact sound key b found

theorem Sound.fetch (sound : Sound f cache) (a : A) :
    (Memo.fetch f cache a).1 = f a ∧ Sound f (Memo.fetch f cache a).2 := by
  unfold Memo.fetch
  split
  · rename_i b found
    exact ⟨sound a b found, sound⟩
  · exact ⟨rfl, sound.cons a⟩

end Memo
