import Mathlib.Data.List.Basic

/-! A queue of past times that is pruned from the front, and what it knows of all the times that
were ever admitted: how many of them lie in a window of fixed width, wherever the window ends. -/
namespace SlidingWindow

variable (window : Nat)

/-- What is left of the queue once the times have gone that lie a whole window before `now`. -/
def expire (now : Nat) (queue : List Nat) : List Nat :=
  queue.dropWhile fun t => window ≤ now - t

/-- The time lies in the window that ends at `t`, where the beginning is left out. -/
def within (t x : Nat) : Bool := x ≤ t && t < x + window

def count (t : Nat) (times : List Nat) : Nat := times.countP (within window t)

/-- The queue has what still counts of the admitted times, and no window has too many of them. -/
structure Tracks (limit latest : Nat) (queue admitted : List Nat) : Prop where
  sorted : admitted.Pairwise (· ≤ ·)
  past : ∀ x ∈ admitted, x ≤ latest
  kept : ∃ gone, admitted = gone ++ queue ∧ ∀ x ∈ gone, x + window ≤ latest
  length : queue.length ≤ limit
  rate : ∀ t, count window t admitted ≤ limit

variable {window} {limit latest now : Nat} {queue admitted : List Nat}

theorem within_iff {t x : Nat} : within window t x = true ↔ x ≤ t ∧ t < x + window := by
  unfold within
  rw [Bool.and_eq_true, decide_eq_true_eq, decide_eq_true_eq]

theorem expire_split (sorted : queue.Pairwise (· ≤ ·)) (past : ∀ x ∈ queue, x ≤ now) :
    ∃ gone, queue = gone ++ expire window now queue ∧ (∀ x ∈ gone, x + window ≤ now) ∧
      ∀ x ∈ expire window now queue, now < x + window := by
  induction queue with
  | nil => exact ⟨[], rfl, fun _ member => absurd member List.not_mem_nil, fun _ member =>
      absurd member List.not_mem_nil⟩
  | cons head rest ih =>
    obtain ⟨least, sorted⟩ := List.pairwise_cons.mp sorted
    have headPast : head ≤ now := past head List.mem_cons_self
    by_cases old : window ≤ now - head
    · obtain ⟨gone, split, before, after⟩ :=
        ih sorted fun x member => past x (List.mem_cons_of_mem head member)
      have dropped : expire window now (head :: rest) = expire window now rest := by
        simp [expire, old]
      refine ⟨head :: gone, ?_, ?_, dropped ▸ after⟩
      · rw [dropped, List.cons_append, ← split]
      · intro x member
        obtain rfl | member := List.mem_cons.mp member
        · omega
        · exact before x member
    · have stays : expire window now (head :: rest) = head :: rest := by
        simp [expire, old]
      refine ⟨[], ?_, fun _ member => absurd member List.not_mem_nil, ?_⟩
      · rw [stays, List.nil_append]
      · rw [stays]
        intro x member
        have later : head ≤ x := by
          obtain rfl | member := List.mem_cons.mp member
          · exact Nat.le_refl x
          · exact least x member
        omega

theorem count_append (t : Nat) (first second : List Nat) :
    count window t (first ++ second) = count window t first + count window t second :=
  List.countP_append

theorem count_eq_zero {t : Nat} {times : List Nat} (old : ∀ x ∈ times, x + window ≤ t) :
    count window t times = 0 := by
  apply List.countP_eq_zero.mpr
  intro x member inside
  have after := (within_iff.mp inside).2
  exact absurd after (Nat.not_lt_of_le (old x member))

theorem count_eq_length {t : Nat} {times : List Nat} (past : ∀ x ∈ times, x ≤ t)
    (young : ∀ x ∈ times, t < x + window) : count window t times = times.length := by
  apply List.countP_eq_length.mpr
  exact fun x member => within_iff.mpr ⟨past x member, young x member⟩

theorem count_le_of_le {t : Nat} {times : List Nat} (past : ∀ x ∈ times, x ≤ now)
    (later : now ≤ t) : count window t times ≤ count window now times := by
  apply List.countP_mono_left
  intro x member inside
  have after := (within_iff.mp inside).2
  exact within_iff.mpr ⟨past x member, Nat.lt_of_le_of_lt later after⟩

namespace Tracks

theorem queue_sorted (tracks : Tracks window limit latest queue admitted) :
    queue.Pairwise (· ≤ ·) := by
  obtain ⟨gone, split, -⟩ := tracks.kept
  exact (split ▸ tracks.sorted).sublist (List.sublist_append_right gone queue)

theorem queue_past (tracks : Tracks window limit latest queue admitted) :
    ∀ x ∈ queue, x ≤ latest := by
  obtain ⟨gone, split, -⟩ := tracks.kept
  exact fun x member => tracks.past x (split ▸ List.mem_append_right gone member)

theorem start (limit latest : Nat) : Tracks window limit latest [] [] where
  sorted := .nil
  past _ member := absurd member List.not_mem_nil
  kept := ⟨[], rfl, fun _ member => absurd member List.not_mem_nil⟩
  length := Nat.zero_le _
  rate _ := Nat.zero_le _

theorem expired (tracks : Tracks window limit latest queue admitted) (later : latest ≤ now) :
    Tracks window limit now (expire window now queue) admitted ∧
      count window now admitted = (expire window now queue).length := by
  obtain ⟨gone, split, old⟩ := tracks.kept
  have queuePast : ∀ x ∈ queue, x ≤ now := fun x member =>
    Nat.le_trans (tracks.queue_past x member) later
  obtain ⟨more, pruned, expired, young⟩ := @expire_split window now queue tracks.queue_sorted
    queuePast
  have gone' : ∀ x ∈ gone ++ more, x + window ≤ now := by
    intro x member
    obtain member | member := List.mem_append.mp member
    · exact Nat.le_trans (old x member) later
    · exact expired x member
  have split' : admitted = (gone ++ more) ++ expire window now queue := by
    rw [List.append_assoc, ← pruned]
    exact split
  have keptPast : ∀ x ∈ expire window now queue, x ≤ now := fun x member =>
    queuePast x ((List.dropWhile_suffix _).subset member)
  constructor
  · exact ⟨tracks.sorted, fun x member => Nat.le_trans (tracks.past x member) later,
      ⟨gone ++ more, split', gone'⟩,
      Nat.le_trans (List.dropWhile_suffix _).length_le tracks.length, tracks.rate⟩
  · rw [split', count_append, count_eq_zero gone', count_eq_length keptPast young, Nat.zero_add]

theorem admitted_now (tracks : Tracks window limit now queue admitted)
    (counted : count window now admitted = queue.length) (room : queue.length < limit) :
    Tracks window limit now (queue ++ [now]) (admitted ++ [now]) where
  sorted := List.pairwise_append.mpr ⟨tracks.sorted, List.pairwise_singleton _ _,
    fun x member y one => List.mem_singleton.mp one ▸ tracks.past x member⟩
  past x member := by
    obtain member | one := List.mem_append.mp member
    · exact tracks.past x member
    · exact Nat.le_of_eq (List.mem_singleton.mp one)
  kept := by
    obtain ⟨gone, split, old⟩ := tracks.kept
    exact ⟨gone, by rw [split, List.append_assoc], old⟩
  length := by
    rw [List.length_append, List.length_singleton]
    exact room
  rate t := by
    rw [count_append]
    by_cases before : t < now
    · have outside : count window t [now] = 0 := by
        apply List.countP_eq_zero.mpr
        intro x one inside
        rw [List.mem_singleton.mp one] at inside
        exact absurd (within_iff.mp inside).1 (Nat.not_le_of_lt before)
      rw [outside]
      exact tracks.rate t
    · have fewer : count window t admitted ≤ count window now admitted :=
        count_le_of_le tracks.past (Nat.le_of_not_lt before)
      have one : count window t [now] ≤ 1 := List.countP_le_length
      omega

end Tracks

end SlidingWindow
