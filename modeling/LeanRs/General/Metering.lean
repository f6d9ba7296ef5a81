import Mathlib.Data.List.Basic
import Mathlib.Algebra.Order.Ring.Int

/-! A list of entries under a budget. Each entry is reported while it fits; the first one that does
not uses the budget up, and what comes after it is skipped. -/
namespace Metering

inductive Mark where
  | reported
  | exceeded
  | skipped
  deriving DecidableEq

variable {A : Type} (cost : A → Nat) (total : Nat)

def meter : Nat → List A → List (Mark × A)
  | _, [] => []
  | spent, a :: rest =>
    if spent ≥ total then (.skipped, a) :: meter spent rest
    else if spent + cost a > total then (.exceeded, a) :: meter total rest
    else (.reported, a) :: meter (spent + cost a) rest

variable {cost total} {spent : Nat} {entries : List A}

theorem meter_entries : (meter cost total spent entries).map Prod.snd = entries := by
  induction entries generalizing spent with
  | nil => rfl
  | cons a rest ih =>
    unfold meter
    split
    · rw [List.map_cons, ih]
    · split
      · rw [List.map_cons, ih]
      · rw [List.map_cons, ih]

theorem meter_spent (full : spent ≥ total) :
    meter cost total spent entries = entries.map (Mark.skipped, ·) := by
  induction entries with
  | nil => rfl
  | cons a rest ih =>
    rw [meter, if_pos full, ih]
    rfl

def marked (mark : Mark) (metered : List (Mark × A)) : List A :=
  (metered.filter fun entry => entry.1 = mark).map Prod.snd

theorem marked_cons (mark other : Mark) (a : A) (rest : List (Mark × A)) :
    marked mark ((other, a) :: rest) =
      if other = mark then a :: marked mark rest else marked mark rest := by
  unfold marked
  rw [List.filter_cons]
  by_cases same : other = mark
  · rw [if_pos (by simpa using same), if_pos same]
    rfl
  · rw [if_neg (by simpa using same), if_neg same]

theorem marked_skipped (mark : Mark) (other : mark ≠ .skipped) (entries : List A) :
    marked mark (entries.map (Mark.skipped, ·)) = [] := by
  induction entries with
  | nil => rfl
  | cons a rest ih =>
    rw [List.map_cons, marked_cons, if_neg fun same => other same.symm, ih]

theorem reported_le (within : spent ≤ total) :
    spent + ((marked .reported (meter cost total spent entries)).map cost).sum ≤ total := by
  induction entries generalizing spent with
  | nil => exact within
  | cons a rest ih =>
    unfold meter
    split
    · rw [marked_cons, if_neg (by decide)]
      exact ih within
    · split
      · rw [marked_cons, if_neg (by decide), meter_spent (Nat.le_refl total),
          marked_skipped _ (by decide)]
        exact within
      · rename_i fits
        have later := @ih (spent + cost a) (Nat.le_of_not_gt fits)
        rw [marked_cons, if_pos rfl, List.map_cons, List.sum_cons]
        omega

theorem exceeded_le_one : (marked .exceeded (meter cost total spent entries)).length ≤ 1 := by
  induction entries generalizing spent with
  | nil => exact Nat.zero_le 1
  | cons a rest ih =>
    unfold meter
    split
    · rw [marked_cons, if_neg (by decide)]
      exact ih
    · split
      · rw [marked_cons, if_pos rfl, meter_spent (Nat.le_refl total), marked_skipped _ (by decide)]
        exact Nat.le_refl 1
      · rw [marked_cons, if_neg (by decide)]
        exact ih

theorem meter_reported {before after : List A} {a : A}
    (room : spent + (before.map cost).sum < total)
    (fits : spent + (before.map cost).sum + cost a ≤ total) :
    (meter cost total spent (before ++ a :: after))[before.length]? = some (.reported, a) := by
  induction before generalizing spent with
  | nil =>
    simp only [List.map_nil, List.sum_nil, Nat.add_zero] at room fits
    rw [List.nil_append, meter, if_neg (Nat.not_le_of_lt room), if_neg (Nat.not_lt_of_le fits)]
    rfl
  | cons b before ih =>
    rw [List.map_cons, List.sum_cons] at room fits
    rw [List.cons_append, meter, if_neg (by omega), if_neg (by omega), List.length_cons,
      List.getElem?_cons_succ]
    exact ih (by omega) (by omega)

theorem forall_split_cons {head : A} {rest : List A} {P : List A → A → Prop} :
    (∀ before a after, head :: rest = before ++ a :: after → P before a) ↔
      P [] head ∧ ∀ before a after, rest = before ++ a :: after → P (head :: before) a := by
  constructor
  · intro each
    exact ⟨each [] head rest rfl, fun before a after split =>
      each (head :: before) a after (by rw [split]; rfl)⟩
  · intro ⟨first, others⟩ before a after split
    cases before with
    | nil =>
      obtain ⟨rfl, -⟩ := List.cons.inj split
      exact first
    | cons b before =>
      obtain ⟨rfl, tail⟩ := List.cons.inj split
      exact others before a after tail

/-- What is reported and a part of what goes over the budget fit together exactly if that part fits
in what is left before it. -/
theorem reported_exceeded_le_iff (part : A → Nat) (within : spent ≤ total) :
    spent + ((marked .reported (meter cost total spent entries)).map cost).sum +
        ((marked .exceeded (meter cost total spent entries)).map part).sum ≤ total ↔
      ∀ before a after, entries = before ++ a :: after →
        spent + (before.map cost).sum < total → total < spent + (before.map cost).sum + cost a →
          spent + (before.map cost).sum + part a ≤ total := by
  induction entries generalizing spent with
  | nil =>
    constructor
    · intro _ before a after split
      cases before <;> cases split
    · intro _
      simpa [meter, marked] using within
  | cons head rest ih =>
    refine Iff.trans ?_ forall_split_cons.symm
    unfold meter
    by_cases full : spent ≥ total
    · rw [if_pos full, meter_spent full, marked_cons, marked_cons, if_neg (by decide),
        if_neg (by decide), marked_skipped _ (by decide), marked_skipped _ (by decide)]
      exact iff_of_true (by simpa using within)
        ⟨fun room => absurd room (by omega), fun _ _ _ _ room => absurd room (by omega)⟩
    · rw [if_neg full]
      by_cases large : spent + cost head > total
      · rw [if_pos large, meter_spent (Nat.le_refl total), marked_cons, marked_cons,
          if_neg (by decide), if_pos rfl, marked_skipped _ (by decide),
          marked_skipped _ (by decide)]
        constructor
        · intro fits
          refine ⟨fun _ _ => by simpa using fits, fun before a after _ room => ?_⟩
          rw [List.map_cons, List.sum_cons] at room
          omega
        · intro ⟨first, _⟩
          simpa using first (by simpa using Nat.lt_of_not_ge full) (by simpa using large)
      · have later := @ih (spent + cost head) (Nat.le_of_not_gt large)
        rw [if_neg large, marked_cons, marked_cons, if_pos rfl, if_neg (by decide),
          List.map_cons, List.sum_cons, ← Nat.add_assoc, later]
        simp only [List.map_cons, List.sum_cons, ← Nat.add_assoc]
        refine ⟨fun each => ⟨fun _ beyond => ?_, each⟩, fun ⟨_, each⟩ => each⟩
        exact absurd beyond large

/-! An entry that does not fit is refused alone: what comes after it is judged as if it had not been
there. -/

section Greedy

variable (cost total) (small : A → Bool)

def judge (spent : Nat) (a : A) : Mark :=
  if spent ≥ total then .skipped
  else if small a && spent + cost a ≤ total then .reported
  else .exceeded

def charge (mark : Mark) (a : A) : Nat := if mark = .reported then cost a else 0

def greedy : Nat → List A → List (Mark × A)
  | _, [] => []
  | spent, a :: rest =>
    let mark := judge cost total small spent a
    (mark, a) :: greedy (spent + charge cost mark a) rest

def reportedCost (metered : List (Mark × A)) : Nat := ((marked .reported metered).map cost).sum

variable {cost total small}

theorem greedy_entries (entries : List A) :
    (greedy cost total small spent entries).map Prod.snd = entries := by
  induction entries generalizing spent with
  | nil => rfl
  | cons a rest ih => simp [greedy, ih]

theorem reportedCost_cons (mark : Mark) (a : A) (rest : List (Mark × A)) :
    reportedCost cost ((mark, a) :: rest) = charge cost mark a + reportedCost cost rest := by
  unfold reportedCost charge
  rw [marked_cons]
  by_cases reported : mark = .reported
  · simp [reported]
  · simp [reported]

theorem greedy_append (before after : List A) :
    greedy cost total small spent (before ++ after) = greedy cost total small spent before ++
      greedy cost total small
        (spent + reportedCost cost (greedy cost total small spent before)) after := by
  induction before generalizing spent with
  | nil => simp [greedy, reportedCost, marked]
  | cons a rest ih =>
    simp only [List.cons_append, greedy, ih, reportedCost_cons]
    rw [Nat.add_assoc]

theorem charge_judge_le (within : spent ≤ total) (a : A) :
    spent + charge cost (judge cost total small spent a) a ≤ total := by
  unfold judge charge
  grind

theorem greedy_reported_le (within : spent ≤ total) (entries : List A) :
    spent + reportedCost cost (greedy cost total small spent entries) ≤ total := by
  induction entries generalizing spent with
  | nil => simpa [greedy, reportedCost, marked] using within
  | cons a rest ih =>
    have later := ih (@charge_judge_le A cost total spent small within a)
    rw [greedy, reportedCost_cons]
    omega

theorem greedy_mark (before after : List A) (a : A) :
    (greedy cost total small spent (before ++ a :: after))[before.length]? =
      some (judge cost total small
        (spent + reportedCost cost (greedy cost total small spent before)) a, a) := by
  have width : (greedy cost total small spent before).length = before.length := by
    rw [← List.length_map Prod.snd, greedy_entries]
  rw [greedy_append, List.getElem?_append_right (Nat.le_of_eq width), width, Nat.sub_self, greedy]
  rfl

end Greedy

end Metering
