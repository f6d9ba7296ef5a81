import Mathlib.Data.List.Sort

/-! Sorting an array in place: the range is split at the median of three of its entries, and both
sides are sorted in turn. -/
namespace QuickSort

variable {A : Type} {n : Nat}

/-- Entries from `lo` before `i` are below the pivot, those from `i` before `k` are not. -/
def partitionLoop (lt : A → A → Bool) (lo hi : Nat) (top : hi < n) (pivot : A) (as : Vector A n)
    (i k : Nat) (low : lo ≤ i) (mid : i ≤ k) (high : k ≤ hi) :
    {m : Nat // lo ≤ m ∧ m ≤ hi} × Vector A n :=
  if inside : k < hi then
    if lt as[k] pivot then
      partitionLoop lt lo hi top pivot (as.swap i k) (i + 1) (k + 1) (by omega) (by omega) inside
    else partitionLoop lt lo hi top pivot as i (k + 1) low (by omega) inside
  else (⟨i, low, by omega⟩, as.swap i hi)
termination_by hi - k

def medianLast (lt : A → A → Bool) (as : Vector A n) (lo mid hi : Nat) (low : lo < n)
    (half : mid < n) (top : hi < n) : Vector A n :=
  let as := if lt as[mid] as[lo] then as.swap lo mid else as
  let as := if lt as[hi] as[lo] then as.swap lo hi else as
  if lt as[mid] as[hi] then as.swap mid hi else as

def qpartition (as : Vector A n) (lt : A → A → Bool) (lo hi : Nat) (w : lo ≤ hi) (top : hi < n) :
    {m : Nat // lo ≤ m ∧ m ≤ hi} × Vector A n :=
  let as := medianLast lt as lo ((lo + hi) / 2) hi (by omega) (by omega) top
  partitionLoop lt lo hi top as[hi] as lo lo (Nat.le_refl lo) (Nat.le_refl lo) w

def sort (lt : A → A → Bool) (as : Vector A n) (lo hi : Nat) (w : lo ≤ hi) (top : hi < n) :
    Vector A n :=
  if lo < hi then
    match qpartition as lt lo hi w top with
    | (⟨mid, bounds⟩, as) =>
      if _ : mid ≥ hi then as
      else
        sort lt (sort lt as lo mid bounds.1 (by omega)) (mid + 1) hi (by omega) top
  else as
termination_by hi - lo

def qsort (as : Array A) (lt : A → A → Bool) : Array A :=
  if empty : as.size = 0 then as
  else (sort lt as.toVector 0 (as.size - 1) (Nat.zero_le _) (by omega)).toArray

structure Rearranged (lo hi : Nat) (as bs : Vector A n) : Prop where
  perm : bs.Perm as
  outside : ∀ k (h : k < n), k < lo ∨ hi < k → bs[k] = as[k]
  inside : ∀ k (h : k < n), lo ≤ k → k ≤ hi →
    ∃ j, ∃ h' : j < n, lo ≤ j ∧ j ≤ hi ∧ bs[k] = as[j]

namespace Rearranged

variable {lo hi : Nat} {as bs cs : Vector A n}

theorem refl : Rearranged lo hi as as where
  perm := Vector.Perm.refl as
  outside _ _ _ := rfl
  inside k h low high := ⟨k, h, low, high, rfl⟩

theorem trans (first : Rearranged lo hi as bs) (second : Rearranged lo hi bs cs) :
    Rearranged lo hi as cs where
  perm := second.perm.trans first.perm
  outside k h out := (second.outside k h out).trans (first.outside k h out)
  inside k h low high := by
    obtain ⟨j, hj, lowj, highj, same⟩ := second.inside k h low high
    obtain ⟨i, hi', lowi, highi, same'⟩ := first.inside j hj lowj highj
    exact ⟨i, hi', lowi, highi, same.trans same'⟩

theorem widen {lo' hi' : Nat} (moved : Rearranged lo hi as bs) (low : lo' ≤ lo) (high : hi ≤ hi') :
    Rearranged lo' hi' as bs where
  perm := moved.perm
  outside k h out := moved.outside k h (by omega)
  inside k h lowk highk := by
    by_cases within : lo ≤ k ∧ k ≤ hi
    · obtain ⟨j, hj, lowj, highj, same⟩ := moved.inside k h within.1 within.2
      exact ⟨j, hj, by omega, by omega, same⟩
    · exact ⟨k, h, lowk, highk, moved.outside k h (by omega)⟩

theorem swap {i j : Nat} (lowi : lo ≤ i) (highi : i ≤ hi) (lowj : lo ≤ j) (highj : j ≤ hi)
    (hi' : i < n) (hj : j < n) : Rearranged lo hi as (as.swap i j) where
  perm := Vector.swap_perm hi' hj
  outside k h out := by
    rw [Vector.getElem_swap hi' hj h, if_neg (by omega), if_neg (by omega)]
  inside k h low high := by
    rw [Vector.getElem_swap hi' hj h]
    by_cases first : k = i
    · rw [if_pos first]
      exact ⟨j, hj, lowj, highj, rfl⟩
    · rw [if_neg first]
      by_cases second : k = j
      · rw [if_pos second]
        exact ⟨i, hi', lowi, highi, rfl⟩
      · rw [if_neg second]
        exact ⟨k, h, low, high, rfl⟩

theorem swapIf {i j : Nat} (c : Bool) (lowi : lo ≤ i) (highi : i ≤ hi) (lowj : lo ≤ j)
    (highj : j ≤ hi) (hi' : i < n) (hj : j < n) :
    Rearranged lo hi as (if c then as.swap i j else as) := by
  cases c with
  | false => exact refl
  | true => exact swap lowi highi lowj highj hi' hj

end Rearranged

variable {lt : A → A → Bool}

/-- The order in which entries that neither precede each other count as equal. -/
structure StrictWeak (lt : A → A → Bool) : Prop where
  asymm : ∀ a b, lt a b = true → lt b a = false
  trans : ∀ a b c, lt b a = false → lt c b = false → lt c a = false

theorem StrictWeak.irrefl (order : StrictWeak lt) (a : A) : lt a a = false := by
  cases same : lt a a with
  | false => rfl
  | true => rw [← same, order.asymm a a same]

/-- `m` stands between the entries below it and those that are not. -/
structure Partitioned (lt : A → A → Bool) (lo hi m : Nat) (as : Vector A n) : Prop where
  below : ∀ k (h : k < n) (hm : m < n), lo ≤ k → k < m → lt as[k] as[m] = true
  above : ∀ k (h : k < n) (hm : m < n), m < k → k ≤ hi → lt as[k] as[m] = false

structure LoopInv (lt : A → A → Bool) (lo hi : Nat) (pivot : A) (as : Vector A n) (i k : Nat) :
    Prop where
  pivotLast : ∀ h : hi < n, as[hi] = pivot
  below : ∀ j (h : j < n), lo ≤ j → j < i → lt as[j] pivot = true
  above : ∀ j (h : j < n), i ≤ j → j < k → lt as[j] pivot = false
  /-- Some entry before the last one is not below the pivot. -/
  stop : ∃ j, ∃ h : j < n, i ≤ j ∧ j < hi ∧ lt as[j] pivot = false

section Loop

variable {lo hi : Nat} {pivot : A} {as : Vector A n} {i k : Nat}

theorem LoopInv.keep (inv : LoopInv lt lo hi pivot as i k) (hk : k < n)
    (notBelow : lt as[k] pivot = false) : LoopInv lt lo hi pivot as i (k + 1) where
  pivotLast := inv.pivotLast
  below := inv.below
  above j h low high := by
    by_cases last : j = k
    · subst last
      exact notBelow
    · exact inv.above j h low (by omega)
  stop := inv.stop

theorem LoopInv.swap (inv : LoopInv lt lo hi pivot as i k) (mid : i ≤ k) (inside : k < hi)
    (bound : k < n) (isBelow : lt as[k] pivot = true) :
    LoopInv lt lo hi pivot (as.swap i k (by omega) (by omega)) (i + 1) (k + 1) where
  pivotLast h := by
    rw [Vector.getElem_swap _ _ h, if_neg (by omega), if_neg (by omega)]
    exact inv.pivotLast h
  below j h low high := by
    rw [Vector.getElem_swap _ _ h]
    by_cases first : j = i
    · rw [if_pos first]
      exact isBelow
    · rw [if_neg first, if_neg (by omega)]
      exact inv.below j h low (by omega)
  above j h low high := by
    rw [Vector.getElem_swap _ _ h, if_neg (by omega)]
    by_cases second : j = k
    · rw [if_pos second]
      exact inv.above i (by omega) (Nat.le_refl i) (by omega)
    · rw [if_neg second]
      exact inv.above j h (by omega) (by omega)
  stop := by
    obtain ⟨j, h, low, high, notBelow⟩ := inv.stop
    have other : j ≠ k := by
      rintro rfl
      rw [isBelow] at notBelow
      cases notBelow
    by_cases first : j = i
    · subst first
      refine ⟨k, by omega, by omega, inside, ?_⟩
      rw [Vector.getElem_swap_right]
      exact notBelow
    · refine ⟨j, h, by omega, high, ?_⟩
      rw [Vector.getElem_swap _ _ h, if_neg first, if_neg other]
      exact notBelow

theorem LoopInv.finish (inv : LoopInv lt lo hi pivot as i hi) (mid : i ≤ hi) (top : hi < n) :
    i < hi ∧ Partitioned lt lo hi i (as.swap i hi (by omega) top) := by
  obtain ⟨stop, -, lowStop, highStop, -⟩ := inv.stop
  have inside : i < hi := by omega
  refine ⟨inside, fun k h hm lowk highk => ?_, fun k h hm lowk highk => ?_⟩
  · rw [Vector.getElem_swap_left, inv.pivotLast top, Vector.getElem_swap _ _ h,
      if_neg (by omega), if_neg (by omega)]
    exact inv.below k h lowk highk
  · rw [Vector.getElem_swap_left, inv.pivotLast top, Vector.getElem_swap _ _ h, if_neg (by omega)]
    by_cases last : k = hi
    · rw [if_pos last]
      exact inv.above i (by omega) (Nat.le_refl i) inside
    · rw [if_neg last]
      exact inv.above k h (by omega) (by omega)

theorem partitionLoop_spec (top : hi < n) (low : lo ≤ i) (mid : i ≤ k) (high : k ≤ hi)
    (inv : LoopInv lt lo hi pivot as i k) :
    Rearranged lo hi as (partitionLoop lt lo hi top pivot as i k low mid high).2 ∧
      (partitionLoop lt lo hi top pivot as i k low mid high).1.1 < hi ∧
      Partitioned lt lo hi (partitionLoop lt lo hi top pivot as i k low mid high).1.1
        (partitionLoop lt lo hi top pivot as i k low mid high).2 := by
  fun_induction partitionLoop lt lo hi top pivot as i k low mid high with
  | case1 as i k low mid high inside isBelow ih =>
    obtain ⟨moved, before, parts⟩ := ih (inv.swap mid inside (by omega) isBelow)
    have swapped : Rearranged lo hi as (as.swap i k) :=
      Rearranged.swap low (by omega) (by omega) (by omega) _ _
    exact ⟨swapped.trans moved, before, parts⟩
  | case2 as i k low mid high inside notBelow ih =>
    exact ih (inv.keep (by omega) (Bool.eq_false_iff.mpr notBelow))
  | case3 as i k low mid high inside =>
    obtain rfl : k = hi := by omega
    obtain ⟨before, parts⟩ := inv.finish mid top
    exact ⟨Rearranged.swap low mid (by omega) (Nat.le_refl _) (by omega) top, before, parts⟩

end Loop

theorem medianLast_spec (order : StrictWeak lt) {lo mid hi : Nat} (as : Vector A n) (low : lo ≤ mid)
    (inside : mid < hi) (top : hi < n) :
    Rearranged lo hi as (medianLast lt as lo mid hi (by omega) (by omega) top) ∧
      lt (medianLast lt as lo mid hi (by omega) (by omega) top)[mid]
        (medianLast lt as lo mid hi (by omega) (by omega) top)[hi] = false := by
  unfold medianLast
  dsimp only
  have first : Rearranged lo hi as (if lt as[mid] as[lo] then as.swap lo mid else as) :=
    Rearranged.swapIf _ (Nat.le_refl lo) (by omega) low (by omega) _ _
  generalize (if lt as[mid] as[lo] then as.swap lo mid else as) = bs at first ⊢
  have second : Rearranged lo hi bs (if lt bs[hi] bs[lo] then bs.swap lo hi else bs) :=
    Rearranged.swapIf _ (Nat.le_refl lo) (by omega) (by omega) (Nat.le_refl hi) _ _
  generalize (if lt bs[hi] bs[lo] then bs.swap lo hi else bs) = cs at second ⊢
  have third : Rearranged lo hi cs (if lt cs[mid] cs[hi] then cs.swap mid hi else cs) :=
    Rearranged.swapIf _ low (by omega) (by omega) (Nat.le_refl hi) _ _
  refine ⟨(first.trans second).trans third, ?_⟩
  cases swapped : lt cs[mid] cs[hi] with
  | false => simpa using swapped
  | true =>
    simp only [if_true, Vector.getElem_swap_left, Vector.getElem_swap_right]
    exact order.asymm _ _ swapped

theorem qpartition_spec (order : StrictWeak lt) {lo hi : Nat} (as : Vector A n) (w : lo ≤ hi)
    (top : hi < n) (nonempty : lo < hi) :
    Rearranged lo hi as (qpartition as lt lo hi w top).2 ∧
      (qpartition as lt lo hi w top).1.1 < hi ∧
      Partitioned lt lo hi (qpartition as lt lo hi w top).1.1 (qpartition as lt lo hi w top).2 := by
  have low : lo ≤ (lo + hi) / 2 := by omega
  have inside : (lo + hi) / 2 < hi := by omega
  obtain ⟨arranged, stop⟩ := medianLast_spec order as low inside top
  unfold qpartition
  dsimp only
  generalize medianLast lt as lo ((lo + hi) / 2) hi _ _ top = bs at arranged stop ⊢
  have start : LoopInv lt lo hi bs[hi] bs lo lo :=
    { pivotLast := fun _ => rfl
      below := fun _ _ _ _ => by omega
      above := fun _ _ _ _ => by omega
      stop := ⟨(lo + hi) / 2, by omega, low, inside, stop⟩ }
  obtain ⟨moved, before, parts⟩ :=
    partitionLoop_spec top (Nat.le_refl lo) (Nat.le_refl lo) w start
  exact ⟨arranged.trans moved, before, parts⟩

def SortedRange (lt : A → A → Bool) (lo hi : Nat) (as : Vector A n) : Prop :=
  ∀ j k (hj : j < n) (hk : k < n), lo ≤ j → j < k → k ≤ hi → lt as[k] as[j] = false

theorem SortedRange.join (order : StrictWeak lt) {lo hi m : Nat} {as bs cs : Vector A n}
    (bound : m < n) (parts : Partitioned lt lo hi m as) (left : Rearranged lo m as bs)
    (leftSorted : SortedRange lt lo m bs) (right : Rearranged (m + 1) hi bs cs)
    (rightSorted : SortedRange lt (m + 1) hi cs) : SortedRange lt lo hi cs := by
  intro j k hj hk low less high
  by_cases within : k ≤ m
  · rw [right.outside j hj (by omega), right.outside k hk (by omega)]
    exact leftSorted j k hj hk low less within
  · by_cases beyond : m + 1 ≤ j
    · exact rightSorted j k hj hk beyond less high
    · obtain ⟨a, ha, lowa, higha, samea⟩ := left.inside j hj low (by omega)
      obtain ⟨b, hb, lowb, highb, sameb⟩ := right.inside k hk (by omega) high
      rw [right.outside j hj (by omega), samea, sameb, left.outside b hb (by omega)]
      have above := parts.above b hb bound (by omega) highb
      have below : lt as[m] as[a] = false := by
        by_cases pivot : a = m
        · subst pivot
          exact order.irrefl _
        · exact order.asymm _ _ (parts.below a ha bound lowa (by omega))
      exact order.trans _ _ _ below above

theorem sort_spec (order : StrictWeak lt) {lo hi : Nat} (as : Vector A n) (w : lo ≤ hi)
    (top : hi < n) :
    Rearranged lo hi as (sort lt as lo hi w top) ∧
      SortedRange lt lo hi (sort lt as lo hi w top) := by
  fun_induction sort lt as lo hi w top with
  | case1 as lo hi w top nonempty mid bounds next split done =>
    have before := (qpartition_spec order as w top nonempty).2.1
    rw [split] at before
    exact absurd done (Nat.not_le_of_lt before)
  | case2 as lo hi w top nonempty mid bounds next split going ihLeft _ ihRight =>
    obtain ⟨moved, before, parts⟩ := qpartition_spec order as w top nonempty
    rw [split] at moved before parts
    dsimp only at moved before parts
    obtain ⟨left, leftSorted⟩ := ihLeft
    obtain ⟨right, rightSorted⟩ := ihRight
    exact ⟨(moved.trans (left.widen (Nat.le_refl lo) bounds.2)).trans
        (right.widen (by omega) (Nat.le_refl hi)),
      SortedRange.join order (by omega) parts left leftSorted right rightSorted⟩
  | case3 as lo hi w top empty =>
    exact ⟨Rearranged.refl, fun j k _ _ low less high => by omega⟩

theorem qsort_sorted (order : StrictWeak lt) (as : Array A) :
    (qsort as lt).toList.Perm as.toList ∧
      (qsort as lt).toList.Pairwise fun a b => lt b a = false := by
  unfold qsort
  split
  · rename_i empty
    have nil : as.toList = [] := by simpa using empty
    rw [nil]
    exact ⟨List.Perm.refl [], List.Pairwise.nil⟩
  · obtain ⟨moved, sorted⟩ := sort_spec order as.toVector (Nat.zero_le (as.size - 1)) (by omega)
    refine ⟨Array.perm_iff_toList_perm.mp moved.perm.toArray, ?_⟩
    rw [List.pairwise_iff_getElem]
    intro j k hj hk less
    simp only [Vector.toList_toArray, Vector.length_toList] at hj hk
    simpa using sorted j k hj hk (Nat.zero_le j) less (by omega)

theorem exists_perm_of_map {B : Type} {f : A → B} {sorted : List B} {entries : List A}
    (moved : sorted.Perm (entries.map f)) :
    ∃ ranked : List A, ranked.Perm entries ∧ ranked.map f = sorted := by
  generalize same : entries.map f = images at moved
  induction moved generalizing entries with
  | nil =>
    rw [List.map_eq_nil_iff] at same
    subst same
    exact ⟨[], List.Perm.refl [], rfl⟩
  | cons b _ ih =>
    obtain ⟨a, rest, rfl, rfl, below⟩ := List.map_eq_cons_iff.mp same
    obtain ⟨ranked, perm, rfl⟩ := ih below
    exact ⟨a :: ranked, perm.cons a, rfl⟩
  | swap b c rest =>
    obtain ⟨a, others, rfl, rfl, below⟩ := List.map_eq_cons_iff.mp same
    obtain ⟨a', others', rfl, rfl, rfl⟩ := List.map_eq_cons_iff.mp below
    exact ⟨a' :: a :: others', List.Perm.swap a a' others', rfl⟩
  | trans _ _ first second =>
    obtain ⟨ranked, perm, mapped⟩ := second same
    obtain ⟨ranked', perm', mapped'⟩ := first mapped
    exact ⟨ranked', perm'.trans perm, mapped'⟩

end QuickSort
