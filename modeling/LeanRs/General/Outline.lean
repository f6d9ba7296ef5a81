import Mathlib.Data.List.Basic

/-! Pieces that are joined at a mark after every mark inside them has been doubled: which lists of
pieces read alike once they are joined. -/
namespace Outline

variable {A : Type} [DecidableEq A] (mark : A)

/-- The letters other than the mark, each with the weight of the marks before it, and the weight of
the marks behind the last one. -/
abbrev Weights (A : Type) := List (Nat × A) × Nat

/-- The letters of the pieces, and `none` where one piece ends and the next begins. -/
def tokens (pieces : List (List A)) : List (Option A) :=
  [none].intercalate (pieces.map fun piece => piece.map some)

def weigh : Nat → List (Option A) → Weights A
  | w, [] => ([], w)
  | w, none :: rest => weigh (w + 1) rest
  | w, some c :: rest =>
    if c = mark then weigh (w + 2) rest
    else ((w, c) :: (weigh 0 rest).1, (weigh 0 rest).2)

def outline (pieces : List (List A)) : Weights A := weigh mark 0 (tokens pieces)

def doubled (piece : List A) : List A :=
  piece.flatMap fun c => if c = mark then [mark, mark] else [c]

def joined (pieces : List (List A)) : List A := [mark].intercalate (pieces.map (doubled mark))

def weighText : Nat → List A → Weights A
  | w, [] => ([], w)
  | w, c :: rest =>
    if c = mark then weighText (w + 1) rest
    else ((w, c) :: (weighText 0 rest).1, (weighText 0 rest).2)

def textOf (weights : Weights A) : List A :=
  (weights.1.flatMap fun pair => List.replicate pair.1 mark ++ [pair.2]) ++
    List.replicate weights.2 mark

theorem textOf_weighText (w : Nat) (text : List A) :
    textOf mark (weighText mark w text) = List.replicate w mark ++ text := by
  induction text generalizing w with
  | nil => simp [weighText, textOf]
  | cons c rest ih =>
    by_cases same : c = mark
    · rw [weighText, if_pos same, ih, List.replicate_succ', List.append_assoc, same]
      rfl
    · have later := ih 0
      simp only [textOf, List.replicate_zero, List.nil_append] at later
      simp only [weighText, if_neg same, textOf, List.flatMap_cons, List.append_assoc, later]
      rfl

theorem weighText_injective {first second : List A}
    (same : weighText mark 0 first = weighText mark 0 second) : first = second := by
  have texts := congrArg (textOf mark) same
  rwa [textOf_weighText, textOf_weighText] at texts

def spelled : Option A → List A
  | none => [mark]
  | some c => doubled mark [c]

theorem weighText_spelled (w : Nat) (ts : List (Option A)) :
    weighText mark w (ts.flatMap (spelled mark)) = weigh mark w ts := by
  induction ts generalizing w with
  | nil => rfl
  | cons t rest ih =>
    rw [List.flatMap_cons]
    cases t with
    | none => simp [spelled, weighText, weigh, ih]
    | some c =>
      by_cases same : c = mark
      · simp [spelled, doubled, weighText, weigh, same, ih]
      · simp [spelled, doubled, weighText, weigh, same, ih]

theorem doubled_eq (piece : List A) :
    (piece.map some).flatMap (spelled mark) = doubled mark piece := by
  induction piece with
  | nil => rfl
  | cons c rest ih =>
    rw [List.map_cons, List.flatMap_cons, ih]
    simp [spelled, doubled]

theorem joined_eq (pieces : List (List A)) :
    (tokens pieces).flatMap (spelled mark) = joined mark pieces := by
  unfold tokens joined
  induction pieces with
  | nil => rfl
  | cons piece rest ih =>
    cases rest with
    | nil => simpa using doubled_eq mark piece
    | cons next rest =>
      simp only [List.map_cons, List.intercalate_cons_cons, List.flatMap_append,
        doubled_eq] at ih ⊢
      rw [ih]
      rfl

/-- Two lists of pieces are joined to the same text exactly if they have the same letters with
the same weights between them. -/
theorem joined_eq_iff (xs ys : List (List A)) :
    joined mark xs = joined mark ys ↔ outline mark xs = outline mark ys := by
  have read (pieces : List (List A)) :
      weighText mark 0 (joined mark pieces) = outline mark pieces := by
    rw [← joined_eq, weighText_spelled, outline]
  constructor
  · intro same
    rw [← read, ← read, same]
  · intro same
    rw [← read, ← read] at same
    exact weighText_injective mark same

theorem joined_cons_ne {x : List A} {xs : List (List A)} (nonempty : xs ≠ []) :
    joined mark (x :: xs) ≠ joined mark xs := by
  intro same
  have lengths := congrArg List.length same
  cases xs with
  | nil => exact nonempty rfl
  | cons y ys =>
    simp only [joined, List.map_cons, List.intercalate_cons_cons, List.length_append,
      List.length_singleton] at lengths
    omega

end Outline
