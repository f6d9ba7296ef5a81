import Mathlib.Data.List.Basic
import Mathlib.Data.List.Count

/-! Lines and columns: where a cursor stands once it has read a text, and what a text before it,
or a break in another line, changes about that. Both are counted from one. -/
namespace TextCursor

def step (p : Nat × Nat) (c : Char) : Nat × Nat :=
  if c = '\n' then (p.1 + 1, 1) else (p.1, p.2 + 1)

def advance (p : Nat × Nat) (text : List Char) : Nat × Nat := text.foldl step p

def position (text : List Char) (n : Nat) : Nat × Nat := advance (1, 1) (text.take n)

theorem advance_append (p : Nat × Nat) (a b : List Char) :
    advance p (a ++ b) = advance (advance p a) b := List.foldl_append

theorem advance_plain {text : List Char} (plain : '\n' ∉ text) (p : Nat × Nat) :
    advance p text = (p.1, p.2 + text.length) := by
  induction text generalizing p with
  | nil => rfl
  | cons c rest ih =>
    obtain ⟨other, plain⟩ := not_or.mp (fun member => plain (List.mem_cons.mpr member))
    show advance (step p c) rest = _
    rw [ih plain, step, if_neg (Ne.symm other), List.length_cons]
    exact Prod.ext rfl (by omega)

theorem advance_line (p : Nat × Nat) (text : List Char) :
    (advance p text).1 = p.1 + text.count '\n' := by
  induction text generalizing p with
  | nil => rfl
  | cons c rest ih =>
    show (advance (step p c) rest).1 = _
    rw [ih, List.count_cons, step]
    split
    · rename_i newline
      rw [if_pos (beq_iff_eq.mpr newline)]
      omega
    · rename_i other
      rw [if_neg (fun same => other (beq_iff_eq.mp same))]
      rfl

def lastLine : List Char → List Char
  | [] => []
  | c :: rest => if '\n' ∈ rest then lastLine rest else if c = '\n' then rest else c :: rest

def lineStart (text : List Char) : Nat := text.length - (lastLine text).length

def AtLineStart (text : List Char) : Prop := text = [] ∨ ∃ before, text = before ++ ['\n']

theorem lastLine_plain (text : List Char) : '\n' ∉ lastLine text := by
  induction text with
  | nil => exact List.not_mem_nil
  | cons c rest ih =>
    unfold lastLine
    split
    · exact ih
    · rename_i plain
      split
      · exact plain
      · rename_i other
        exact fun member => (List.mem_cons.mp member).elim (Ne.symm other) plain

theorem exists_lastLine (text : List Char) :
    ∃ before, text = before ++ lastLine text ∧ AtLineStart before := by
  induction text with
  | nil => exact ⟨[], rfl, Or.inl rfl⟩
  | cons c rest ih =>
    unfold lastLine
    split
    · rename_i broken
      obtain ⟨before, split, start⟩ := ih
      obtain rfl | ⟨more, rfl⟩ := start
      · rw [split] at broken
        exact absurd broken (lastLine_plain rest)
      · exact ⟨c :: (more ++ ['\n']), congrArg (c :: ·) split, Or.inr ⟨c :: more, rfl⟩⟩
    · split
      · rename_i newline
        exact ⟨['\n'], congrArg (· :: rest) newline, Or.inr ⟨[], rfl⟩⟩
      · exact ⟨[], rfl, Or.inl rfl⟩

theorem lineStart_le (text : List Char) : lineStart text ≤ text.length := Nat.sub_le _ _

theorem take_lineStart (text : List Char) :
    AtLineStart (text.take (lineStart text)) ∧
      text = text.take (lineStart text) ++ lastLine text := by
  obtain ⟨before, split, start⟩ := exists_lastLine text
  have length := congrArg List.length split
  rw [List.length_append] at length
  have taken : text.take (lineStart text) = before := by
    rw [lineStart, length, Nat.add_sub_cancel]
    conv_lhs => rw [split]
    exact List.take_left
  rw [taken]
  exact ⟨start, split⟩

theorem advance_atLineStart {text : List Char} (start : AtLineStart text) :
    advance (1, 1) text = (1 + text.count '\n', 1) := by
  obtain rfl | ⟨before, rfl⟩ := start
  · rfl
  · rw [advance_append, List.count_append]
    exact Prod.ext (congrArg (· + 1) (advance_line (1, 1) before)) rfl

theorem count_pos_of_atLineStart {text : List Char} (start : AtLineStart text)
    (some : text ≠ []) : 0 < text.count '\n' := by
  obtain rfl | ⟨before, rfl⟩ := start
  · exact absurd rfl some
  · exact List.count_pos_iff.mpr (List.mem_append_right _ List.mem_cons_self)

theorem advance_broken {text : List Char} (broken : '\n' ∈ text) (p : Nat × Nat) :
    advance p text = (p.1 + text.count '\n', 1 + (lastLine text).length) := by
  obtain ⟨before, split, start⟩ := exists_lastLine text
  obtain rfl | ⟨more, rfl⟩ := start
  · rw [split] at broken
    exact absurd broken (lastLine_plain text)
  · have line := advance_line p text
    have column : (advance p text).2 = 1 + (lastLine text).length := by
      rw [split, advance_append, advance_append, ← split, advance_plain (lastLine_plain text)]
      rfl
    exact Prod.ext line column

theorem advance_eq (text : List Char) :
    advance (1, 1) text = (1 + text.count '\n', 1 + (lastLine text).length) := by
  by_cases broken : '\n' ∈ text
  · exact advance_broken broken _
  · obtain ⟨before, split, start⟩ := exists_lastLine text
    have none : text.count '\n' = 0 := List.count_eq_zero_of_not_mem broken
    have whole : lastLine text = text := by
      obtain rfl | ⟨more, rfl⟩ := start
      · exact split.symm
      · rw [split] at broken
        exact absurd (List.mem_append_left _ (List.mem_append_right _ List.mem_cons_self)) broken
    rw [advance_plain broken, none, whole]

theorem advance_shift (p : Nat × Nat) (lines columns : Nat) (text : List Char) :
    advance (p.1 + lines, p.2 + columns) text =
      ((advance p text).1 + lines,
        (advance p text).2 + if '\n' ∈ text then 0 else columns) := by
  by_cases broken : '\n' ∈ text
  · rw [if_pos broken, advance_broken broken, advance_broken broken]
    exact Prod.ext (Nat.add_right_comm _ _ _) rfl
  · rw [if_neg broken, advance_plain broken, advance_plain broken]
    exact Prod.ext rfl (Nat.add_right_comm _ _ _)

theorem eq_nil_of_advance {p : Nat × Nat} {text : List Char} (still : advance p text = p) :
    text = [] := by
  have lines := congrArg Prod.fst still
  rw [advance_line] at lines
  have plain : '\n' ∉ text := List.count_eq_zero.mp (by omega)
  have columns := congrArg Prod.snd still
  rw [advance_plain plain] at columns
  exact List.length_eq_zero_iff.mp (by simpa using columns)

theorem position_inj {text : List Char} {m n : Nat} (inM : m ≤ text.length)
    (inN : n ≤ text.length) (same : position text m = position text n) : m = n := by
  have ordered : ∀ {m n}, m ≤ n → n ≤ text.length → position text m = position text n → m = n := by
    intro m n le inside same
    have split : text.take n = text.take m ++ (text.take n).drop m := by
      conv_lhs => rw [← List.take_append_drop m (text.take n)]
      rw [List.take_take, Nat.min_eq_left le]
    unfold position at same
    rw [split, advance_append] at same
    have nothing := congrArg List.length (eq_nil_of_advance same.symm)
    rw [List.length_drop, List.length_take] at nothing
    simp only [List.length_nil] at nothing
    omega
  obtain le | le := Nat.le_total m n
  · exact ordered le inN same
  · exact (ordered le inM same.symm).symm

theorem lastLine_eq_nil {text : List Char} : lastLine text = [] ↔ AtLineStart text := by
  obtain ⟨before, split, start⟩ := exists_lastLine text
  constructor
  · intro nothing
    rw [nothing, List.append_nil] at split
    exact split ▸ start
  · rintro (rfl | ⟨more, rfl⟩)
    · rfl
    · cases last : (lastLine (more ++ ['\n'])).getLast? with
      | none => exact List.getLast?_eq_none_iff.mp last
      | some c =>
        have final := congrArg List.getLast? split
        rw [List.getLast?_concat, List.getLast?_append, last] at final
        obtain rfl := Option.some.inj final
        exact absurd (List.mem_of_getLast? last) (lastLine_plain _)

def splice (text : List Char) (n : Nat) (fragment : List Char) : List Char :=
  text.take n ++ fragment ++ text.drop n

theorem position_splice {text : List Char} {n : Nat} (inside : n ≤ text.length)
    (fragment : List Char) : position (splice text n fragment) n = position text n := by
  unfold position splice
  rw [List.append_assoc, List.take_append_of_le_length (by simp [inside]), List.take_take,
    Nat.min_self]

theorem position_splice_end {text : List Char} {n : Nat} (inside : n ≤ text.length)
    (inserted trailing : List Char) :
    position (splice text n (inserted ++ trailing)) (n + inserted.length) =
      advance (position text n) inserted := by
  have taken : (splice text n (inserted ++ trailing)).take (n + inserted.length) =
      text.take n ++ inserted := by
    unfold splice
    rw [← List.append_assoc, List.append_assoc]
    exact List.take_left' (by simp [inside])
  unfold position
  rw [taken, advance_append]

theorem splice_drop (front text : List Char) (n : Nat) (fragment : List Char) :
    (splice (front ++ text) (front.length + n) fragment).drop front.length =
      splice text n fragment := by
  unfold splice
  rw [List.take_length_add_append, List.drop_length_add_append, List.append_assoc,
    List.append_assoc, List.drop_left, ← List.append_assoc]

end TextCursor
