import Mathlib.Data.List.Basic

/-! Text as bytes: where its characters begin and end, and how text is taken apart again at a mark
that stands in none of its pieces. -/
namespace Text

def encode (cs : List Char) : List UInt8 := cs.flatMap String.utf8EncodeChar

theorem encode_append (first second : List Char) :
    encode (first ++ second) = encode first ++ encode second := List.flatMap_append

theorem encode_cons (c : Char) (rest : List Char) :
    encode (c :: rest) = String.utf8EncodeChar c ++ encode rest := List.flatMap_cons

theorem width_pos (c : Char) : 0 < (String.utf8EncodeChar c).length := by
  unfold String.utf8EncodeChar
  dsimp only
  split
  · exact Nat.zero_lt_one
  · split
    · exact Nat.zero_lt_succ _
    · split <;> exact Nat.zero_lt_succ _

theorem utf8EncodeChar_ascii {c : Char} {b : UInt8} (member : b ∈ String.utf8EncodeChar c)
    (ascii : b.toNat < 128) : String.utf8EncodeChar c = [b] := by
  have small : ∀ n, n < 256 → (UInt8.ofNat n).toNat = n := fun n h => by
    simpa using Nat.mod_eq_of_lt h
  have valid : c.val.toNat < 0xd800 ∨ (0xdfff < c.val.toNat ∧ c.val.toNat < 0x110000) := c.valid
  unfold String.utf8EncodeChar at member ⊢
  generalize c.val.toNat = v at *
  dsimp only at member ⊢
  split at member
  · rename_i one
    rw [if_pos one, List.mem_singleton.mp member]
  · exfalso
    split at member
    · simp only [List.mem_cons, List.not_mem_nil, or_false] at member
      obtain rfl | rfl := member <;> rw [small _ (by omega)] at ascii <;> omega
    · split at member
      · simp only [List.mem_cons, List.not_mem_nil, or_false] at member
        obtain rfl | rfl | rfl := member <;> rw [small _ (by omega)] at ascii <;> omega
      · simp only [List.mem_cons, List.not_mem_nil, or_false] at member
        obtain rfl | rfl | rfl | rfl := member <;> rw [small _ (by omega)] at ascii <;> omega

theorem encode_split {cs : List Char} {before after : List UInt8} {b : UInt8}
    (split : encode cs = before ++ b :: after) (ascii : b.toNat < 128) :
    ∃ first c second, cs = first ++ c :: second ∧ encode first = before ∧
      encode second = after := by
  induction cs generalizing before with
  | nil =>
    have length := congrArg List.length split
    rw [List.length_append, List.length_cons] at length
    have none : (encode []).length = 0 := rfl
    omega
  | cons c rest ih =>
    rw [encode_cons] at split
    obtain ⟨more, rfl, tail⟩ | ⟨more, head, tail⟩ := List.append_eq_append_iff.mp split
    · obtain ⟨first, d, second, rfl, rfl, rfl⟩ := ih tail
      exact ⟨c :: first, d, second, rfl, encode_cons c first, rfl⟩
    · cases more with
      | nil =>
        have later : encode rest = [] ++ b :: after := tail.symm
        obtain ⟨first, d, second, rfl, none, rfl⟩ := ih later
        refine ⟨c :: first, d, second, rfl, ?_, rfl⟩
        rw [encode_cons, none, List.append_nil, head, List.append_nil]
      | cons d more =>
        obtain ⟨rfl, later⟩ := List.cons.inj tail
        have single := utf8EncodeChar_ascii
          (head ▸ List.mem_append_right before List.mem_cons_self) ascii
        rw [single] at head
        have nothing : before = [] := by
          have length := congrArg List.length head
          simp only [List.length_append, List.length_cons, List.length_nil] at length
          exact List.length_eq_zero_iff.mp (by omega)
        subst nothing
        obtain ⟨-, rfl⟩ := List.cons.inj head
        exact ⟨[], c, rest, rfl, rfl, later.symm⟩

theorem encode_injective {cs ds : List Char} (same : encode cs = encode ds) : cs = ds := by
  have arrays : cs.utf8Encode = ds.utf8Encode := congrArg List.toByteArray same
  have read := List.utf8Decode?_utf8Encode (l := cs)
  rw [arrays, List.utf8Decode?_utf8Encode] at read
  exact (congrArg Array.toList (Option.some.inj read)).symm

theorem mem_of_mem_encode {cs : List Char} {c : Char} {b : UInt8} (member : b ∈ encode cs)
    (ascii : b.toNat < 128) (single : String.utf8EncodeChar c = [b]) : c ∈ cs := by
  obtain ⟨d, inside, bytes⟩ := List.mem_flatMap.mp member
  have same : encode [c] = encode [d] := by
    rw [encode_cons, encode_cons, single, utf8EncodeChar_ascii bytes ascii]
  obtain ⟨rfl, -⟩ := List.cons.inj (encode_injective same)
  exact inside

def prefixAt : List Char → Nat → Option (List Char)
  | [], n => if n = 0 then some [] else none
  | c :: rest, n =>
    if n = 0 then some []
    else if (String.utf8EncodeChar c).length ≤ n then
      (prefixAt rest (n - (String.utf8EncodeChar c).length)).map (c :: ·)
    else none

theorem prefixAt_zero (cs : List Char) : prefixAt cs 0 = some [] := by
  cases cs <;> rfl

theorem prefixAt_some {cs kept : List Char} {n : Nat} (found : prefixAt cs n = some kept) :
    (encode kept).length = n ∧ ∃ rest, cs = kept ++ rest := by
  induction cs generalizing n kept with
  | nil =>
    unfold prefixAt at found
    split at found
    · rename_i zero
      cases found
      exact ⟨zero.symm, [], rfl⟩
    · cases found
  | cons c cs ih =>
    unfold prefixAt at found
    split at found
    · rename_i zero
      cases found
      exact ⟨zero.symm, c :: cs, rfl⟩
    · split at found
      · rename_i fits
        obtain ⟨more, later, rfl⟩ := Option.map_eq_some_iff.mp found
        obtain ⟨length, rest, rfl⟩ := ih later
        refine ⟨?_, rest, rfl⟩
        rw [encode_cons, List.length_append, length]
        omega
      · cases found

theorem prefixAt_append (kept rest : List Char) :
    prefixAt (kept ++ rest) (encode kept).length = some kept := by
  induction kept with
  | nil => exact prefixAt_zero rest
  | cons c kept ih =>
    have wide := width_pos c
    rw [List.cons_append, prefixAt, encode_cons, List.length_append, if_neg (by omega),
      if_pos (Nat.le_add_right _ _), Nat.add_sub_cancel_left, ih]
    rfl

theorem encode_prefixAt {cs kept : List Char} {n : Nat} (found : prefixAt cs n = some kept) :
    encode kept = (encode cs).take n := by
  obtain ⟨length, rest, rfl⟩ := prefixAt_some found
  rw [encode_append, ← length, List.take_left]

/-- The longest prefix of at most `limit` bytes that ends with a character. -/
structure LongestWithin (limit : Nat) (cs kept : List Char) : Prop where
  isPrefix : kept <+: cs
  fits : (encode kept).length ≤ limit
  longest : ∀ other, other <+: cs → (encode other).length ≤ limit → other <+: kept

theorem prefix_of_length_le {first second cs : List Char} (one : first <+: cs)
    (other : second <+: cs) (le : (encode first).length ≤ (encode second).length) :
    first <+: second := by
  obtain shorter | ⟨more, rfl⟩ := List.prefix_or_prefix_of_prefix one other
  · exact shorter
  · cases more with
    | nil =>
      simp only [List.append_nil, List.prefix_refl]
    | cons c more =>
      have wide := width_pos c
      rw [encode_append, encode_cons, List.length_append, List.length_append] at le
      omega

theorem LongestWithin.unique {limit : Nat} {cs first second : List Char}
    (one : LongestWithin limit cs first) (other : LongestWithin limit cs second) :
    first = second :=
  (other.longest first one.isPrefix one.fits).eq_of_length_le
    (one.longest second other.isPrefix other.fits).length_le

theorem LongestWithin.whole {limit : Nat} {cs : List Char} (fits : (encode cs).length ≤ limit) :
    LongestWithin limit cs cs where
  isPrefix := List.prefix_refl cs
  fits := fits
  longest _ isPrefix _ := isPrefix

theorem LongestWithin.of_split {limit : Nat} {kept rest : List Char} {c : Char}
    (fits : (encode kept).length ≤ limit)
    (full : limit < (encode kept).length + (String.utf8EncodeChar c).length) :
    LongestWithin limit (kept ++ c :: rest) kept where
  isPrefix := List.prefix_append _ _
  fits := fits
  longest other isPrefix within := by
    obtain shorter | longer := List.prefix_or_prefix_of_prefix isPrefix (List.prefix_append kept _)
    · exact shorter
    · obtain ⟨more, rfl⟩ := longer
      obtain ⟨tail, same⟩ := isPrefix
      rw [List.append_assoc] at same
      cases more with
      | nil =>
        simp only [List.append_nil, List.prefix_refl]
      | cons d more =>
        obtain ⟨rfl, -⟩ := List.cons.inj (List.append_cancel_left same)
        rw [encode_append, encode_cons, List.length_append, List.length_append] at within
        omega

theorem exists_overflow {limit : Nat} {cs : List Char} (tooLong : limit < (encode cs).length) :
    ∃ kept c rest, cs = kept ++ c :: rest ∧ (encode kept).length ≤ limit ∧
      limit < (encode kept).length + (String.utf8EncodeChar c).length := by
  induction cs generalizing limit with
  | nil => cases tooLong
  | cons c cs ih =>
    by_cases wide : limit < (String.utf8EncodeChar c).length
    · refine ⟨[], c, cs, rfl, Nat.zero_le _, ?_⟩
      show limit < 0 + _
      omega
    · rw [encode_cons, List.length_append] at tooLong
      have later : limit - (String.utf8EncodeChar c).length < (encode cs).length := by omega
      obtain ⟨kept, d, rest, rfl, fits, full⟩ := ih later
      refine ⟨c :: kept, d, rest, rfl, ?_, ?_⟩
      · rw [encode_cons, List.length_append]
        omega
      · rw [encode_cons, List.length_append]
        omega

theorem split_last {A : Type} {mark : A} {x y u v : List A} (inU : mark ∉ u) (inV : mark ∉ v)
    (same : x ++ mark :: u = y ++ mark :: v) : x = y ∧ u = v := by
  obtain ⟨rest, rfl, tail⟩ | ⟨rest, rfl, tail⟩ := List.append_eq_append_iff.mp same
  · cases rest with
    | nil => exact ⟨(List.append_nil x).symm, (List.cons.inj tail).2⟩
    | cons c rest =>
      have inside : u = rest ++ mark :: v := (List.cons.inj tail).2
      exact absurd (inside ▸ List.mem_append_right rest List.mem_cons_self) inU
  · cases rest with
    | nil => exact ⟨List.append_nil y, (List.cons.inj tail).2.symm⟩
    | cons c rest =>
      have inside : v = rest ++ mark :: u := (List.cons.inj tail).2
      exact absurd (inside ▸ List.mem_append_right rest List.mem_cons_self) inV

theorem split_first {A : Type} {mark : A} {x y u v : List A} (inX : mark ∉ x) (inY : mark ∉ y)
    (same : x ++ mark :: u = y ++ mark :: v) : x = y ∧ u = v := by
  have backward := congrArg List.reverse same
  rw [List.reverse_append, List.reverse_append, List.reverse_cons, List.reverse_cons,
    List.append_assoc, List.append_assoc] at backward
  obtain ⟨after, before⟩ := split_last (mt List.mem_reverse.mp inX) (mt List.mem_reverse.mp inY)
    backward
  exact ⟨List.reverse_injective before, List.reverse_injective after⟩

theorem terminated_inj {A : Type} {mark : A} {xs ys : List (List A)} (inXs : ∀ x ∈ xs, mark ∉ x)
    (inYs : ∀ y ∈ ys, mark ∉ y)
    (same : xs.flatMap (· ++ [mark]) = ys.flatMap (· ++ [mark])) : xs = ys := by
  induction xs generalizing ys with
  | nil =>
    cases ys with
    | nil => rfl
    | cons y ys => simp at same
  | cons x xs ih =>
    cases ys with
    | nil => simp at same
    | cons y ys =>
      rw [List.flatMap_cons, List.flatMap_cons, List.append_assoc, List.append_assoc] at same
      obtain ⟨rfl, rest⟩ := split_first (inXs x List.mem_cons_self) (inYs y List.mem_cons_self) same
      rw [ih (fun x member => inXs x (List.mem_cons_of_mem _ member))
        (fun y member => inYs y (List.mem_cons_of_mem _ member)) rest]

theorem mem_joined {A : Type} {mark : A} {pieces : List (List A)} {c : A}
    (member : c ∈ [mark].intercalate pieces) : c = mark ∨ ∃ piece ∈ pieces, c ∈ piece := by
  induction pieces with
  | nil => cases member
  | cons piece rest ih =>
    cases rest with
    | nil =>
      rw [List.intercalate_singleton] at member
      exact Or.inr ⟨piece, List.mem_cons_self, member⟩
    | cons next rest =>
      rw [List.intercalate_cons_cons, List.append_assoc, List.mem_append] at member
      obtain here | later := member
      · exact Or.inr ⟨piece, List.mem_cons_self, here⟩
      · obtain between | later := List.mem_append.mp later
        · exact Or.inl (List.mem_singleton.mp between)
        · obtain mark | ⟨other, inside, found⟩ := ih later
          · exact Or.inl mark
          · exact Or.inr ⟨other, List.mem_cons_of_mem _ inside, found⟩

theorem infix_intercalate {A : Type} {sep piece : List A} {pieces : List (List A)}
    (member : piece ∈ pieces) : piece <:+: sep.intercalate pieces := by
  induction pieces with
  | nil => cases member
  | cons first pieces ih =>
    cases pieces with
    | nil =>
      simp only [List.intercalate_singleton, List.mem_singleton.mp member, List.infix_refl]
    | cons next pieces =>
      rw [List.intercalate_cons_cons]
      rcases List.mem_cons.mp member with rfl | later
      · exact ((List.prefix_append _ _).trans (List.prefix_append _ _)).isInfix
      · exact (ih later).trans (List.suffix_append _ _).isInfix

theorem joined_inj {A : Type} [BEq A] [LawfulBEq A] {mark : A} {xs ys : List (List A)}
    (inXs : ∀ x ∈ xs, mark ∉ x) (inYs : ∀ y ∈ ys, mark ∉ y) (wholeXs : xs ≠ [[]])
    (wholeYs : ys ≠ [[]]) (same : [mark].intercalate xs = [mark].intercalate ys) : xs = ys := by
  have read : ∀ {zs : List (List A)}, (∀ z ∈ zs, mark ∉ z) → zs ≠ [] →
      ([mark].intercalate zs).splitOn mark = zs :=
    fun plain some => List.splitOn_intercalate mark plain some
  by_cases noneX : xs = []
  · by_cases noneY : ys = []
    · rw [noneX, noneY]
    · have single := read inYs noneY
      rw [← same, noneX, List.intercalate_nil] at single
      exact absurd single.symm wholeYs
  · by_cases noneY : ys = []
    · have single := read inXs noneX
      rw [same, noneY, List.intercalate_nil] at single
      exact absurd single.symm wholeXs
    · rw [← read inXs noneX, same, read inYs noneY]

theorem not_mem_labelled {A : Type} {mark : A} {label text : List A} (inLabel : mark ∉ label)
    (inText : mark ∉ text) : mark ∉ label ++ text := by
  rw [List.mem_append, not_or]
  exact ⟨inLabel, inText⟩

theorem not_mem_repr {mark : Char} (other : mark.isDigit = false) (n : Nat) :
    mark ∉ n.repr.toList := by
  rw [Nat.toList_repr]
  intro member
  have digit := Nat.isDigit_of_mem_toDigits (by decide) (by decide) member
  rw [other] at digit
  cases digit

theorem repr_injective {m n : Nat} (same : m.repr.toList = n.repr.toList) : m = n := by
  rw [Nat.toList_repr, Nat.toList_repr] at same
  rw [← Nat.ofDigitChars_ten_toDigits (n := m), same, Nat.ofDigitChars_ten_toDigits]

/-- Whether a text is a decimal number: digits, with single underscores between them. -/
def isNat : List Char → Bool → Bool
  | [], lastWasDigit => lastWasDigit
  | c :: rest, lastWasDigit =>
    if c = '_' then lastWasDigit && isNat rest false else c.isDigit && isNat rest true

def toNat? (text : List Char) : Option Nat :=
  if isNat text false then
    some (text.foldl (fun n c => if c = '_' then n else n * 10 + (c.toNat - '0'.toNat)) 0)
  else none

theorem isNat_of_digits {text : List Char} (digits : ∀ c ∈ text, c.isDigit = true)
    {lastWasDigit : Bool} (some : text ≠ [] ∨ lastWasDigit = true) :
    isNat text lastWasDigit = true := by
  induction text generalizing lastWasDigit with
  | nil =>
    obtain absurd' | last := some
    · exact absurd rfl absurd'
    · exact last
  | cons c rest ih =>
    have digit := digits c List.mem_cons_self
    unfold isNat
    rw [if_neg (by rintro rfl; cases digit), digit, Bool.true_and]
    exact ih (fun d member => digits d (List.mem_cons_of_mem _ member)) (Or.inr rfl)

theorem toNat?_of_digits {text : List Char} (digits : ∀ c ∈ text, c.isDigit = true)
    (some : text ≠ []) : toNat? text = .some (Nat.ofDigitChars 10 text 0) := by
  unfold toNat?
  rw [if_pos (isNat_of_digits digits (Or.inl some)), Nat.ofDigitChars_eq_foldl]
  generalize 0 = start
  clear some
  induction text generalizing start with
  | nil => rfl
  | cons c rest ih =>
    have plain : c ≠ '_' := by
      rintro rfl
      cases digits '_' List.mem_cons_self
    have tail := ih (fun d member => digits d (List.mem_cons_of_mem _ member))
    rw [List.foldl_cons, List.foldl_cons, if_neg plain, tail, Nat.mul_comm]

theorem toNat?_repr (n : Nat) : toNat? n.repr.toList = some n := by
  rw [Nat.toList_repr, toNat?_of_digits]
  · rw [Nat.ofDigitChars_ten_toDigits]
  · intro c member
    exact Nat.isDigit_of_mem_toDigits (by decide) (by decide) member
  · intro none
    have single := Nat.length_toDigits_pos (b := 10) (n := n)
    rw [none] at single
    cases single

def toInt? (text : List Char) : Option Int :=
  match text with
  | [] => none
  | c :: rest => if c = '-' then (toNat? rest).map Int.negOfNat else (toNat? text).map Int.ofNat

theorem repr_cons (n : Nat) : ∃ c rest, n.repr.toList = c :: rest ∧ c.isDigit = true := by
  cases digits : n.repr.toList with
  | nil =>
    rw [Nat.toList_repr] at digits
    have single := Nat.length_toDigits_pos (b := 10) (n := n)
    rw [digits] at single
    cases single
  | cons c rest =>
    refine ⟨c, rest, rfl, Nat.isDigit_of_mem_toDigits (b := 10) (n := n) (by decide) (by decide) ?_⟩
    rw [← Nat.toList_repr, digits]
    exact List.mem_cons_self

theorem toList_repr_neg (n : Nat) :
    (Int.repr (Int.negSucc n)).toList = '-' :: (n + 1).repr.toList := by
  change ("-" ++ (n + 1).repr).toList = _
  rw [String.toList_append]
  rfl

theorem toInt?_repr (i : Int) : toInt? i.repr.toList = some i := by
  cases i with
  | ofNat n =>
    obtain ⟨c, rest, digits, digit⟩ := repr_cons n
    change toInt? n.repr.toList = _
    rw [digits, toInt?, if_neg (by rintro rfl; cases digit), ← digits, toNat?_repr]
    rfl
  | negSucc n =>
    rw [toList_repr_neg, toInt?, if_pos rfl, toNat?_repr]
    rfl

def digits? (text : List Char) : Option Nat :=
  if text ≠ [] ∧ text.all Char.isDigit then some (Nat.ofDigitChars 10 text 0) else none

def signed? (text : List Char) : Option Int :=
  match text with
  | [] => none
  | c :: rest =>
    if c = '-' then (digits? rest).map Int.negOfNat
    else if c = '+' then (digits? rest).map Int.ofNat
    else (digits? text).map Int.ofNat

theorem digits?_repr (n : Nat) : digits? n.repr.toList = some n := by
  obtain ⟨c, rest, digits, -⟩ := repr_cons n
  unfold digits?
  rw [if_pos]
  · rw [Nat.toList_repr, Nat.ofDigitChars_ten_toDigits]
  · refine ⟨by rw [digits]; exact List.cons_ne_nil c rest, List.all_eq_true.mpr ?_⟩
    intro d member
    rw [Nat.toList_repr] at member
    exact Nat.isDigit_of_mem_toDigits (by decide) (by decide) member

theorem signed?_repr (i : Int) : signed? i.repr.toList = some i := by
  cases i with
  | ofNat n =>
    obtain ⟨c, rest, digits, digit⟩ := repr_cons n
    change signed? n.repr.toList = _
    rw [digits, signed?, if_neg (by rintro rfl; cases digit), if_neg (by rintro rfl; cases digit),
      ← digits, digits?_repr]
    rfl
  | negSucc n =>
    rw [toList_repr_neg, signed?, if_pos rfl, digits?_repr]
    rfl

end Text
