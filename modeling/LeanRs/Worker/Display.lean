import LeanRs.General.Text
import LeanRs.Worker.Protocol

/-! How the text of a child is shortened for a message, and when the part that is kept ends inside
an escape sequence. -/
namespace LeanRs

open Text

def byteLength (text : String) : Nat := (encode text.toList).length

def isCharBoundary (text : String) (index : Nat) : Bool := (prefixAt text.toList index).isSome

def escape : UInt8 := 0x1b

def isFinal (b : UInt8) : Bool := (0x40 ≤ b && b ≤ 0x5a) || (0x5c ≤ b && b ≤ 0x7e)

def backToBoundary (text : String) : Nat → Nat
  | 0 => 0
  | cut + 1 => if isCharBoundary text (cut + 1) then cut + 1 else backToBoundary text cut

def lastEscape : List UInt8 → Option Nat
  | [] => none
  | b :: rest =>
    match lastEscape rest with
    | some index => some (index + 1)
    | none => if b == escape then some 0 else none

def displayCut (text : String) (maxBytes : Nat) : Nat :=
  let cut := backToBoundary text maxBytes
  let kept := (encode text.toList).take cut
  match lastEscape kept with
  | none => backToBoundary text cut
  | some escOff =>
    let scanStart := min (escOff + 2) cut
    let terminated := (kept.drop scanStart).any isFinal
    backToBoundary text (if terminated then cut else escOff)

def truncateForDisplay (text : String) (maxBytes : Nat) : String :=
  if byteLength text ≤ maxBytes then text
  else
    let cut := displayCut text maxBytes
    let kept := (prefixAt text.toList cut).getD []
    String.ofList kept ++ "… (" ++ (byteLength text - cut).repr ++ " bytes truncated)"

/-- Where a scanner is: outside, right after an escape byte, or among the parameters of a control
sequence. -/
inductive CsiState where
  | ground
  | escape
  | parameters
  deriving DecidableEq

def CsiState.next (state : CsiState) (b : UInt8) : CsiState :=
  match state with
  | .ground => if b = LeanRs.escape then .escape else .ground
  | .escape => if b = 0x5b then .parameters else if b = LeanRs.escape then .escape else .ground
  | .parameters => if isFinal b then .ground else .parameters

def scan (bytes : List UInt8) : CsiState := bytes.foldl CsiState.next .ground

theorem scan_append (first second : List UInt8) :
    scan (first ++ second) = second.foldl CsiState.next (scan first) := List.foldl_append

theorem lastEscape_none {bytes : List UInt8} (missing : lastEscape bytes = none) :
    escape ∉ bytes := by
  induction bytes with
  | nil => exact List.not_mem_nil
  | cons b rest ih =>
    unfold lastEscape at missing
    cases later : lastEscape rest with
    | some index => rw [later] at missing; cases missing
    | none =>
      rw [later] at missing
      dsimp only at missing
      split at missing
      · cases missing
      · rename_i other
        rw [List.mem_cons, not_or]
        exact ⟨fun same => other (same ▸ beq_self_eq_true b), ih later⟩

theorem lastEscape_some {bytes : List UInt8} {index : Nat} (found : lastEscape bytes = some index) :
    ∃ before after, bytes = before ++ escape :: after ∧ before.length = index ∧
      escape ∉ after := by
  induction bytes generalizing index with
  | nil => cases found
  | cons b rest ih =>
    unfold lastEscape at found
    cases later : lastEscape rest with
    | some index' =>
      rw [later] at found
      obtain ⟨before, after, rfl, length, plain⟩ := ih later
      refine ⟨b :: before, after, rfl, ?_, plain⟩
      rw [List.length_cons, length]
      exact Option.some.inj found
    | none =>
      rw [later] at found
      dsimp only at found
      split at found
      · rename_i here
        exact ⟨[], rest, by rw [eq_of_beq here]; rfl, Option.some.inj found, lastEscape_none later⟩
      · cases found

theorem ground_of_plain {bytes : List UInt8} (plain : escape ∉ bytes) :
    bytes.foldl CsiState.next .ground = .ground := by
  induction bytes with
  | nil => rfl
  | cons b rest ih =>
    rw [List.mem_cons, not_or] at plain
    have stays : CsiState.ground.next b = .ground := if_neg fun same => plain.1 same.symm
    rw [List.foldl_cons, stays]
    exact ih plain.2

theorem ground_of_final {state : CsiState} {bytes : List UInt8} (plain : escape ∉ bytes)
    (begun : state ≠ .escape) (ended : bytes.any isFinal = true) :
    bytes.foldl CsiState.next state = .ground := by
  cases state with
  | ground => exact ground_of_plain plain
  | escape => exact absurd rfl begun
  | parameters =>
    induction bytes with
    | nil => cases ended
    | cons b rest ih =>
      rw [List.mem_cons, not_or] at plain
      rw [List.foldl_cons]
      by_cases last : isFinal b = true
      · have closed : CsiState.parameters.next b = .ground := if_pos last
        rw [closed]
        exact ground_of_plain plain.2
      · have stays : CsiState.parameters.next b = .parameters := if_neg last
        rw [List.any_cons, Bool.or_eq_true] at ended
        rw [stays]
        exact ih plain.2 (ended.resolve_left last)

theorem next_next_ne_escape {b : UInt8} (other : b ≠ escape) (state : CsiState) :
    (state.next escape).next b ≠ .escape := by
  cases state with
  | ground | escape =>
    show (if b = 0x5b then CsiState.parameters else if b = escape then .escape else .ground) ≠ _
    rw [if_neg other]
    split <;> simp
  | parameters =>
    show (if isFinal b then CsiState.ground else .parameters) ≠ _
    split <;> simp

theorem scan_terminated {before after : List UInt8} (plain : escape ∉ after)
    (ended : (after.drop 1).any isFinal = true) : scan (before ++ escape :: after) = .ground := by
  cases after with
  | nil => cases ended
  | cons b rest =>
    rw [List.mem_cons, not_or] at plain
    rw [scan_append, List.foldl_cons, List.foldl_cons]
    exact ground_of_final plain.2 (next_next_ne_escape (fun same => plain.1 same.symm) _) ended

theorem backToBoundary_le (text : String) (cut : Nat) : backToBoundary text cut ≤ cut := by
  induction cut with
  | zero => exact Nat.le_refl 0
  | succ cut ih =>
    unfold backToBoundary
    split
    · exact Nat.le_refl _
    · exact Nat.le_succ_of_le ih

theorem backToBoundary_boundary (text : String) (cut : Nat) :
    isCharBoundary text (backToBoundary text cut) = true := by
  induction cut with
  | zero => exact Option.isSome_iff_exists.mpr ⟨[], prefixAt_zero _⟩
  | succ cut ih =>
    unfold backToBoundary
    split
    · assumption
    · exact ih

theorem backToBoundary_of_boundary {text : String} {cut : Nat}
    (boundary : isCharBoundary text cut = true) : backToBoundary text cut = cut := by
  cases cut with
  | zero => rfl
  | succ cut => exact if_pos boundary

/-- The bytes end in an escape sequence that is left open, and that begins inside another one. -/
def OpensInside (bytes : List UInt8) : Prop :=
  ∃ before after, bytes = before ++ escape :: after ∧ escape ∉ after ∧
    (after.drop 1).any isFinal = false ∧ scan before ≠ .ground

def fitting (text : String) (maxBytes : Nat) : List UInt8 :=
  (encode text.toList).take (backToBoundary text maxBytes)

theorem opensInside_iff {before after : List UInt8} (plain : escape ∉ after)
    (open' : (after.drop 1).any isFinal = false) :
    OpensInside (before ++ escape :: after) ↔ scan before ≠ .ground := by
  constructor
  · rintro ⟨before', after', same, plain', -, inside⟩
    obtain ⟨rfl, -⟩ := split_last plain plain' same
    exact inside
  · intro inside
    exact ⟨before, after, rfl, plain, open', inside⟩

theorem not_opensInside_of_terminated {before after : List UInt8} (plain : escape ∉ after)
    (ended : (after.drop 1).any isFinal = true) : ¬OpensInside (before ++ escape :: after) := by
  rintro ⟨before', after', same, plain', open', -⟩
  obtain ⟨-, rfl⟩ := split_last plain plain' same
  rw [ended] at open'
  cases open'

theorem drop_scanStart (before after : List UInt8) :
    (before ++ escape :: after).drop
      (min (before.length + 2) (before ++ escape :: after).length) = after.drop 1 := by
  have tail : (before ++ escape :: after).drop (before.length + 2) = after.drop 1 := by
    rw [List.drop_append, List.drop_eq_nil_of_le (Nat.le_add_right _ _), Nat.add_sub_cancel_left]
    rfl
  rcases Nat.le_total (before.length + 2) (before ++ escape :: after).length with fits | short
  · rw [Nat.min_eq_left fits, tail]
  · rw [Nat.min_eq_right short, List.drop_length, ← tail, List.drop_eq_nil_of_le short]

theorem displayCut_spec (text : String) (maxBytes : Nat) :
    ∃ kept, prefixAt text.toList (displayCut text maxBytes) = some kept ∧
      displayCut text maxBytes ≤ maxBytes ∧
      (scan (encode kept) = .ground ↔ ¬OpensInside (fitting text maxBytes)) := by
  have boundary := backToBoundary_boundary text maxBytes
  have cutLe := backToBoundary_le text maxBytes
  obtain ⟨p, found⟩ := Option.isSome_iff_exists.mp boundary
  have bytes : (encode text.toList).take (backToBoundary text maxBytes) = encode p :=
    (encode_prefixAt found).symm
  obtain ⟨length, rest, whole⟩ := prefixAt_some found
  unfold displayCut fitting
  dsimp only
  rw [bytes]
  cases last : lastEscape (encode p) with
  | none =>
    have plain := lastEscape_none last
    rw [backToBoundary_of_boundary boundary]
    refine ⟨p, found, cutLe, ?_⟩
    constructor
    · rintro - ⟨before, after, same, -⟩
      exact plain (same ▸ List.mem_append_right before List.mem_cons_self)
    · intro _
      exact ground_of_plain plain
  | some escOff =>
    obtain ⟨before, after, split, rfl, plain⟩ := lastEscape_some last
    have seen : (encode p).drop (min (before.length + 2) (backToBoundary text maxBytes)) =
        after.drop 1 := by
      rw [← length, split]
      exact drop_scanStart before after
    dsimp only
    rw [seen]
    cases ended : (after.drop 1).any isFinal with
    | true =>
      rw [if_pos rfl, backToBoundary_of_boundary boundary]
      refine ⟨p, found, cutLe, ?_⟩
      rw [split]
      constructor
      · intro _
        exact not_opensInside_of_terminated plain ended
      · intro _
        exact scan_terminated plain ended
    | false =>
      obtain ⟨first, c, second, rfl, rfl, -⟩ := encode_split split (by decide)
      have earlier : prefixAt text.toList (encode first).length = some first := by
        rw [whole, List.append_assoc]
        exact prefixAt_append first _
      have atEscape : backToBoundary text (encode first).length = (encode first).length :=
        backToBoundary_of_boundary (Option.isSome_iff_exists.mpr ⟨first, earlier⟩)
      rw [if_neg Bool.false_ne_true, atEscape]
      refine ⟨first, earlier, ?_, ?_⟩
      · have shorter : (encode first).length ≤ (encode (first ++ c :: second)).length := by
          rw [encode_append, List.length_append]
          exact Nat.le_add_right _ _
        omega
      · rw [split, opensInside_iff plain ended, not_not]

/-- What a message is to show of a text: all of it where it fits, else a beginning of it that does
not end inside an escape sequence, and the number of bytes that are left out. -/
def Displays (text : String) (maxBytes : Nat) (shown : String) : Prop :=
  if byteLength text ≤ maxBytes then shown = text
  else ∃ kept rest : String, ∃ dropped : Nat,
    shown = kept ++ "… (" ++ dropped.repr ++ " bytes truncated)" ∧ text = kept ++ rest ∧
    byteLength kept ≤ maxBytes ∧ byteLength kept + dropped = byteLength text ∧
    scan (encode kept.toList) = .ground

theorem marker_unique {kept kept' : List Char} {m n : Nat}
    (same : String.ofList kept ++ "… (" ++ m.repr ++ " bytes truncated)" =
      String.ofList kept' ++ "… (" ++ n.repr ++ " bytes truncated)") : kept = kept' := by
  have plain : ∀ k : Nat, '…' ∉ ' ' :: '(' :: (k.repr.toList ++ " bytes truncated)".toList) := by
    intro k member
    simp only [List.mem_cons, List.mem_append] at member
    obtain blank | paren | digit | label := member
    · exact absurd blank (by decide)
    · exact absurd paren (by decide)
    · exact not_mem_repr (by decide) k digit
    · exact absurd label (by decide)
  have chars := congrArg String.toList same
  simp only [String.toList_append, String.toList_ofList, List.append_assoc] at chars
  exact (split_last (plain m) (plain n) chars).1

theorem displays_of_ground {text : String} {maxBytes : Nat} {kept : List Char}
    (found : prefixAt text.toList (displayCut text maxBytes) = some kept)
    (cutLe : displayCut text maxBytes ≤ maxBytes) (outside : scan (encode kept) = .ground) :
    Displays text maxBytes (truncateForDisplay text maxBytes) := by
  unfold Displays truncateForDisplay
  split
  · rfl
  · obtain ⟨length, rest, whole⟩ := prefixAt_some found
    have bytes : byteLength text = displayCut text maxBytes + (encode rest).length := by
      unfold byteLength
      rw [whole, encode_append, List.length_append, length]
    have keptLength : byteLength (String.ofList kept) = displayCut text maxBytes := by
      unfold byteLength
      rw [String.toList_ofList, length]
    dsimp only
    rw [found, Option.getD_some]
    refine ⟨String.ofList kept, String.ofList rest, _, rfl, ?_, ?_, ?_, ?_⟩
    · rw [← String.ofList_append, ← whole, String.ofList_toList]
    · rw [keptLength]
      exact cutLe
    · rw [keptLength, bytes, Nat.add_sub_cancel_left]
    · rw [String.toList_ofList]
      exact outside

theorem closed_of_displays {text : String} {maxBytes : Nat} (long : ¬byteLength text ≤ maxBytes)
    (displays : Displays text maxBytes (truncateForDisplay text maxBytes)) :
    ¬OpensInside (fitting text maxBytes) := by
  obtain ⟨kept, found, -, ground⟩ := displayCut_spec text maxBytes
  unfold Displays truncateForDisplay at displays
  rw [if_neg long, if_neg long] at displays
  dsimp only at displays
  rw [found, Option.getD_some] at displays
  obtain ⟨kept', -, dropped, same, -, -, -, outside⟩ := displays
  rw [← String.ofList_toList (s := kept')] at same
  rw [← ground, marker_unique same]
  exact outside

/-- The text that is shown is as it should be exactly when the text fits or when what fits of it
does not end in an escape sequence that begins inside another one. -/
theorem truncateForDisplay_displays_iff (text : String) (maxBytes : Nat) :
    Displays text maxBytes (truncateForDisplay text maxBytes) ↔
      byteLength text ≤ maxBytes ∨ ¬OpensInside (fitting text maxBytes) := by
  constructor
  · intro displays
    by_cases fits : byteLength text ≤ maxBytes
    · exact Or.inl fits
    · exact Or.inr (closed_of_displays fits displays)
  · rintro (fits | closed)
    · unfold Displays truncateForDisplay
      rw [if_pos fits, if_pos fits]
    · obtain ⟨kept, found, cutLe, ground⟩ := displayCut_spec text maxBytes
      exact displays_of_ground found cutLe (ground.mpr closed)

/-- The escape byte at the cut begins inside the sequence that the first one opens, and backing up
to it keeps that sequence open. -/
theorem nested_escape_displayed_open :
    ¬∀ (text : String) (maxBytes : Nat),
      Displays text maxBytes (truncateForDisplay text maxBytes) := by
  intro all
  have long : ¬byteLength "\x1b[3\x1b[1m" ≤ 5 := by decide +kernel
  have closed := closed_of_displays long (all _ 5)
  have nested : OpensInside (fitting "\x1b[3\x1b[1m" 5) :=
    ⟨[0x1b, 0x5b, 0x33], [0x5b], by decide +kernel, by decide +kernel, rfl, by decide⟩
  exact closed nested

end LeanRs
