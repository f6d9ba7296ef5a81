import LeanRs.Worker.Display

/-! How the shims and the worker shorten a text to a number of bytes. -/
namespace LeanRs

open Text

/-- `takeUtf8Bytes`: a character that does not fit is left out, and the walk goes on. -/
def takeUtf8Bytes (limit : Nat) (text : String) : String × Bool :=
  if byteLength text ≤ limit then (text, false)
  else
    let (out, _) := text.toList.foldl (fun (out, bytes) c =>
      let cBytes := byteLength c.toString
      if bytes + cBytes ≤ limit then (out.push c, bytes + cBytes) else (out, bytes)) ("", 0)
    (out, true)

structure DeclarationRenderedInfo where
  value : String
  truncated : Nat

def natOfBool (value : Bool) : Nat := if value then 1 else 0

def boundText (text : String) (perFieldBytes totalRemaining : Nat) :
    DeclarationRenderedInfo × Nat :=
  let limit := min perFieldBytes totalRemaining
  let (value, fieldTruncated) := takeUtf8Bytes limit text
  let truncated := fieldTruncated || byteLength text > totalRemaining
  (⟨value, natOfBool truncated⟩, byteLength value)

def proofSummaryByteLimit : Nat := 4096

namespace BoundString

def loop (limit : Nat) : List Char → String → Nat → String
  | [], acc, _ => acc
  | c :: rest, acc, bytes =>
    let nextBytes := bytes + c.utf8Size
    if nextBytes > limit then acc else loop limit rest (acc.push c) nextBytes

end BoundString

def boundString (s : String) : String :=
  if byteLength s ≤ proofSummaryByteLimit then s
  else BoundString.loop proofSummaryByteLimit s.toList "" 0

structure LeanWorkerRenderedInfo where
  value : String
  truncated : Bool

def boundRenderedInfo (value : String) (maxBytes : Nat) : LeanWorkerRenderedInfo :=
  if byteLength value ≤ maxBytes then ⟨value, false⟩
  else
    let stop := backToBoundary value maxBytes
    ⟨String.ofList ((prefixAt value.toList stop).getD []), true⟩

/-- The value is the longest prefix within the limit, and the flag says whether it is shorter than
the text. -/
def BoundedAs (limit : Nat) (text value : String) (truncated : Bool) : Prop :=
  LongestWithin limit text.toList value.toList ∧ (truncated = true ↔ value ≠ text)

/-- Behind the first character that does not fit there is none that does. -/
def NothingFitsLater (limit : Nat) (text : String) : Prop :=
  ∀ kept c rest, text.toList = kept ++ c :: rest → (encode kept).length ≤ limit →
    limit < (encode kept).length + c.utf8Size →
      ∀ d ∈ rest, limit < (encode kept).length + d.utf8Size

theorem boundedAs_whole {limit : Nat} {text : String} (fits : byteLength text ≤ limit) :
    BoundedAs limit text text false :=
  ⟨.whole fits, by simp⟩

theorem boundedAs_cut {limit : Nat} {text value : String} (tooLong : limit < byteLength text)
    (longest : LongestWithin limit text.toList value.toList) : BoundedAs limit text value true := by
  refine ⟨longest, fun _ same => ?_, fun _ => rfl⟩
  have fits := longest.fits
  rw [same] at fits
  exact absurd fits (Nat.not_le_of_lt tooLong)

theorem BoundString.loop_longest {limit : Nat} {text acc : String} {rest : List Char}
    {bytes : Nat} (split : text.toList = acc.toList ++ rest)
    (counted : bytes = (encode acc.toList).length) (fits : bytes ≤ limit)
    (tooLong : limit < byteLength text) :
    LongestWithin limit text.toList (loop limit rest acc bytes).toList := by
  induction rest generalizing acc bytes with
  | nil =>
    rw [List.append_nil] at split
    unfold byteLength at tooLong
    rw [split] at tooLong
    omega
  | cons c rest ih =>
    unfold loop
    dsimp only
    by_cases full : bytes + c.utf8Size > limit
    · rw [if_pos full, split]
      apply LongestWithin.of_split
      · omega
      · rw [String.length_utf8EncodeChar]
        omega
    · rw [if_neg full]
      apply ih
      · rw [String.toList_push, split, List.append_assoc]
        rfl
      · rw [String.toList_push, encode_append, List.length_append, ← counted]
        show _ = bytes + (String.utf8EncodeChar c ++ []).length
        rw [List.append_nil, String.length_utf8EncodeChar]
      · omega

theorem boundString_longest (text : String) :
    LongestWithin proofSummaryByteLimit text.toList (boundString text).toList := by
  unfold boundString
  by_cases fits : byteLength text ≤ proofSummaryByteLimit
  · rw [if_pos fits]
    exact .whole fits
  · rw [if_neg fits]
    exact BoundString.loop_longest rfl rfl (Nat.zero_le _) (Nat.lt_of_not_le fits)

theorem le_backToBoundary {text : String} {index cut : Nat} (le : index ≤ cut)
    (boundary : isCharBoundary text index = true) : index ≤ backToBoundary text cut := by
  induction cut with
  | zero => exact le
  | succ cut ih =>
    unfold backToBoundary
    split
    · exact le
    · rename_i inside
      obtain rfl | less := Nat.eq_or_lt_of_le le
      · exact absurd boundary inside
      · exact ih (Nat.le_of_lt_succ less)

theorem boundRenderedInfo_bounded (text : String) (limit : Nat) :
    BoundedAs limit text (boundRenderedInfo text limit).value
      (boundRenderedInfo text limit).truncated := by
  unfold boundRenderedInfo
  by_cases fits : byteLength text ≤ limit
  · rw [if_pos fits]
    exact boundedAs_whole fits
  · rw [if_neg fits]
    apply boundedAs_cut (Nat.lt_of_not_le fits)
    obtain ⟨kept, found⟩ := Option.isSome_iff_exists.mp (backToBoundary_boundary text limit)
    obtain ⟨length, rest, split⟩ := prefixAt_some found
    have within := backToBoundary_le text limit
    dsimp only
    rw [found, Option.getD_some, String.toList_ofList]
    constructor
    · exact ⟨rest, split.symm⟩
    · omega
    · intro other isPrefix fitsOther
      obtain ⟨tail, whole⟩ := isPrefix
      have boundary : isCharBoundary text (encode other).length = true := by
        unfold isCharBoundary
        rw [← whole, prefixAt_append]
        rfl
      have le := le_backToBoundary fitsOther boundary
      rw [← length] at le
      exact prefix_of_length_le ⟨tail, whole⟩ ⟨rest, split.symm⟩ le

def keepFitting (limit : Nat) (state : String × Nat) (c : Char) : String × Nat :=
  if state.2 + c.utf8Size ≤ limit then (state.1.push c, state.2 + c.utf8Size) else state

theorem byteLength_toString (c : Char) : byteLength c.toString = c.utf8Size := by
  unfold byteLength
  rw [Char.toString_eq_singleton, String.toList_singleton, encode_cons, List.length_append,
    String.length_utf8EncodeChar]
  rfl

theorem takeUtf8Bytes_eq (limit : Nat) (text : String) : takeUtf8Bytes limit text =
    if byteLength text ≤ limit then (text, false)
    else ((text.toList.foldl (keepFitting limit) ("", 0)).1, true) := by
  unfold takeUtf8Bytes
  simp only [byteLength_toString]
  rfl

theorem foldl_keepFitting_fits {limit : Nat} {part : List Char} {acc : String} {bytes : Nat}
    (fits : bytes + (encode part).length ≤ limit) :
    part.foldl (keepFitting limit) (acc, bytes) =
      (acc ++ String.ofList part, bytes + (encode part).length) := by
  induction part generalizing acc bytes with
  | nil =>
    rw [List.foldl_nil]
    exact Prod.ext (String.append_empty).symm rfl
  | cons c part ih =>
    rw [encode_cons, List.length_append, String.length_utf8EncodeChar] at fits ⊢
    have step : keepFitting limit (acc, bytes) c = (acc.push c, bytes + c.utf8Size) := by
      unfold keepFitting
      exact if_pos (by dsimp only; omega)
    rw [List.foldl_cons, step, ih (by omega)]
    refine Prod.ext ?_ (Nat.add_assoc _ _ _)
    dsimp only
    rw [← String.toList_inj]
    simp

theorem foldl_keepFitting_full {limit : Nat} {part : List Char} {acc : String} {bytes : Nat}
    (full : ∀ d ∈ part, limit < bytes + d.utf8Size) :
    part.foldl (keepFitting limit) (acc, bytes) = (acc, bytes) := by
  induction part with
  | nil => rfl
  | cons c part ih =>
    have step : keepFitting limit (acc, bytes) c = (acc, bytes) := by
      have wide := full c List.mem_cons_self
      unfold keepFitting
      exact if_neg (by dsimp only; omega)
    rw [List.foldl_cons, step, ih fun d member => full d (List.mem_cons_of_mem _ member)]

theorem length_foldl_keepFitting (limit : Nat) (part : List Char) (acc : String) (bytes : Nat) :
    acc.length ≤ (part.foldl (keepFitting limit) (acc, bytes)).1.length ∧
      ((∃ d ∈ part, bytes + d.utf8Size ≤ limit) →
        acc.length < (part.foldl (keepFitting limit) (acc, bytes)).1.length) := by
  induction part generalizing acc bytes with
  | nil => exact ⟨Nat.le_refl _, fun ⟨_, member, _⟩ => absurd member List.not_mem_nil⟩
  | cons c part ih =>
    rw [List.foldl_cons]
    unfold keepFitting
    dsimp only
    by_cases fits : bytes + c.utf8Size ≤ limit
    · rw [if_pos fits]
      have grows := (ih (acc.push c) (bytes + c.utf8Size)).1
      rw [String.length_push] at grows
      exact ⟨Nat.le_of_succ_le grows, fun _ => grows⟩
    · rw [if_neg fits]
      refine ⟨(ih acc bytes).1, ?_⟩
      rintro ⟨d, member, fitsD⟩
      obtain rfl | member := List.mem_cons.mp member
      · exact absurd fitsD fits
      · exact (ih acc bytes).2 ⟨d, member, fitsD⟩

theorem foldl_keepFitting_split {limit : Nat} {kept rest : List Char} {c : Char}
    (fits : (encode kept).length ≤ limit)
    (full : limit < (encode kept).length + c.utf8Size) :
    (kept ++ c :: rest).foldl (keepFitting limit) ("", 0) =
      rest.foldl (keepFitting limit) (String.ofList kept, (encode kept).length) := by
  have front : kept.foldl (keepFitting limit) ("", 0) =
      ("" ++ String.ofList kept, 0 + (encode kept).length) :=
    foldl_keepFitting_fits (by omega)
  rw [Nat.zero_add, String.empty_append] at front
  have step : keepFitting limit (String.ofList kept, (encode kept).length) c =
      (String.ofList kept, (encode kept).length) := by
    unfold keepFitting
    exact if_neg (by dsimp only; omega)
  rw [List.foldl_append, front, List.foldl_cons, step]

theorem takeUtf8Bytes_bounded_iff (limit : Nat) (text : String) :
    BoundedAs limit text (takeUtf8Bytes limit text).1 (takeUtf8Bytes limit text).2 ↔
      NothingFitsLater limit text := by
  rw [takeUtf8Bytes_eq]
  by_cases fits : byteLength text ≤ limit
  · rw [if_pos fits]
    refine ⟨fun _ kept c rest split _ full => ?_, fun _ => boundedAs_whole fits⟩
    unfold byteLength at fits
    rw [split, encode_append, encode_cons, List.length_append, List.length_append,
      String.length_utf8EncodeChar] at fits
    omega
  · rw [if_neg fits]
    have tooLong := Nat.lt_of_not_le fits
    constructor
    · intro bounded kept c rest split within full d member
      have longest : LongestWithin limit text.toList kept := by
        rw [split]
        exact .of_split within (by rw [String.length_utf8EncodeChar]; exact full)
      have same := bounded.1.unique longest
      dsimp only at same
      rw [split, foldl_keepFitting_split within full] at same
      by_contra room
      have grows := (length_foldl_keepFitting limit rest (String.ofList kept)
        (encode kept).length).2 ⟨d, member, Nat.le_of_not_lt room⟩
      rw [← String.length_toList, ← String.length_toList, same, String.toList_ofList] at grows
      exact absurd grows (Nat.lt_irrefl _)
    · intro nothing
      apply boundedAs_cut tooLong
      obtain ⟨kept, c, rest, split, within, full⟩ := exists_overflow tooLong
      rw [split]
      have wide := full
      rw [String.length_utf8EncodeChar] at wide
      rw [foldl_keepFitting_split within wide,
        foldl_keepFitting_full (nothing kept c rest split within wide), String.toList_ofList]
      exact .of_split within full

theorem boundText_eq (text : String) (perFieldBytes totalRemaining : Nat) :
    (boundText text perFieldBytes totalRemaining).1 =
      ⟨(takeUtf8Bytes (min perFieldBytes totalRemaining) text).1,
        natOfBool (takeUtf8Bytes (min perFieldBytes totalRemaining) text).2⟩ := by
  unfold boundText
  dsimp only
  rw [takeUtf8Bytes_eq]
  by_cases fits : byteLength text ≤ min perFieldBytes totalRemaining
  · have within : ¬byteLength text > totalRemaining := by omega
    rw [if_pos fits, decide_eq_false within]
    rfl
  · rw [if_neg fits]
    rfl

/-- All three shorten a text to its longest prefix exactly when nothing behind the first character
that does not fit does. -/
theorem byte_bounds_agree_iff (text : String) (limit : Nat) :
    (BoundedAs limit text (takeUtf8Bytes limit text).1 (takeUtf8Bytes limit text).2 ∧
      (∀ perFieldBytes totalRemaining, min perFieldBytes totalRemaining = limit →
        BoundedAs limit text (boundText text perFieldBytes totalRemaining).1.value
          ((boundText text perFieldBytes totalRemaining).1.truncated == 1)) ∧
      BoundedAs limit text (boundRenderedInfo text limit).value
        (boundRenderedInfo text limit).truncated ∧
      LongestWithin proofSummaryByteLimit text.toList (boundString text).toList) ↔
    NothingFitsLater limit text := by
  rw [← takeUtf8Bytes_bounded_iff]
  refine ⟨And.left, fun bounded => ⟨bounded, ?_, ?_, ?_⟩⟩
  · rintro perFieldBytes totalRemaining rfl
    have flag : ∀ b, (natOfBool b == 1) = b := by decide
    rw [boundText_eq, flag]
    exact bounded
  · exact boundRenderedInfo_bounded text limit
  · exact boundString_longest text

/-- The character of two bytes is skipped, and the one behind it is kept. -/
theorem narrow_character_kept :
    ¬∀ (text : String) (limit : Nat),
      BoundedAs limit text (takeUtf8Bytes limit text).1 (takeUtf8Bytes limit text).2 := by
  intro all
  have isPrefix := (all "aéb" 2).1.isPrefix
  exact absurd isPrefix (by decide)

end LeanRs
