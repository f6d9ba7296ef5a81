import LeanRs.Worker.Protocol

/-! Paths as text. The text of a path keeps what is valid UTF-8, so a path that was made from text
has that text again. -/
namespace LeanRs

theorem toList_loop (bs : ByteArray) (i : Nat) (r : List UInt8) :
    ByteArray.toList.loop bs i r = r.reverse ++ bs.data.toList.drop i := by
  fun_induction ByteArray.toList.loop bs i r with
  | case1 i r inside ih =>
    have inside' : i < bs.data.toList.length := inside
    have byte : bs.get! i = bs.data.toList[i] := dif_pos inside
    rw [ih, List.reverse_cons, List.append_assoc, List.drop_eq_getElem_cons inside', byte]
    rfl
  | case2 i r outside =>
    have outside' : bs.data.toList.length ≤ i := Nat.le_of_not_lt outside
    rw [List.drop_eq_nil_of_le outside', List.append_nil]

theorem toList_data (bs : ByteArray) : bs.toList = bs.data.toList := toList_loop bs 0 []

namespace PathBuf

theorem bytes_ofString (text : String) :
    (ofString text).bytes = text.toList.flatMap String.utf8EncodeChar := by
  have encoded : text.toByteArray = (text.toList.flatMap String.utf8EncodeChar).toByteArray := by
    conv => lhs; rw [← String.ofList_toList (s := text)]
    rw [String.toByteArray_ofList]
    rfl
  show text.toByteArray.toList = _
  rw [toList_data, encoded, List.toList_data_toByteArray]

theorem toNat_ofNat_lt {n : Nat} (h : n < 256) : (UInt8.ofNat n).toNat = n := by
  simpa using Nat.mod_eq_of_lt h

theorem lossyChars_one {b0 : UInt8} (h : b0.toNat < 128) (rest : List UInt8) :
    lossyChars (b0 :: rest) = Char.ofNat b0.toNat :: lossyChars rest := by
  have first : b0 < 0x80 := UInt8.lt_iff_toNat_lt.mpr h
  rw [lossyChars.eq_def]
  simp only [if_pos first]

theorem continuation_of {b : UInt8} (h : 128 ≤ b.toNat ∧ b.toNat ≤ 191) :
    continuation b = true := by
  have lower : (0x80 : UInt8) ≤ b := UInt8.le_iff_toNat_le.mpr h.1
  have upper : b ≤ 0xBF := UInt8.le_iff_toNat_le.mpr h.2
  simp [continuation, lower, upper]

theorem lossyChars_two {b0 b1 : UInt8} (h0 : 194 ≤ b0.toNat ∧ b0.toNat ≤ 223)
    (h1 : 128 ≤ b1.toNat ∧ b1.toNat ≤ 191) (rest : List UInt8) :
    lossyChars (b0 :: b1 :: rest) =
      Char.ofNat ((b0.toNat - 192) * 64 + (b1.toNat - 128)) :: lossyChars rest := by
  have one : ¬b0 < 0x80 := fun h => by
    have := UInt8.lt_iff_toNat_lt.mp h
    have : b0.toNat < 128 := this
    omega
  have lower : (0xC2 : UInt8) ≤ b0 := UInt8.le_iff_toNat_le.mpr h0.1
  have upper : b0 ≤ 0xDF := UInt8.le_iff_toNat_le.mpr h0.2
  rw [lossyChars.eq_def]
  simp only [if_neg one, lower, upper, continuation_of h1, decide_true, Bool.and_self, if_true]

theorem secondOfThree_of {b0 b1 : UInt8} (h0 : 224 ≤ b0.toNat ∧ b0.toNat ≤ 239)
    (h1 : 128 ≤ b1.toNat ∧ b1.toNat ≤ 191) (least : b0.toNat = 224 → 160 ≤ b1.toNat)
    (most : b0.toNat = 237 → b1.toNat ≤ 159) : secondOfThree b0 b1 = true := by
  simp only [secondOfThree, continuation, Bool.or_eq_true, Bool.and_eq_true, beq_iff_eq,
    decide_eq_true_eq, UInt8.le_iff_toNat_le, ← UInt8.toNat_inj, UInt8.reduceToNat]
  omega

theorem lossyChars_three {b0 b1 b2 : UInt8} (h0 : 224 ≤ b0.toNat ∧ b0.toNat ≤ 239)
    (h1 : secondOfThree b0 b1 = true) (h2 : 128 ≤ b2.toNat ∧ b2.toNat ≤ 191)
    (rest : List UInt8) :
    lossyChars (b0 :: b1 :: b2 :: rest) = Char.ofNat ((b0.toNat - 224) * 4096 +
      (b1.toNat - 128) * 64 + (b2.toNat - 128)) :: lossyChars rest := by
  have one : ¬b0 < 0x80 := fun h => by
    have : b0.toNat < 128 := UInt8.lt_iff_toNat_lt.mp h
    omega
  have two : ¬b0 ≤ 0xDF := fun h => by
    have : b0.toNat ≤ 223 := UInt8.le_iff_toNat_le.mp h
    omega
  have lower : (0xE0 : UInt8) ≤ b0 := UInt8.le_iff_toNat_le.mpr h0.1
  have upper : b0 ≤ 0xEF := UInt8.le_iff_toNat_le.mpr h0.2
  rw [lossyChars.eq_def]
  simp only [if_neg one, two, lower, upper, h1, continuation_of h2, decide_true, decide_false,
    Bool.and_self, Bool.and_false, if_true, Bool.false_eq_true, if_false]

theorem secondOfFour_of {b0 b1 : UInt8} (h0 : 240 ≤ b0.toNat ∧ b0.toNat ≤ 244)
    (h1 : 128 ≤ b1.toNat ∧ b1.toNat ≤ 191) (least : b0.toNat = 240 → 144 ≤ b1.toNat)
    (most : b0.toNat = 244 → b1.toNat ≤ 143) : secondOfFour b0 b1 = true := by
  simp only [secondOfFour, continuation, Bool.or_eq_true, Bool.and_eq_true, beq_iff_eq,
    decide_eq_true_eq, UInt8.le_iff_toNat_le, ← UInt8.toNat_inj, UInt8.reduceToNat]
  omega

theorem lossyChars_four {b0 b1 b2 b3 : UInt8} (h0 : 240 ≤ b0.toNat ∧ b0.toNat ≤ 244)
    (h1 : secondOfFour b0 b1 = true) (h2 : 128 ≤ b2.toNat ∧ b2.toNat ≤ 191)
    (h3 : 128 ≤ b3.toNat ∧ b3.toNat ≤ 191) (rest : List UInt8) :
    lossyChars (b0 :: b1 :: b2 :: b3 :: rest) = Char.ofNat ((b0.toNat - 240) * 262144 +
      (b1.toNat - 128) * 4096 + (b2.toNat - 128) * 64 + (b3.toNat - 128)) ::
        lossyChars rest := by
  have one : ¬b0 < 0x80 := fun h => by
    have : b0.toNat < 128 := UInt8.lt_iff_toNat_lt.mp h
    omega
  have two : ¬b0 ≤ 0xDF := fun h => by
    have : b0.toNat ≤ 223 := UInt8.le_iff_toNat_le.mp h
    omega
  have three : ¬b0 ≤ 0xEF := fun h => by
    have : b0.toNat ≤ 239 := UInt8.le_iff_toNat_le.mp h
    omega
  have lower : (0xF0 : UInt8) ≤ b0 := UInt8.le_iff_toNat_le.mpr h0.1
  have upper : b0 ≤ 0xF4 := UInt8.le_iff_toNat_le.mpr h0.2
  rw [lossyChars.eq_def]
  simp only [if_neg one, two, three, lower, upper, h1, continuation_of h2, continuation_of h3,
    decide_true, decide_false, Bool.and_self, Bool.and_false, if_true, Bool.false_eq_true,
    if_false]

theorem lead_range {low high b : UInt8} (lead : (decide (low ≤ b) && decide (b ≤ high)) = true) :
    low.toNat ≤ b.toNat ∧ b.toNat ≤ high.toNat := by
  simpa only [Bool.and_eq_true, decide_eq_true_eq, UInt8.le_iff_toNat_le] using lead

theorem continuation_bounds {b : UInt8} (more : continuation b = true) :
    128 ≤ b.toNat ∧ b.toNat ≤ 191 := by
  simpa only [continuation, Bool.and_eq_true, decide_eq_true_eq, UInt8.le_iff_toNat_le,
    UInt8.reduceToNat] using more

theorem secondOfThree_bounds {b0 b1 : UInt8} (second : secondOfThree b0 b1 = true) :
    128 ≤ b1.toNat ∧ b1.toNat ≤ 191 ∧ (b0.toNat = 224 → 160 ≤ b1.toNat) ∧
      (b0.toNat = 237 → b1.toNat ≤ 159) := by
  simp only [secondOfThree, continuation, Bool.or_eq_true, Bool.and_eq_true, beq_iff_eq,
    decide_eq_true_eq, UInt8.le_iff_toNat_le, ← UInt8.toNat_inj, UInt8.reduceToNat] at second
  omega

theorem secondOfFour_bounds {b0 b1 : UInt8} (second : secondOfFour b0 b1 = true) :
    128 ≤ b1.toNat ∧ b1.toNat ≤ 191 ∧ (b0.toNat = 240 → 144 ≤ b1.toNat) ∧
      (b0.toNat = 244 → b1.toNat ≤ 143) := by
  simp only [secondOfFour, continuation, Bool.or_eq_true, Bool.and_eq_true, beq_iff_eq,
    decide_eq_true_eq, UInt8.le_iff_toNat_le, ← UInt8.toNat_inj, UInt8.reduceToNat] at second
  omega

theorem lossyChars_encode (c : Char) (rest : List UInt8) :
    lossyChars (String.utf8EncodeChar c ++ rest) = c :: lossyChars rest := by
  have valid : c.val.toNat < 0xd800 ∨ (0xdfff < c.val.toNat ∧ c.val.toNat < 0x110000) := c.valid
  have same : Char.ofNat c.val.toNat = c := Char.ofNat_toNat c
  unfold String.utf8EncodeChar
  generalize c.val.toNat = v at *
  dsimp only
  have last : (UInt8.ofNat (v % 64 + 128)).toNat = v % 64 + 128 := toNat_ofNat_lt (by omega)
  have mid : (UInt8.ofNat (v / 64 % 64 + 128)).toNat = v / 64 % 64 + 128 :=
    toNat_ofNat_lt (by omega)
  split
  · have b0 : (UInt8.ofNat v).toNat = v := toNat_ofNat_lt (by omega)
    rw [List.cons_append, List.nil_append, lossyChars_one (by omega), b0, same]
  · split
    · have b0 : (UInt8.ofNat (v / 64 % 32 + 192)).toNat = v / 64 % 32 + 192 :=
        toNat_ofNat_lt (by omega)
      rw [List.cons_append, List.cons_append, List.nil_append,
        lossyChars_two (by omega) (by omega), b0, last]
      have code : (v / 64 % 32 + 192 - 192) * 64 + (v % 64 + 128 - 128) = v := by omega
      rw [code, same]
    · split
      · have b0 : (UInt8.ofNat (v / 4096 % 16 + 224)).toNat = v / 4096 % 16 + 224 :=
          toNat_ofNat_lt (by omega)
        rw [List.cons_append, List.cons_append, List.cons_append, List.nil_append,
          lossyChars_three (by omega)
            (secondOfThree_of (by omega) (by omega) (by omega) (by omega)) (by omega),
          b0, mid, last]
        have code : (v / 4096 % 16 + 224 - 224) * 4096 + (v / 64 % 64 + 128 - 128) * 64 +
            (v % 64 + 128 - 128) = v := by omega
        rw [code, same]
      · have b0 : (UInt8.ofNat (v / 262144 % 8 + 240)).toNat = v / 262144 % 8 + 240 :=
          toNat_ofNat_lt (by omega)
        have b1 : (UInt8.ofNat (v / 4096 % 64 + 128)).toNat = v / 4096 % 64 + 128 :=
          toNat_ofNat_lt (by omega)
        rw [List.cons_append, List.cons_append, List.cons_append, List.cons_append,
          List.nil_append, lossyChars_four (by omega)
            (secondOfFour_of (by omega) (by omega) (by omega) (by omega)) (by omega) (by omega),
          b0, b1, mid, last]
        have code : (v / 262144 % 8 + 240 - 240) * 262144 + (v / 4096 % 64 + 128 - 128) * 4096 +
            (v / 64 % 64 + 128 - 128) * 64 + (v % 64 + 128 - 128) = v := by omega
        rw [code, same]

theorem lossyChars_utf8 (cs : List Char) :
    lossyChars (cs.flatMap String.utf8EncodeChar) = cs := by
  induction cs with
  | nil => rw [List.flatMap_nil, lossyChars.eq_def]
  | cons c cs ih => rw [List.flatMap_cons, lossyChars_encode, ih]

theorem pathString_ofString (text : String) : (ofString text).pathString = text := by
  unfold pathString
  rw [bytes_ofString, lossyChars_utf8, String.ofList_toList]

def Utf8 (p : PathBuf) : Prop := ofString p.pathString = p

instance (p : PathBuf) : Decidable p.Utf8 := inferInstanceAs (Decidable (_ = _))

theorem utf8_ofString (text : String) : (ofString text).Utf8 := by
  unfold Utf8
  rw [pathString_ofString]

theorem pathString_empty_iff {p : PathBuf} (utf8 : p.Utf8) :
    p.pathString = "" ↔ p.bytes = [] := by
  constructor
  · intro empty
    rw [← utf8, empty, bytes_ofString]
    rfl
  · intro none
    show String.ofList (lossyChars p.bytes) = ""
    rw [none, lossyChars.eq_def]

theorem ofString_ne_nil {text : String} (given : text ≠ "") : (ofString text).bytes ≠ [] := by
  intro none
  have empty := (pathString_empty_iff (utf8_ofString text)).mpr none
  rw [pathString_ofString] at empty
  exact given empty

def toStr? (p : PathBuf) : Option String := if p.Utf8 then some p.pathString else none

def join (base relative : PathBuf) : PathBuf :=
  if relative.hasRoot then relative
  else if base.bytes = [] then relative
  else if base.bytes.getLast? = some 47 then ⟨base.bytes ++ relative.bytes⟩
  else ⟨base.bytes ++ 47 :: relative.bytes⟩

def joinStr (base : PathBuf) (relative : String) : PathBuf := base.join (.ofString relative)

/-- `file_name`: the last component, unless it stands for a directory. -/
def fileName? (p : PathBuf) : Option PathBuf :=
  (p.components.getLast?.filter fun name => name != [46] && name != [46, 46]).map PathBuf.mk

/-- What stands before the last dot of a file name, if anything does. -/
def stemOf (name : List UInt8) : List UInt8 :=
  let before := ((name.reverse.dropWhile (· != 46)).drop 1).reverse
  if before = [] then name else before

def fileStem? (p : PathBuf) : Option PathBuf := p.fileName?.map fun name => ⟨stemOf name.bytes⟩

end PathBuf

end LeanRs
