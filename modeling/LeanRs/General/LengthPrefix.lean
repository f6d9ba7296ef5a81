import LeanRs.General.LittleEndian
import LeanRs.General.Procedure

/-! Streams of bytes that are read a number of bytes at a time, and frames in them: the length of
the body, most significant byte first, and then the body. -/
namespace LengthPrefix

open Procedures Procedure

def bigEndian (width n : Nat) : List UInt8 := (LittleEndian.toBytes width n).reverse

def ofBigEndian (bytes : List UInt8) : Nat := LittleEndian.ofBytes bytes.reverse

@[simp] theorem length_bigEndian (width n : Nat) : (bigEndian width n).length = width := by
  simp [bigEndian]

theorem ofBigEndian_bigEndian {width n : Nat} (fits : n < 256 ^ width) :
    ofBigEndian (bigEndian width n) = n := by
  rw [ofBigEndian, bigEndian, List.reverse_reverse, LittleEndian.ofBytes_toBytes fits]

def frame (width : Nat) (body : List UInt8) : List UInt8 := bigEndian width body.length ++ body

@[simp] theorem length_frame (width : Nat) (body : List UInt8) :
    (frame width body).length = width + body.length := by
  simp [frame]

/-- What is there to be read, and whether nothing will come after it. -/
structure Stream where
  bytes : List UInt8
  ended : Bool

/-- A read of exactly so many bytes. It waits for them, and an end before them is an error. -/
def readExact {E : Type} (early : E) (n : Nat) : Procedure Stream E (List UInt8) := fun s =>
  if n ≤ s.bytes.length then .returned (s.bytes.take n) { s with bytes := s.bytes.drop n }
  else if s.ended then .raised early { s with bytes := [] }
  else .waiting s

theorem readExact_append {E : Type} (early : E) (front rest : List UInt8) (ended : Bool) :
    readExact early front.length ⟨front ++ rest, ended⟩ = .returned front ⟨rest, ended⟩ := by
  have enough : front.length ≤ (front ++ rest).length := by
    rw [List.length_append]
    exact Nat.le_add_right _ _
  simp only [readExact, if_pos enough, List.take_left, List.drop_left]

theorem readExact_waiting {E : Type} (early : E) {n : Nat} {bytes : List UInt8}
    (few : bytes.length < n) : readExact early n ⟨bytes, false⟩ = .waiting ⟨bytes, false⟩ := by
  simp [readExact, Nat.not_le_of_lt few]

theorem readExact_early {E : Type} (early : E) {n : Nat} {bytes : List UInt8}
    (few : bytes.length < n) : readExact early n ⟨bytes, true⟩ = .raised early ⟨[], true⟩ := by
  simp [readExact, Nat.not_le_of_lt few]

theorem take_frame {width taken : Nat} {body : List UInt8} (torn : taken < width + body.length) :
    ((frame width body).take taken).length < width ∨
      ∃ part, (frame width body).take taken = bigEndian width body.length ++ part ∧
        part.length < body.length := by
  by_cases short : taken < width
  · left
    rw [List.length_take, length_frame, Nat.min_eq_left (Nat.le_of_lt torn)]
    exact short
  · have long : width ≤ taken := Nat.le_of_not_gt short
    refine .inr ⟨body.take (taken - width), ?_, ?_⟩
    · rw [frame, List.take_append, length_bigEndian, List.take_of_length_le (by simpa using long)]
    · rw [List.length_take]
      omega

end LengthPrefix
