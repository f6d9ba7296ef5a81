import Mathlib.Data.Fintype.Basic
import Mathlib.Tactic.FinCases

/-! String literals of JSON documents: what stands for a character inside the quotes, and that a
literal can be read back from whatever follows it. -/
namespace Json

def quotation : Char := Char.ofNat 0x22
def backslash : Char := Char.ofNat 0x5c

def hexDigit (n : Nat) : Char := Char.ofNat (if n < 10 then 48 + n else 87 + n)

def hexValue (c : Char) : Nat := if c.toNat < 58 then c.toNat - 48 else c.toNat - 87

def shortEscapes : List (Nat × Char) :=
  [(0x22, quotation), (0x5c, backslash), (0x08, 'b'), (0x09, 't'), (0x0a, 'n'), (0x0c, 'f'),
    (0x0d, 'r')]

def escaped (c : Char) : List Char :=
  match shortEscapes.lookup c.toNat with
  | some letter => [backslash, letter]
  | none =>
    if c.toNat < 0x20 then
      [backslash, 'u', '0', '0', hexDigit (c.toNat / 16), hexDigit (c.toNat % 16)]
    else [c]

def literal (cs : List Char) : List Char := quotation :: (cs.flatMap escaped ++ [quotation])

def unescapeLetter : List Char → Option (Char × List Char)
  | [] => none
  | letter :: rest =>
    match (shortEscapes.map Prod.swap).lookup letter with
    | some code => some (Char.ofNat code, rest)
    | none =>
      match rest with
      | _ :: _ :: high :: low :: rest =>
        some (Char.ofNat (16 * hexValue high + hexValue low), rest)
      | _ => none

def unescape : List Char → Option (Char × List Char)
  | [] => none
  | c :: rest => if c = backslash then unescapeLetter rest else some (c, rest)

theorem unescape_escaped_small : ∀ n : Fin 0x60, ∀ rest : List Char,
    unescape (escaped (Char.ofNat n) ++ rest) = some (Char.ofNat n, rest) := by
  intro n rest
  fin_cases n <;> rfl

theorem escaped_large {c : Char} (large : 0x60 ≤ c.toNat) : escaped c = [c] := by
  unfold escaped
  have missing : shortEscapes.lookup c.toNat = none := by
    rw [List.lookup_eq_none_iff]
    intro entry member
    have small : entry.1 < 0x60 := (by decide : ∀ e ∈ shortEscapes, e.1 < 0x60) entry member
    rw [bne_iff_ne]
    intro same
    rw [same] at large
    exact absurd small (Nat.not_lt_of_le large)
  rw [missing]
  exact if_neg (by omega)

theorem unescape_escaped (c : Char) (rest : List Char) :
    unescape (escaped c ++ rest) = some (c, rest) := by
  by_cases large : 0x60 ≤ c.toNat
  · have other : c ≠ backslash := by
      rintro rfl
      exact absurd large (by decide)
    rw [escaped_large large]
    exact if_neg other
  · have small := unescape_escaped_small ⟨c.toNat, by omega⟩ rest
    rwa [Char.ofNat_toNat] at small

theorem escaped_inj {c d : Char} {u v : List Char} (same : escaped c ++ u = escaped d ++ v) :
    c = d ∧ u = v := by
  have read := unescape_escaped c u
  rw [same, unescape_escaped] at read
  obtain ⟨rfl, rfl⟩ := Prod.mk.inj (Option.some.inj read)
  exact ⟨rfl, rfl⟩

theorem escaped_ne_quotation (c : Char) (u v : List Char) :
    escaped c ++ u ≠ quotation :: v := by
  intro same
  have read := unescape_escaped c u
  rw [same] at read
  have here : quotation = c := (Prod.mk.inj (Option.some.inj read)).1
  subst here
  exact absurd (List.cons.inj same).1 (by decide)

theorem literal_inj {s t u v : List Char} (same : literal s ++ u = literal t ++ v) :
    s = t ∧ u = v := by
  have inside : s.flatMap escaped ++ quotation :: u = t.flatMap escaped ++ quotation :: v := by
    unfold literal at same
    rw [List.cons_append, List.cons_append, List.append_assoc, List.append_assoc] at same
    exact (List.cons.inj same).2
  clear same
  induction s generalizing t with
  | nil =>
    cases t with
    | nil => exact ⟨rfl, (List.cons.inj inside).2⟩
    | cons d t =>
      rw [List.flatMap_cons, List.append_assoc] at inside
      exact absurd inside.symm (escaped_ne_quotation d _ _)
  | cons c s ih =>
    cases t with
    | nil =>
      rw [List.flatMap_cons, List.append_assoc] at inside
      exact absurd inside (escaped_ne_quotation c _ _)
    | cons d t =>
      rw [List.flatMap_cons, List.flatMap_cons, List.append_assoc, List.append_assoc] at inside
      obtain ⟨rfl, rest⟩ := escaped_inj inside
      obtain ⟨rfl, tail⟩ := ih rest
      exact ⟨rfl, tail⟩

theorem escaped_printable_small : ∀ n : Fin 0x60,
    (escaped (Char.ofNat n)).all (fun d => 0x20 ≤ d.toNat) = true := by
  intro n
  fin_cases n <;> rfl

theorem escaped_printable (c : Char) : ∀ d ∈ escaped c, 0x20 ≤ d.toNat := by
  by_cases large : 0x60 ≤ c.toNat
  · rw [escaped_large large]
    intro d member
    rw [List.mem_singleton.mp member]
    omega
  · have small := escaped_printable_small ⟨c.toNat, by omega⟩
    rw [Char.ofNat_toNat, List.all_eq_true] at small
    exact fun d member => of_decide_eq_true (small d member)

theorem literal_printable {cs : List Char} : ∀ d ∈ literal cs, 0x20 ≤ d.toNat := by
  intro d member
  rw [literal, List.mem_cons, List.mem_append, List.mem_flatMap, List.mem_singleton] at member
  obtain rfl | ⟨c, -, inside⟩ | rfl := member
  · decide
  · exact escaped_printable c d inside
  · decide

end Json
