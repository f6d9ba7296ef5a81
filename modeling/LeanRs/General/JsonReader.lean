import LeanRs.General.Json
import LeanRs.General.JsonString
import Mathlib.Data.List.TakeWhile

/-! A reader of JSON texts: values, lists of items and of members. It reads a text also in front of
more text, and with more fuel than it needs. -/
namespace Json

def openBrace : Char := Char.ofNat 0x7b
def closeBrace : Char := Char.ofNat 0x7d

def isSpace (c : Char) : Bool := c == ' ' || c == '\n' || c == '\r' || c == '\t'

def skipSpace (cs : List Char) : List Char := cs.dropWhile isSpace

def hex? (c : Char) : Option Nat :=
  if c.isDigit then some (c.toNat - 48)
  else if 'a' ≤ c ∧ c ≤ 'f' then some (c.toNat - 87)
  else if 'A' ≤ c ∧ c ≤ 'F' then some (c.toNat - 55)
  else none

def readHex : List Char → Option (Nat × List Char)
  | a :: b :: c :: d :: rest => do
    let w ← hex? a
    let x ← hex? b
    let y ← hex? c
    let z ← hex? d
    some (((w * 16 + x) * 16 + y) * 16 + z, rest)
  | _ => none

def letterEscapes : List (Char × Char) :=
  [(quotation, quotation), (backslash, backslash), ('/', '/'), ('b', Char.ofNat 0x08),
    ('f', Char.ofNat 0x0c), ('n', '\n'), ('r', '\r'), ('t', '\t')]

def readLowHalf (high : Nat) : List Char → Option (Char × List Char)
  | b :: u :: rest => do
    let (low, rest) ← readHex rest
    if b = backslash ∧ u = 'u' ∧ 0xdc00 ≤ low ∧ low < 0xe000 then
      some (Char.ofNat (0x10000 + (high - 0xd800) * 0x400 + (low - 0xdc00)), rest)
    else none
  | _ => none

def readUnicode (cs : List Char) : Option (Char × List Char) := do
  let (unit, rest) ← readHex cs
  if 0xd800 ≤ unit ∧ unit < 0xdc00 then readLowHalf unit rest
  else if 0xdc00 ≤ unit ∧ unit < 0xe000 then none
  else some (Char.ofNat unit, rest)

def readEscape : List Char → Option (Char × List Char)
  | [] => none
  | c :: rest => if c = 'u' then readUnicode rest else (letterEscapes.lookup c).map (·, rest)

def readChar : List Char → Option (Char × List Char)
  | [] => none
  | c :: rest =>
    if c = backslash then readEscape rest
    else if c.toNat < 0x20 then none
    else some (c, rest)

def readString : Nat → List Char → Option (List Char × List Char)
  | 0, _ => none
  | _ + 1, [] => none
  | fuel + 1, c :: rest =>
    if c = quotation then some ([], rest)
    else do
      let (d, rest) ← readChar (c :: rest)
      let (more, rest) ← readString fuel rest
      some (d :: more, rest)

def isNumberChar (c : Char) : Bool :=
  c.isDigit || c == '-' || c == '+' || c == '.' || c == 'e' || c == 'E'

def isInteger (cs : List Char) : Bool :=
  match cs with
  | [] => false
  | '0' :: rest => rest.isEmpty
  | _ => cs.all Char.isDigit

def isExponent (cs : List Char) : Bool :=
  match cs with
  | [] => true
  | e :: rest =>
    let digits := match rest with
      | '+' :: digits => digits
      | '-' :: digits => digits
      | digits => digits
    (e == 'e' || e == 'E') && !digits.isEmpty && digits.all Char.isDigit

def isFraction (cs : List Char) : Bool :=
  match cs with
  | '.' :: rest =>
    let (digits, tail) := rest.span Char.isDigit
    !digits.isEmpty && isExponent tail
  | _ => isExponent cs

def readNumber (token : List Char) : Option Value :=
  let (negative, unsigned) := match token with
    | '-' :: rest => (true, rest)
    | rest => (false, rest)
  let (whole, tail) := unsigned.span Char.isDigit
  if isInteger whole && isFraction tail then
    if tail.isEmpty then
      let n := Nat.ofDigitChars 10 whole 0
      some (if negative then .negInt n else .posInt n)
    else some (.float (String.ofList token))
  else none

def readNumberToken (cs : List Char) : Option (Value × List Char) :=
  (readNumber (cs.takeWhile isNumberChar)).map (·, cs.dropWhile isNumberChar)

def readWord : List Char → Option (Value × List Char)
  | 'n' :: 'u' :: 'l' :: 'l' :: rest => some (.null, rest)
  | 't' :: 'r' :: 'u' :: 'e' :: rest => some (.bool true, rest)
  | 'f' :: 'a' :: 'l' :: 's' :: 'e' :: rest => some (.bool false, rest)
  | _ => none

/-- Items up to a closing bracket, with commas between them; there is at least one. -/
def readList {A : Type} (item : List Char → Option (A × List Char)) (close : Char) :
    Nat → List Char → Option (List A × List Char)
  | 0, _ => none
  | fuel + 1, cs => do
    let (a, rest) ← item (skipSpace cs)
    match skipSpace rest with
    | [] => none
    | c :: rest =>
      if c = ',' then do
        let (as, rest) ← readList item close fuel rest
        some (a :: as, rest)
      else if c = close then some ([a], rest)
      else none

/-- A member of an object, with the text of its value as it stands. -/
structure Member where
  key : String
  raw : List Char
  value : Value

def readMember (fuel : Nat) (read : List Char → Option (Value × List Char)) :
    List Char → Option (Member × List Char)
  | [] => none
  | c :: rest =>
    if c = quotation then do
      let (key, rest) ← readString fuel rest
      match skipSpace rest with
      | [] => none
      | d :: rest =>
        if d = ':' then do
          let text := skipSpace rest
          let (v, rest) ← read text
          some (⟨String.ofList key, text.take (text.length - rest.length), v⟩, rest)
        else none
    else none

def readBracketed {A : Type} (item : List Char → Option (A × List Char)) (close : Char)
    (fuel : Nat) (cs : List Char) : Option (List A × List Char) :=
  match skipSpace cs with
  | [] => none
  | c :: rest => if c = close then some ([], rest) else readList item close fuel (c :: rest)

def readValue : Nat → List Char → Option (Value × List Char)
  | 0, _ => none
  | _ + 1, [] => none
  | fuel + 1, c :: rest =>
    if c = quotation then
      (readString fuel rest).map fun (s, rest) => (.string (String.ofList s), rest)
    else if c = '[' then
      (readBracketed (readValue fuel) ']' fuel rest).map fun (vs, rest) => (.array vs, rest)
    else if c = openBrace then
      (readBracketed (readMember fuel (readValue fuel)) closeBrace fuel rest).map
        fun (ms, rest) => (.object (ms.map fun m => (m.key, m.value)), rest)
    else if isNumberChar c then readNumberToken (c :: rest)
    else readWord (c :: rest)

def Spells (text : List Char) (v : Value) : Prop := readValue (text.length + 1) text = some (v, [])

def readObject (text : List Char) : Option (List Member) :=
  match skipSpace text with
  | c :: rest =>
    if c = openBrace then
      match readBracketed (readMember text.length (readValue text.length)) closeBrace text.length
          rest with
      | some (members, rest) => if (skipSpace rest).isEmpty then some members else none
      | none => none
    else none
  | [] => none

example : readObject "\x7b\"a\": [1, null], \"b\":\"x\"\x7d".toList =
    some [⟨"a", "[1, null]".toList, .array [.posInt 1, .null]⟩,
      ⟨"b", "\"x\"".toList, .string "x"⟩] := by rfl

/-- A reader that has read a text reads it from the front of a longer one, unless the text ends
where more of the same token could follow. -/
def Extends {A : Type} (read : List Char → Option (A × List Char)) : Prop :=
  ∀ cs a rest more, read cs = some (a, rest) →
    (rest = [] → ∀ c, more.head? = some c → isNumberChar c = false) →
      read (cs ++ more) = some (a, rest ++ more)

def ExtendsAlways {A : Type} (read : List Char → Option (A × List Char)) : Prop :=
  ∀ cs a rest more, read cs = some (a, rest) → read (cs ++ more) = some (a, rest ++ more)

theorem ExtendsAlways.extends {A : Type} {read : List Char → Option (A × List Char)}
    (always : ExtendsAlways read) : Extends read :=
  fun cs a rest more found _ => always cs a rest more found

theorem skipSpace_append {cs : List Char} (some : skipSpace cs ≠ []) (more : List Char) :
    skipSpace (cs ++ more) = skipSpace cs ++ more := by
  unfold skipSpace at some ⊢
  rw [List.dropWhile_append, if_neg (by simpa using some)]

theorem readHex_extends : ExtendsAlways readHex := by
  intro cs n rest more found
  match cs with
  | a :: b :: c :: d :: tail =>
    unfold readHex at found ⊢
    simp only [Option.bind_eq_bind, Option.bind_eq_some_iff, List.cons_append] at found ⊢
    obtain ⟨w, hw, x, hx, y, hy, z, hz, same⟩ := found
    obtain ⟨rfl, rfl⟩ := Prod.mk.inj (Option.some.inj same)
    exact ⟨w, hw, x, hx, y, hy, z, hz, rfl⟩
  | [] | [_] | [_, _] | [_, _, _] => cases found

theorem readLowHalf_extends (high : Nat) : ExtendsAlways (readLowHalf high) := by
  intro cs d rest more found
  match cs with
  | [] | [_] => simp [readLowHalf] at found
  | b :: u :: tail =>
    simp only [readLowHalf, List.cons_append, Option.bind_eq_bind] at found ⊢
    obtain ⟨⟨low, last⟩, hex, found⟩ := Option.bind_eq_some_iff.mp found
    rw [readHex_extends _ _ _ more hex, Option.bind_some]
    dsimp only at found ⊢
    split at found
    · rename_i half
      obtain ⟨rfl, rfl⟩ := Prod.mk.inj (Option.some.inj found)
      rw [if_pos half]
    · cases found

theorem readEscape_extends : ExtendsAlways readEscape := by
  intro cs d rest more found
  cases cs with
  | nil => cases found
  | cons c tail =>
    rw [List.cons_append]
    unfold readEscape at found ⊢
    dsimp only at found ⊢
    by_cases unicode : c = 'u'
    · rw [if_pos unicode] at found ⊢
      obtain ⟨⟨unit, later⟩, hex, found⟩ := Option.bind_eq_some_iff.mp found
      unfold readUnicode
      rw [readHex_extends _ _ _ more hex]
      show (if _ then _ else _) = _
      dsimp only at found
      split at found
      · rename_i high
        rw [if_pos high]
        exact readLowHalf_extends unit _ _ _ more found
      · rename_i plain
        rw [if_neg plain]
        split at found
        · cases found
        · rename_i single
          rw [if_neg single]
          cases found
          rfl
    · rw [if_neg unicode] at found ⊢
      obtain ⟨letter, known, same⟩ := Option.map_eq_some_iff.mp found
      cases same
      rw [known]
      rfl

theorem readString_extends (fuel : Nat) : ExtendsAlways (readString fuel) := by
  induction fuel with
  | zero =>
    intro cs s rest more found
    cases found
  | succ fuel ih =>
    intro cs s rest more found
    cases cs with
    | nil => cases found
    | cons c tail =>
      rw [List.cons_append]
      unfold readString at found ⊢
      by_cases closing : c = quotation
      · rw [if_pos closing] at found ⊢
        cases found
        rfl
      · rw [if_neg closing] at found ⊢
        obtain ⟨⟨d, later⟩, first, found⟩ := Option.bind_eq_some_iff.mp found
        obtain ⟨⟨ds, last⟩, others, found⟩ := Option.bind_eq_some_iff.mp found
        have char : readChar (c :: (tail ++ more)) = some (d, later ++ more) := by
          unfold readChar at first ⊢
          dsimp only at first ⊢
          split at first
          · rename_i escape
            rw [if_pos escape]
            exact readEscape_extends _ _ _ more first
          · rename_i plain
            rw [if_neg plain]
            split at first
            · cases first
            · rename_i printable
              rw [if_neg printable]
              cases first
              rfl
        cases found
        show (readChar (c :: (tail ++ more))).bind _ = _
        rw [char, Option.bind_some]
        dsimp only
        rw [ih _ _ _ more others]
        rfl

theorem readNumberToken_extends : Extends readNumberToken := by
  intro cs v rest more found ended
  obtain ⟨number, token, same⟩ := Option.map_eq_some_iff.mp found
  cases same
  unfold readNumberToken
  rw [List.takeWhile_append, List.dropWhile_append]
  cases after : cs.dropWhile isNumberChar with
  | nil =>
    have all : cs.takeWhile isNumberChar = cs := by
      rw [← List.append_nil (cs.takeWhile isNumberChar), ← after, List.takeWhile_append_dropWhile]
    have stops : more.takeWhile isNumberChar = [] ∧ more.dropWhile isNumberChar = more := by
      cases more with
      | nil => exact ⟨rfl, rfl⟩
      | cons c more =>
        have other := ended after c rfl
        exact ⟨List.takeWhile_cons_of_neg (by simp [other]),
          List.dropWhile_cons_of_neg (by simp [other])⟩
    rw [all] at token ⊢
    rw [if_pos rfl, stops.1, List.append_nil, token, List.isEmpty_nil, if_pos rfl, stops.2]
    rfl
  | cons c tail =>
    have shorter : (cs.takeWhile isNumberChar).length ≠ cs.length := by
      intro same
      have parts := congrArg List.length
        (List.takeWhile_append_dropWhile (p := isNumberChar) (l := cs))
      rw [List.length_append, after, List.length_cons] at parts
      omega
    rw [if_neg shorter, token]
    rfl

theorem readWord_extends : ExtendsAlways readWord := by
  intro cs v rest more found
  unfold readWord at found
  split at found <;> cases found <;> rfl

theorem readList_extends {A : Type} {item : List Char → Option (A × List Char)}
    (nothing : item [] = none) (extends' : Extends item) (close : Char) (fuel : Nat) :
    ExtendsAlways (readList item close fuel) := by
  induction fuel with
  | zero =>
    intro cs as rest more found
    cases found
  | succ fuel ih =>
    intro cs as rest more found
    unfold readList at found ⊢
    simp only [Option.bind_eq_bind] at found ⊢
    obtain ⟨⟨a, later⟩, first, found⟩ := Option.bind_eq_some_iff.mp found
    dsimp only at found
    have some : skipSpace cs ≠ [] := by
      intro none
      rw [none, nothing] at first
      cases first
    have followed : skipSpace later ≠ [] := by
      intro none
      rw [none] at found
      cases found
    have more' : item (skipSpace (cs ++ more)) = .some (a, later ++ more) := by
      rw [skipSpace_append some]
      apply extends' _ _ _ _ first
      rintro rfl
      exact absurd rfl followed
    rw [more', Option.bind_some]
    dsimp only
    rw [skipSpace_append followed]
    cases after : skipSpace later with
    | nil => exact absurd after followed
    | cons c tail =>
      rw [after] at found
      rw [List.cons_append]
      dsimp only at found ⊢
      split at found
      · rename_i comma
        rw [if_pos comma]
        obtain ⟨⟨bs, last⟩, others, found⟩ := Option.bind_eq_some_iff.mp found
        cases found
        rw [ih _ _ _ more others]
        rfl
      · rename_i other
        rw [if_neg other]
        split at found
        · rename_i closing
          rw [if_pos closing]
          cases found
          rfl
        · cases found

theorem readBracketed_extends {A : Type} {item : List Char → Option (A × List Char)}
    (nothing : item [] = none) (extends' : Extends item) (close : Char) (fuel : Nat) :
    ExtendsAlways (readBracketed item close fuel) := by
  intro cs as rest more found
  unfold readBracketed at found ⊢
  cases first : skipSpace cs with
  | nil =>
    rw [first] at found
    cases found
  | cons c tail =>
    rw [first] at found
    rw [skipSpace_append (by rw [first]; exact List.cons_ne_nil c tail), first, List.cons_append]
    dsimp only at found ⊢
    split at found
    · rename_i closing
      rw [if_pos closing]
      cases found
      rfl
    · rename_i other
      rw [if_neg other]
      exact readList_extends nothing extends' close fuel _ _ _ more found

theorem readMember_extends (fuel : Nat) {read : List Char → Option (Value × List Char)}
    (nothing : read [] = none) (extends' : Extends read) : Extends (readMember fuel read) := by
  intro cs m rest more found ended
  cases cs with
  | nil => cases found
  | cons c tail =>
    rw [List.cons_append]
    unfold readMember at found ⊢
    dsimp only at found ⊢
    split at found
    · rename_i quoted
      rw [if_pos quoted]
      simp only [Option.bind_eq_bind] at found ⊢
      obtain ⟨⟨key, later⟩, name, found⟩ := Option.bind_eq_some_iff.mp found
      dsimp only at found
      rw [readString_extends fuel _ _ _ more name, Option.bind_some]
      dsimp only
      cases after : skipSpace later with
      | nil =>
        rw [after] at found
        cases found
      | cons d text =>
        rw [after] at found
        rw [skipSpace_append (by rw [after]; exact List.cons_ne_nil _ _), after, List.cons_append]
        dsimp only at found ⊢
        split at found
        · rename_i colon
          rw [if_pos colon]
          obtain ⟨⟨v, last⟩, value, found⟩ := Option.bind_eq_some_iff.mp found
          have some : skipSpace text ≠ [] := by
            intro none
            rw [none, nothing] at value
            cases value
          cases found
          rw [skipSpace_append some, extends' _ _ _ more value ended, Option.bind_some]
          dsimp only
          rw [List.length_append, List.length_append, Nat.add_sub_add_right,
            List.take_append_of_le_length (Nat.sub_le _ _)]
        · cases found
    · cases found

theorem readValue_nil (fuel : Nat) : readValue fuel [] = none := by
  cases fuel <;> rfl

theorem readMember_nil (fuel : Nat) (read : List Char → Option (Value × List Char)) :
    readMember fuel read [] = none := rfl

theorem readValue_extends (fuel : Nat) : Extends (readValue fuel) := by
  induction fuel with
  | zero =>
    intro cs v rest more found
    cases found
  | succ fuel ih =>
    intro cs v rest more found ended
    cases cs with
    | nil => cases found
    | cons c tail =>
      rw [List.cons_append]
      unfold readValue at found ⊢
      split at found
      · rename_i string
        rw [if_pos string]
        obtain ⟨⟨s, last⟩, read, same⟩ := Option.map_eq_some_iff.mp found
        cases same
        rw [readString_extends fuel _ _ _ more read]
        rfl
      · rename_i notString
        rw [if_neg notString]
        split at found
        · rename_i array
          rw [if_pos array]
          obtain ⟨⟨vs, last⟩, read, same⟩ := Option.map_eq_some_iff.mp found
          cases same
          rw [readBracketed_extends (readValue_nil fuel) ih ']' fuel _ _ _ more read]
          rfl
        · rename_i notArray
          rw [if_neg notArray]
          split at found
          · rename_i object
            rw [if_pos object]
            obtain ⟨⟨ms, last⟩, read, same⟩ := Option.map_eq_some_iff.mp found
            cases same
            rw [readBracketed_extends (readMember_nil _ _)
              (readMember_extends fuel (readValue_nil fuel) ih) closeBrace fuel _ _ _ more read]
            rfl
          · rename_i notObject
            rw [if_neg notObject]
            split at found
            · rename_i number
              rw [if_pos number, ← List.cons_append]
              exact readNumberToken_extends _ _ _ more found ended
            · rename_i notNumber
              rw [if_neg notNumber, ← List.cons_append]
              exact readWord_extends _ _ _ more found

theorem readString_mono {fuel more : Nat} (le : fuel ≤ more) {cs : List Char}
    {r : List Char × List Char} (found : readString fuel cs = some r) :
    readString more cs = some r := by
  induction fuel generalizing more cs r with
  | zero => cases found
  | succ fuel ih =>
    obtain ⟨more, rfl⟩ := Nat.exists_eq_add_of_le' (Nat.le_trans (Nat.succ_pos fuel) le)
    cases cs with
    | nil => cases found
    | cons c tail =>
      unfold readString at found ⊢
      split at found
      · rename_i closing
        rw [if_pos closing]
        exact found
      · rename_i other
        rw [if_neg other]
        obtain ⟨⟨d, later⟩, first, found⟩ := Option.bind_eq_some_iff.mp found
        obtain ⟨⟨ds, last⟩, others, found⟩ := Option.bind_eq_some_iff.mp found
        show (readChar (c :: tail)).bind _ = _
        rw [first, Option.bind_some]
        dsimp only
        rw [ih (Nat.le_of_succ_le_succ le) others]
        exact found

def Covers {A : Type} (read wider : List Char → Option A) : Prop :=
  ∀ cs r, read cs = some r → wider cs = some r

theorem readList_mono {A : Type} {item wider : List Char → Option (A × List Char)}
    (covers : Covers item wider) (close : Char) {fuel more : Nat} (le : fuel ≤ more) :
    Covers (readList item close fuel) (readList wider close more) := by
  induction fuel generalizing more with
  | zero =>
    intro cs r found
    cases found
  | succ fuel ih =>
    intro cs r found
    obtain ⟨more, rfl⟩ := Nat.exists_eq_add_of_le' (Nat.le_trans (Nat.succ_pos fuel) le)
    unfold readList at found ⊢
    simp only [Option.bind_eq_bind] at found ⊢
    obtain ⟨⟨a, later⟩, first, found⟩ := Option.bind_eq_some_iff.mp found
    rw [covers _ _ first, Option.bind_some]
    dsimp only at found ⊢
    cases after : skipSpace later with
    | nil =>
      rw [after] at found
      cases found
    | cons c tail =>
      rw [after] at found
      dsimp only at found ⊢
      split at found
      · rename_i comma
        rw [if_pos comma]
        obtain ⟨⟨bs, last⟩, others, found⟩ := Option.bind_eq_some_iff.mp found
        rw [ih (Nat.le_of_succ_le_succ le) _ _ others]
        exact found
      · rename_i other
        rw [if_neg other]
        exact found

theorem readBracketed_mono {A : Type} {item wider : List Char → Option (A × List Char)}
    (covers : Covers item wider) (close : Char) {fuel more : Nat} (le : fuel ≤ more) :
    Covers (readBracketed item close fuel) (readBracketed wider close more) := by
  intro cs r found
  unfold readBracketed at found ⊢
  split at found
  · cases found
  · split at found
    · rename_i closing
      rw [if_pos closing]
      exact found
    · rename_i other
      rw [if_neg other]
      exact readList_mono covers close le _ _ found

theorem readMember_mono {read wider : List Char → Option (Value × List Char)}
    (covers : Covers read wider) {fuel more : Nat} (le : fuel ≤ more) :
    Covers (readMember fuel read) (readMember more wider) := by
  intro cs r found
  cases cs with
  | nil => cases found
  | cons c tail =>
    unfold readMember at found ⊢
    dsimp only at found ⊢
    split at found
    · rename_i quoted
      rw [if_pos quoted]
      simp only [Option.bind_eq_bind] at found ⊢
      obtain ⟨⟨key, later⟩, name, found⟩ := Option.bind_eq_some_iff.mp found
      rw [readString_mono le name, Option.bind_some]
      dsimp only at found ⊢
      cases after : skipSpace later with
      | nil =>
        rw [after] at found
        cases found
      | cons d text =>
        rw [after] at found
        dsimp only at found ⊢
        split at found
        · rename_i colon
          rw [if_pos colon]
          obtain ⟨⟨v, last⟩, value, found⟩ := Option.bind_eq_some_iff.mp found
          rw [covers _ _ value]
          exact found
        · cases found
    · cases found

theorem readValue_mono {fuel more : Nat} (le : fuel ≤ more) :
    Covers (readValue fuel) (readValue more) := by
  induction fuel generalizing more with
  | zero =>
    intro cs r found
    cases found
  | succ fuel ih =>
    intro cs r found
    obtain ⟨more, rfl⟩ := Nat.exists_eq_add_of_le' (Nat.le_trans (Nat.succ_pos fuel) le)
    have less := Nat.le_of_succ_le_succ le
    cases cs with
    | nil => cases found
    | cons c tail =>
      unfold readValue at found ⊢
      split at found
      · rename_i string
        rw [if_pos string]
        obtain ⟨s, read, rfl⟩ := Option.map_eq_some_iff.mp found
        rw [readString_mono less read]
        rfl
      · rename_i notString
        rw [if_neg notString]
        split at found
        · rename_i array
          rw [if_pos array]
          obtain ⟨vs, read, rfl⟩ := Option.map_eq_some_iff.mp found
          rw [readBracketed_mono (ih less) ']' less _ _ read]
          rfl
        · rename_i notArray
          rw [if_neg notArray]
          split at found
          · rename_i object
            rw [if_pos object]
            obtain ⟨ms, read, rfl⟩ := Option.map_eq_some_iff.mp found
            rw [readBracketed_mono (readMember_mono (ih less) less) closeBrace less _ _ read]
            rfl
          · rename_i notObject
            rw [if_neg notObject]
            exact found

end Json
