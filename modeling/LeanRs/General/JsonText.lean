import LeanRs.General.JsonReader

/-! JSON texts that are put together from other texts: objects, numbers, and the strings that Lean
prints. -/
namespace Json

theorem Spells.nonempty {text : List Char} {v : Value} (spells : Spells text v) : text ≠ [] := by
  rintro rfl
  cases spells

theorem Spells.skipSpace_eq {text : List Char} {v : Value} (spells : Spells text v)
    (more : List Char) : skipSpace (text ++ more) = text ++ more := by
  cases text with
  | nil => cases spells
  | cons c tail =>
    have solid : ¬isSpace c = true := by
      intro space
      unfold isSpace at space
      simp only [Bool.or_eq_true, beq_iff_eq] at space
      obtain ((rfl | rfl) | rfl) | rfl := space <;> cases spells
    exact List.dropWhile_cons_of_neg solid

def Ends (more : List Char) : Prop := ∀ c, more.head? = some c → isNumberChar c = false

theorem Spells.read {text : List Char} {v : Value} (spells : Spells text v) {fuel : Nat}
    (enough : text.length < fuel) {more : List Char} (ends : Ends more) :
    readValue fuel (text ++ more) = some (v, more) := by
  have longer := readValue_mono enough _ _ spells
  exact readValue_extends fuel _ _ _ more longer fun _ => ends

/-- Characters that stand for themselves inside a string. -/
def PlainText (text : List Char) : Prop :=
  ∀ c ∈ text, c ≠ quotation ∧ c ≠ backslash ∧ ¬c.toNat < 0x20

theorem readString_plain {text : List Char} (plain : PlainText text) {fuel : Nat}
    (enough : text.length < fuel) (more : List Char) :
    readString fuel (text ++ quotation :: more) = some (text, more) := by
  induction text generalizing fuel with
  | nil =>
    obtain ⟨fuel, rfl⟩ := Nat.exists_eq_add_of_lt enough
    exact if_pos rfl
  | cons c rest ih =>
    obtain ⟨fuel, rfl⟩ := Nat.exists_eq_add_of_le' (Nat.le_trans (Nat.succ_pos _) enough)
    obtain ⟨notQuotation, notBackslash, printable⟩ := plain c List.mem_cons_self
    have char : readChar (c :: (rest ++ quotation :: more)) =
        some (c, rest ++ quotation :: more) := by
      unfold readChar
      dsimp only
      rw [if_neg notBackslash, if_neg printable]
    rw [List.cons_append, readString, if_neg notQuotation, char]
    show (readString fuel (rest ++ quotation :: more)).bind _ = _
    rw [ih (fun d member => plain d (List.mem_cons_of_mem _ member))
      (Nat.lt_of_succ_lt_succ enough)]
    rfl

def Member.text (m : Member) : List Char :=
  quotation :: (m.key.toList ++ quotation :: ':' :: m.raw)

structure Member.Written (m : Member) : Prop where
  plain : PlainText m.key.toList
  spells : Spells m.raw m.value

def objectText (ms : List Member) : List Char :=
  openBrace :: ([','].intercalate (ms.map Member.text) ++ [closeBrace])

theorem Member.Written.read {m : Member} (written : m.Written) {fuel : Nat}
    (enough : m.text.length < fuel) {more : List Char} (ends : Ends more) :
    readMember fuel (readValue fuel) (m.text ++ more) = some (m, more) := by
  have lengths : m.text.length = m.key.toList.length + (m.raw.length + 3) := by
    unfold Member.text
    simp only [List.length_cons, List.length_append]
    omega
  have shorter : m.key.toList.length < fuel ∧ m.raw.length < fuel := by omega
  have key := readString_plain written.plain shorter.1 (':' :: (m.raw ++ more))
  have colon : skipSpace (':' :: (m.raw ++ more)) = ':' :: (m.raw ++ more) := rfl
  have value := written.spells.read shorter.2 ends
  have split : m.text ++ more =
      quotation :: (m.key.toList ++ quotation :: ':' :: (m.raw ++ more)) := by
    unfold Member.text
    simp only [List.cons_append, List.append_assoc]
  rw [split]
  unfold readMember
  dsimp only
  rw [if_pos rfl, key]
  simp only [Option.bind_eq_bind, Option.bind_some, colon]
  rw [if_pos trivial, written.spells.skipSpace_eq, value, Option.bind_some]
  dsimp only
  rw [List.length_append, Nat.add_sub_cancel, List.take_left, String.ofList_toList]

theorem Member.skipSpace_text (m : Member) (more : List Char) :
    skipSpace (m.text ++ more) = m.text ++ more :=
  List.dropWhile_cons_of_neg (by decide)

theorem ends_comma (more : List Char) : Ends (',' :: more) := by
  rintro c same
  obtain rfl := Option.some.inj same
  rfl

theorem ends_closeBrace (more : List Char) : Ends (closeBrace :: more) := by
  rintro c same
  obtain rfl := Option.some.inj same
  rfl

theorem readList_members {m : Member} {ms : List Member} (written : ∀ n ∈ m :: ms, n.Written)
    {fuel items : Nat} (enough : ∀ n ∈ m :: ms, n.text.length < fuel) (room : ms.length < items)
    (more : List Char) :
    readList (readMember fuel (readValue fuel)) closeBrace items
      ([','].intercalate ((m :: ms).map Member.text) ++ closeBrace :: more) =
        some (m :: ms, more) := by
  induction ms generalizing m items with
  | nil =>
    obtain ⟨items, rfl⟩ := Nat.exists_eq_succ_of_ne_zero (Nat.ne_of_gt room)
    have first := (written m List.mem_cons_self).read (enough m List.mem_cons_self)
      (ends_closeBrace more)
    have closing : skipSpace (closeBrace :: more) = closeBrace :: more := rfl
    show readList _ closeBrace _ ([','].intercalate [m.text] ++ _) = _
    rw [List.intercalate_singleton, readList, m.skipSpace_text, first]
    simp only [Option.bind_eq_bind, Option.bind_some, closing]
    rw [if_neg (by decide), if_pos trivial]
  | cons n ms ih =>
    obtain ⟨items, rfl⟩ := Nat.exists_eq_succ_of_ne_zero (Nat.ne_of_gt (Nat.zero_lt_of_lt room))
    have first := (written m List.mem_cons_self).read (enough m List.mem_cons_self)
      (ends_comma ([','].intercalate ((n :: ms).map Member.text) ++ closeBrace :: more))
    have others := ih (fun k member => written k (List.mem_cons_of_mem _ member))
      (fun k member => enough k (List.mem_cons_of_mem _ member))
      (Nat.lt_of_succ_lt_succ room)
    have comma : ∀ rest, skipSpace (',' :: rest) = ',' :: rest := fun rest => rfl
    have split : [','].intercalate ((m :: n :: ms).map Member.text) ++ closeBrace :: more =
        m.text ++ ',' :: ([','].intercalate ((n :: ms).map Member.text) ++ closeBrace :: more) := by
      rw [List.map_cons, List.map_cons, List.intercalate_cons_cons, List.append_assoc,
        List.append_assoc]
      rfl
    rw [split, readList, m.skipSpace_text, first]
    simp only [Option.bind_eq_bind, Option.bind_some, comma]
    rw [if_pos trivial, others]
    rfl

theorem length_joined (m : Member) (ms : List Member) :
    (∀ n ∈ m :: ms, n.text.length ≤ ([','].intercalate ((m :: ms).map Member.text)).length) ∧
      ms.length < ([','].intercalate ((m :: ms).map Member.text)).length := by
  induction ms generalizing m with
  | nil =>
    rw [List.map_cons, List.map_nil, List.intercalate_singleton]
    refine ⟨fun n member => ?_, Nat.succ_pos _⟩
    rw [List.mem_singleton.mp member]
  | cons k ms ih =>
    obtain ⟨shorter, fewer⟩ := ih k
    rw [List.map_cons, List.map_cons, List.intercalate_cons_cons, List.length_append,
      List.length_append, ← List.map_cons]
    constructor
    · intro n member
      obtain rfl | member := List.mem_cons.mp member
      · omega
      · have := shorter n member
        omega
    · rw [List.length_cons, List.length_singleton]
      omega

theorem readBracketed_members {m : Member} {ms : List Member} (written : ∀ n ∈ m :: ms, n.Written)
    {fuel : Nat} (enough : ([','].intercalate ((m :: ms).map Member.text)).length < fuel)
    (more : List Char) :
    readBracketed (readMember fuel (readValue fuel)) closeBrace fuel
      ([','].intercalate ((m :: ms).map Member.text) ++ closeBrace :: more) =
        some (m :: ms, more) := by
  obtain ⟨shorter, fewer⟩ := length_joined m ms
  have read := readList_members written
    (fun n member => Nat.lt_of_le_of_lt (shorter n member) enough) (Nat.lt_trans fewer enough) more
  have starts : ∃ rest, [','].intercalate ((m :: ms).map Member.text) ++ closeBrace :: more =
      quotation :: rest := by
    cases ms <;> exact ⟨_, rfl⟩
  obtain ⟨rest, starts⟩ := starts
  have solid : skipSpace (quotation :: rest) = quotation :: rest := rfl
  rw [starts] at read ⊢
  unfold readBracketed
  rw [solid]
  dsimp only
  rw [if_neg (by decide)]
  exact read

theorem length_objectText (ms : List Member) :
    ([','].intercalate (ms.map Member.text)).length < (objectText ms).length := by
  unfold objectText
  rw [List.length_cons, List.length_append]
  omega

theorem spells_objectText {m : Member} {ms : List Member} (written : ∀ n ∈ m :: ms, n.Written) :
    Spells (objectText (m :: ms)) (.object ((m :: ms).map fun n => (n.key, n.value))) := by
  have read := readBracketed_members written (length_objectText (m :: ms)) []
  unfold Spells
  generalize (objectText (m :: ms)).length = fuel at read ⊢
  unfold objectText
  rw [readValue, if_neg (by decide), if_neg (by decide), if_pos rfl, read]
  rfl

theorem readObject_objectText {m : Member} {ms : List Member}
    (written : ∀ n ∈ m :: ms, n.Written) : readObject (objectText (m :: ms)) = some (m :: ms) := by
  have read := readBracketed_members written (length_objectText (m :: ms)) []
  have solid : skipSpace (objectText (m :: ms)) = objectText (m :: ms) := rfl
  unfold readObject
  rw [solid]
  generalize (objectText (m :: ms)).length = fuel at read ⊢
  unfold objectText
  dsimp only
  rw [if_pos rfl, read]
  rfl

theorem spells_null : Spells "null".toList .null := rfl

theorem toDigits_leading {n : Nat} (positive : 0 < n) :
    ∃ c rest, Nat.toDigits 10 n = c :: rest ∧ c ≠ '0' := by
  induction n using Nat.strongRecOn with
  | ind n ih =>
    by_cases small : n < 10
    · have nonzero : ∀ k : Fin 10, 0 < k.val → k.val.digitChar ≠ '0' := by decide
      exact ⟨n.digitChar, [], Nat.toDigits_of_lt_base small, nonzero ⟨n, small⟩ positive⟩
    · obtain ⟨c, rest, digits, other⟩ := ih (n / 10) (by omega) (by omega)
      refine ⟨c, rest ++ [(n % 10).digitChar], ?_, other⟩
      rw [Nat.toDigits_of_base_le (by decide) (by omega), digits]
      rfl

theorem isInteger_toDigits (n : Nat) : isInteger (Nat.toDigits 10 n) = true := by
  obtain rfl | positive := Nat.eq_zero_or_pos n
  · rfl
  · obtain ⟨c, rest, digits, other⟩ := toDigits_leading positive
    have all : (Nat.toDigits 10 n).all Char.isDigit = true :=
      List.all_eq_true.mpr fun d member =>
        Nat.isDigit_of_mem_toDigits (by decide) (by decide) member
    rw [digits] at all ⊢
    unfold isInteger
    split
    · rename_i nothing
      cases nothing
    · rename_i zero
      exact absurd (List.cons.inj zero).1 other
    · exact all

theorem isNumberChar_of_isDigit {c : Char} (digit : c.isDigit = true) : isNumberChar c = true := by
  unfold isNumberChar
  rw [digit]
  rfl

theorem takeWhile_all {p : Char → Bool} {cs : List Char} (all : ∀ c ∈ cs, p c = true) :
    cs.takeWhile p = cs ∧ cs.dropWhile p = [] :=
  ⟨List.takeWhile_eq_self_iff.mpr all, List.dropWhile_eq_nil_iff.mpr all⟩

theorem readNumber_toDigits (n : Nat) : readNumber (Nat.toDigits 10 n) = some (.posInt n) := by
  have digit : ∀ c ∈ Nat.toDigits 10 n, c.isDigit = true := fun c member =>
    Nat.isDigit_of_mem_toDigits (by decide) (by decide) member
  have integer := isInteger_toDigits n
  have value := Nat.ofDigitChars_ten_toDigits (n := n)
  have whole := takeWhile_all digit
  generalize Nat.toDigits 10 n = ds at *
  unfold readNumber
  split
  rename_i negative unsigned sign
  split at sign
  · exact absurd (digit '-' List.mem_cons_self) (by decide)
  · obtain ⟨rfl, rfl⟩ := Prod.mk.inj sign
    rw [List.span_eq_takeWhile_dropWhile, whole.1, whole.2]
    dsimp only
    rw [integer, value]
    rfl

theorem spells_repr (n : Nat) : Spells n.repr.toList (.posInt n) := by
  have digit : ∀ c ∈ Nat.toDigits 10 n, c.isDigit = true := fun c member =>
    Nat.isDigit_of_mem_toDigits (by decide) (by decide) member
  have number := readNumber_toDigits n
  have whole := takeWhile_all fun c member => isNumberChar_of_isDigit (digit c member)
  rw [Nat.toList_repr]
  cases digits : Nat.toDigits 10 n with
  | nil => exact absurd digits Nat.toDigits_ne_nil
  | cons c rest =>
    rw [digits] at digit number whole
    have first := digit c List.mem_cons_self
    unfold Spells
    rw [readValue, if_neg (by rintro rfl; cases first), if_neg (by rintro rfl; cases first),
      if_neg (by rintro rfl; cases first), if_pos (isNumberChar_of_isDigit first)]
    unfold readNumberToken
    rw [whole.1, whole.2, number]
    rfl

/-- What Lean's printer writes for a character of a string. -/
def rendered (c : Char) : List Char :=
  if c = quotation then [backslash, quotation]
  else if c = backslash then [backslash, backslash]
  else if c = '\n' then [backslash, 'n']
  else if c = '\r' then [backslash, 'r']
  else if 0x20 ≤ c.toNat then [c]
  else
    let n := c.toNat
    [backslash, 'u', Nat.digitChar (n / 4096), Nat.digitChar (n % 4096 / 256),
      Nat.digitChar (n % 256 / 16), Nat.digitChar (n % 16)]

def renderString (s : String) : List Char := quotation :: (s.toList.flatMap rendered ++ [quotation])

theorem readChar_rendered_small : ∀ n : Fin 0x60, ∀ rest : List Char,
    readChar (rendered (Char.ofNat n) ++ rest) = some (Char.ofNat n, rest) := by
  intro n rest
  fin_cases n <;> rfl

theorem readChar_rendered (c : Char) (rest : List Char) :
    readChar (rendered c ++ rest) = some (c, rest) := by
  by_cases large : 0x60 ≤ c.toNat
  · have other : ∀ d : Char, d.toNat < 0x60 → c ≠ d := by
      rintro d small rfl
      exact absurd small (Nat.not_lt_of_le large)
    unfold rendered readChar
    rw [if_neg (other _ (by decide)), if_neg (other _ (by decide)), if_neg (other _ (by decide)),
      if_neg (other _ (by decide)), if_pos (by omega)]
    dsimp only [List.cons_append, List.nil_append]
    rw [if_neg (other _ (by decide)), if_neg (by omega)]
  · have small := readChar_rendered_small ⟨c.toNat, by omega⟩ rest
    rwa [Char.ofNat_toNat] at small

theorem rendered_starts (c : Char) : ∃ d rest, rendered c = d :: rest ∧ d ≠ quotation := by
  unfold rendered
  split
  · exact ⟨_, _, rfl, by decide⟩
  · rename_i other
    split
    · exact ⟨_, _, rfl, by decide⟩
    · split
      · exact ⟨_, _, rfl, by decide⟩
      · split
        · exact ⟨_, _, rfl, by decide⟩
        · split
          · exact ⟨_, _, rfl, other⟩
          · exact ⟨_, _, rfl, by decide⟩

theorem readString_rendered (cs : List Char) {fuel : Nat} (enough : cs.length < fuel)
    (more : List Char) :
    readString fuel (cs.flatMap rendered ++ quotation :: more) = some (cs, more) := by
  induction cs generalizing fuel with
  | nil =>
    obtain ⟨fuel, rfl⟩ := Nat.exists_eq_succ_of_ne_zero (Nat.ne_of_gt enough)
    exact if_pos rfl
  | cons c cs ih =>
    obtain ⟨fuel, rfl⟩ := Nat.exists_eq_succ_of_ne_zero (Nat.ne_of_gt (Nat.zero_lt_of_lt enough))
    have char := readChar_rendered c (cs.flatMap rendered ++ quotation :: more)
    obtain ⟨d, rest, starts, other⟩ := rendered_starts c
    rw [List.flatMap_cons, List.append_assoc]
    rw [starts, List.cons_append] at char ⊢
    rw [readString, if_neg other, char]
    simp only [Option.bind_eq_bind, Option.bind_some, ih (Nat.lt_of_succ_lt_succ enough)]

theorem length_le_rendered (cs : List Char) : cs.length ≤ (cs.flatMap rendered).length := by
  induction cs with
  | nil => exact Nat.le_refl 0
  | cons c cs ih =>
    obtain ⟨d, rest, starts, -⟩ := rendered_starts c
    rw [List.flatMap_cons, List.length_append, starts, List.length_cons, List.length_cons]
    omega

theorem spells_renderString (s : String) : Spells (renderString s) (.string s) := by
  have longer := length_le_rendered s.toList
  have read := readString_rendered s.toList
    (show s.toList.length < (renderString s).length by
      unfold renderString
      rw [List.length_cons, List.length_append, List.length_singleton]
      omega) []
  unfold Spells
  generalize (renderString s).length = fuel at read ⊢
  unfold renderString
  rw [readValue, if_pos rfl, read]
  show some (Value.string (String.ofList s.toList), _) = _
  rw [String.ofList_toList]

end Json
