import LeanRs.General.Text
import LeanRs.General.Trimming
import LeanRs.Toolchain.Lake

/-! What the three line scanners make of a `lakefile.lean`, beside what its declarations declare. -/
namespace LeanRs

open Trimming

namespace Modules

/-- `normalize_lake_identifier` of module discovery, which drops backticks too. -/
def normalizeLakeIdentifier (raw : List Char) : List Char :=
  trimChars (trimMatches '"' (trimMatches '»' (trimMatches '«' (trimMatches '`' (trimChars raw)))))

def firstWord? (text : List Char) : Option (List Char) :=
  match (text.dropWhile isWhiteSpace).takeWhile (fun c => !isWhiteSpace c) with
  | [] => none
  | word => some word

def leanLibLine? (line : List Char) : Option String := do
  let rest ← stripPrefix? "lean_lib ".toList (line.dropWhile isWhiteSpace)
  let raw ← firstWord? rest
  let root := normalizeLakeIdentifier raw
  if root.isEmpty then none else some (String.ofList root)

def discoverLeanLakefileRoots (text : String) : List String :=
  (splitLines text.toList).filterMap leanLibLine?

end Modules

def isBareChar (c : Char) : Bool :=
  let code := c.toNat
  (48 ≤ code && code ≤ 57) || (65 ≤ code && code ≤ 90) || (97 ≤ code && code ≤ 122) ||
    code == 95 || code == 39 || code == 33 || code == 63 || code == 46 ||
    (0xC0 ≤ code && code ≤ 0x17F && code != 0xD7 && code != 0xF7) ||
    (0x391 ≤ code && code ≤ 0x3A9 && code != 0x3A0 && code != 0x3A3) ||
    (0x3B1 ≤ code && code ≤ 0x3FB && code != 0x3BB) || (0x1D62 ≤ code && code ≤ 0x1D6A) ||
    (0x1F00 ≤ code && code ≤ 0x1FFE) || (0x2080 ≤ code && code ≤ 0x2089) ||
    (0x2090 ≤ code && code ≤ 0x209C) || (0x2100 ≤ code && code ≤ 0x214F) || code == 0x2C7C ||
    (0x1D49C ≤ code && code ≤ 0x1D59F)

theorem isBareChar_not_white {c : Char} (bare : isBareChar c = true) : isWhiteSpace c = false := by
  rw [Bool.eq_false_iff]
  intro white
  simp only [isBareChar, isWhiteSpace, Bool.or_eq_true, Bool.and_eq_true, decide_eq_true_eq,
    beq_iff_eq, bne_iff_ne] at bare white
  omega

inductive LakeIdent where
  | bare (name : List Char)
  | quoted (name : List Char)
  | string (name : List Char)
  deriving DecidableEq

namespace LakeIdent

def name : LakeIdent → List Char
  | .bare name | .quoted name | .string name => name

def text : LakeIdent → List Char
  | .bare name => name
  | .quoted name => '«' :: (name ++ ['»'])
  | .string name => '"' :: (name ++ ['"'])

def WellFormed (ident : LakeIdent) : Prop :=
  ident.name ≠ [] ∧ '\n' ∉ ident.name ∧ match ident with
    | .bare name => ∀ c ∈ name, isBareChar c = true
    | .quoted name => '«' ∉ name ∧ '»' ∉ name
    | .string name => '"' ∉ name ∧ '\\' ∉ name

def EndsBefore (ident : LakeIdent) (trailing : List Char) : Prop :=
  match ident with
  | .bare _ => ∀ c ∈ trailing.head?, isBareChar c = false
  | .quoted _ => ∀ c ∈ trailing.head?, c ≠ '.'
  | .string _ => True

end LakeIdent

structure LakeDeclaration where
  indent : List Char
  gap : List Char
  ident : LakeIdent
  trailing : List Char
  indent_white : ∀ c ∈ indent, isWhiteSpace c = true ∧ c ≠ '\n'
  gap_white : ∀ c ∈ gap, isWhiteSpace c = true ∧ c ≠ '\n'
  written : ident.WellFormed
  ends : ident.EndsBefore trailing
  gap_some : (∃ name, ident = .bare name) → gap ≠ []
  oneLine : '\n' ∉ trailing

def LakeDeclaration.text (keyword : List Char) (d : LakeDeclaration) : List Char :=
  d.indent ++ (keyword ++ d.gap ++ d.ident.text ++ d.trailing)

def Begins (keyword line : List Char) : Prop :=
  ∃ rest, line.dropWhile isWhiteSpace = keyword ++ rest ∧ ∀ c ∈ rest.head?, isBareChar c = false

structure OtherLine where
  text : List Char
  oneLine : '\n' ∉ text
  noPackage : ¬Begins "package".toList text
  noLibrary : ¬Begins "lean_lib".toList text

inductive LakeLine where
  | package (d : LakeDeclaration)
  | leanLib (d : LakeDeclaration)
  | other (line : OtherLine)

def LakeLine.text : LakeLine → List Char
  | .package d => d.text "package".toList
  | .leanLib d => d.text "lean_lib".toList
  | .other line => line.text

def LakeLine.leanLib? : LakeLine → Option LakeDeclaration
  | .leanLib d => some d
  | _ => none

structure LeanLakefile where
  before : List LakeLine
  package : LakeDeclaration
  after : List LakeLine
  once : ∀ d, .package d ∉ before ++ after

namespace LeanLakefile

def lines (f : LeanLakefile) : List LakeLine := f.before ++ .package f.package :: f.after

def contents (f : LeanLakefile) : String :=
  String.ofList (['\n'].intercalate (f.lines.map LakeLine.text))

def lakefile (f : LeanLakefile) : Lakefile := ⟨false, .ok f.contents⟩

def leanLibs (f : LeanLakefile) : List LakeDeclaration := f.lines.filterMap LakeLine.leanLib?

def libraries (f : LeanLakefile) : List String :=
  f.leanLibs.map fun d => String.ofList d.ident.name

def packageName (f : LeanLakefile) : String := String.ofList f.package.ident.name

end LeanLakefile

def isMark (mark : Char) : Char → Bool := (· == mark)

/-- The cuts of a normaliser, where `lead` has the marks that it drops first. -/
def cuts (lead : List Char) : List (Char → Bool) :=
  isWhiteSpace :: ((lead ++ ['«', '»', '"']).map isMark ++ [isWhiteSpace])

theorem trimChars_eq (cs : List Char) : trimChars cs = trim isWhiteSpace cs := rfl

theorem trimMatches_eq (mark : Char) (cs : List Char) :
    trimMatches mark cs = trim (isMark mark) cs := rfl

theorem normalizeLakeIdentifier_eq (raw : List Char) :
    normalizeLakeIdentifier raw = String.ofList (trimAll (cuts []) raw) := by
  simp only [normalizeLakeIdentifier, trimChars_eq, trimMatches_eq, cuts, trimAll,
    List.nil_append, List.map_cons, List.map_nil, List.cons_append, List.foldl_cons,
    List.foldl_nil]

theorem Modules.normalizeLakeIdentifier_eq (raw : List Char) :
    Modules.normalizeLakeIdentifier raw = trimAll (cuts ['`']) raw := by
  simp only [Modules.normalizeLakeIdentifier, trimChars_eq, trimMatches_eq, cuts, trimAll,
    List.nil_append, List.map_cons, List.map_nil, List.cons_append, List.foldl_cons,
    List.foldl_nil]

/-- Nothing that stands behind the identifier is left, and nothing of its name goes with it. -/
def LakeIdent.Plain (lead : List Char) (u : List Char) : LakeIdent → Prop
  | .bare _ => stripEnd (cuts lead) u = []
  | .quoted name =>
    stripEnd (isWhiteSpace :: (lead ++ ['«', '»']).map isMark) u = [] ∧
      trimChars (trimMatches '"' name) = name
  | .string name =>
    stripEnd (isWhiteSpace :: (lead ++ ['«', '»', '"']).map isMark) u = [] ∧
      trimChars name = name

theorem isMark_of_ne {mark c : Char} (other : c ≠ mark) : isMark mark c = false :=
  beq_eq_false_iff_ne.mpr other

theorem endsApart_of_mem {p : Char → Bool} {core : List Char} (some : core ≠ [])
    (keep : ∀ x ∈ core, p x = false) : EndsApart p core where
  some := some
  first x first := keep x (List.mem_of_mem_head? first)
  last x last := keep x (List.mem_of_mem_getLast? last)

theorem endsApart_between {p : Char → Bool} {c : Char} (name : List Char) {d : Char}
    (first : p c = false) (last : p d = false) : EndsApart p (c :: (name ++ [d])) where
  some := nofun
  first x same := by
    cases same
    exact first
  last x same := by
    rw [List.getLast?_cons, List.getLast?_append] at same
    cases same
    exact last

theorem endsApart_mark {name : List Char} {mark : Char} (some : name ≠ []) (none : mark ∉ name) :
    EndsApart (isMark mark) name :=
  endsApart_of_mem some fun _ member => isMark_of_ne fun same => none (same ▸ member)

theorem trim_opened {p : Char → Bool} (first : Char) {name : List Char} (opens : p first = true)
    (apart : EndsApart p name) (rest : List Char) :
    trim p (first :: (name ++ rest)) = name ++ rest.rdropWhile p := by
  rw [← apart.trim, trim, List.dropWhile_cons_of_pos opens]
  rfl

theorem cuts_split (lead : List Char) : cuts lead =
    (isWhiteSpace :: lead.map isMark) ++ [isMark '«', isMark '»', isMark '"', isWhiteSpace] := by
  simp [cuts]

theorem endsApart_cuts {ps : List (Char → Bool)} (first last : Char) (name : List Char)
    (opens : ∀ p ∈ ps, p first = false) (closes : ∀ p ∈ ps, p last = false) :
    ∀ p ∈ ps, EndsApart p (first :: (name ++ [last])) :=
  fun p member => endsApart_between name (opens p member) (closes p member)

theorem cut_of_mem {lead : List Char} (leads : ∀ m ∈ lead, m = '`') {c : Char}
    (white : isWhiteSpace c = false) (other : c ≠ '`') :
    ∀ p ∈ isWhiteSpace :: lead.map isMark, p c = false := by
  intro p member
  rcases List.mem_cons.mp member with rfl | member
  · exact white
  · obtain ⟨m, inLead, rfl⟩ := List.mem_map.mp member
    exact isMark_of_ne (leads m inLead ▸ other)

section Normalized

variable {lead : List Char} (leads : ∀ m ∈ lead, m = '`')
include leads

theorem LakeIdent.normalized_bare {name : List Char} (some : name ≠ [])
    (bare : ∀ c ∈ name, isBareChar c = true) (u : List Char) :
    trimAll (cuts lead) (name ++ u) = name ↔ stripEnd (cuts lead) u = [] := by
  have apart : ∀ p ∈ cuts lead, EndsApart p name := by
    refine fun p member => endsApart_of_mem some fun c among => ?_
    have here := bare c among
    simp only [cuts, List.mem_cons, List.mem_append, List.mem_map, List.not_mem_nil,
      or_false] at member
    rcases member with rfl | ⟨m, inMarks, rfl⟩ | rfl
    · exact isBareChar_not_white here
    · refine isMark_of_ne ?_
      rintro rfl
      rcases inMarks with inLead | rfl | rfl | rfl
      · rw [leads c inLead] at here
        exact absurd here (by decide)
      all_goals exact absurd here (by decide)
    · exact isBareChar_not_white here
  rw [trimAll_append apart, List.append_right_eq_self]

theorem LakeIdent.normalized_quoted {name : List Char} (some : name ≠ []) (noOpening : '«' ∉ name)
    (noClosing : '»' ∉ name) (u : List Char) :
    trimAll (cuts lead) ('«' :: (name ++ ['»']) ++ u) = name ↔
      stripEnd (isWhiteSpace :: (lead ++ ['«', '»']).map isMark) u = [] ∧
        trimChars (trimMatches '"' name) = name := by
  have before := trimAll_append (endsApart_cuts '«' '»' name
    (cut_of_mem leads (by decide) (by decide)) (cut_of_mem leads (by decide) (by decide))) u
  have behind : stripEnd (isWhiteSpace :: (lead ++ ['«', '»']).map isMark) u =
      ((stripEnd (isWhiteSpace :: lead.map isMark) u).rdropWhile (isMark '«')).rdropWhile
        (isMark '»') := by
    rw [List.map_append, ← List.cons_append, stripEnd_concat]
    rfl
  rw [behind, cuts_split, trimAll_concat, before]
  generalize stripEnd (isWhiteSpace :: lead.map isMark) u = v
  have opened := trim_opened '«' (by decide) (endsApart_mark some noOpening) ('»' :: v)
  rw [rdropWhile_cons_apart (by decide)] at opened
  have closed := (endsApart_mark some noClosing).trim ('»' :: v.rdropWhile (isMark '«'))
  have value : trimAll [isMark '«', isMark '»', isMark '"', isWhiteSpace]
      ('«' :: (name ++ ['»']) ++ v) = trimAll [isMark '"', isWhiteSpace]
        (name ++ ('»' :: v.rdropWhile (isMark '«')).rdropWhile (isMark '»')) := by
    rw [trimAll_cons, trimAll_cons, List.cons_append, List.append_assoc, List.singleton_append,
      opened, closed]
  rw [value]
  have closing : isMark '»' '»' = true := by decide
  rcases rdropWhile_mark closing (v.rdropWhile (isMark '«')) with
    ⟨gone, all⟩ | ⟨left, stays⟩
  · rw [all, List.append_nil]
    exact (and_iff_right gone).symm
  · refine iff_of_false (fun same => noClosing ?_) (fun plain => left plain.1)
    rw [← same]
    refine mem_trimAll (List.mem_append_right _ stays) fun p member => ?_
    rcases List.mem_pair.mp member with rfl | rfl
    · decide
    · decide

theorem LakeIdent.normalized_string {name : List Char} (some : name ≠ []) (noQuote : '"' ∉ name)
    (u : List Char) : trimAll (cuts lead) ('"' :: (name ++ ['"']) ++ u) = name ↔
      stripEnd (isWhiteSpace :: (lead ++ ['«', '»', '"']).map isMark) u = [] ∧
        trimChars name = name := by
  have keeps {c : Char} (white : isWhiteSpace c = false) (lead' : c ≠ '`') (opening : c ≠ '«')
      (closing : c ≠ '»') : ∀ p ∈ isWhiteSpace :: (lead ++ ['«', '»']).map isMark, p c = false := by
    intro p member
    rw [List.map_append, ← List.cons_append, List.mem_append] at member
    rcases member with early | late
    · exact cut_of_mem leads white lead' p early
    · rcases List.mem_pair.mp late with rfl | rfl
      · exact isMark_of_ne opening
      · exact isMark_of_ne closing
  have quote := keeps (c := '"') (by decide) (by decide) (by decide) (by decide)
  have before := trimAll_append (endsApart_cuts '"' '"' name quote quote) u
  have parts : cuts lead = (isWhiteSpace :: (lead ++ ['«', '»']).map isMark) ++
      [isMark '"', isWhiteSpace] := by simp [cuts]
  have behind : stripEnd (isWhiteSpace :: (lead ++ ['«', '»', '"']).map isMark) u =
      (stripEnd (isWhiteSpace :: (lead ++ ['«', '»']).map isMark) u).rdropWhile
        (isMark '"') := by
    have more : isWhiteSpace :: (lead ++ ['«', '»', '"']).map isMark =
        (isWhiteSpace :: (lead ++ ['«', '»']).map isMark) ++ [isMark '"'] := by simp
    rw [more, stripEnd_concat]
    rfl
  rw [behind, parts, trimAll_concat, before]
  generalize stripEnd (isWhiteSpace :: (lead ++ ['«', '»']).map isMark) u = v
  have opened := trim_opened '"' (by decide) (endsApart_mark some noQuote) ('"' :: v)
  have value : trimAll [isMark '"', isWhiteSpace] ('"' :: (name ++ ['"']) ++ v) =
      trimAll [isWhiteSpace] (name ++ ('"' :: v).rdropWhile (isMark '"')) := by
    rw [trimAll_cons, List.cons_append, List.append_assoc, List.singleton_append, opened]
  rw [value]
  have closing : isMark '"' '"' = true := by decide
  rcases rdropWhile_mark closing v with ⟨gone, all⟩ | ⟨left, stays⟩
  · rw [all, List.append_nil]
    exact (and_iff_right gone).symm
  · refine iff_of_false (fun same => noQuote ?_) (fun plain => left plain.1)
    rw [← same]
    refine mem_trimAll (List.mem_append_right _ stays) fun p member => ?_
    rw [List.mem_singleton.mp member]
    decide

theorem LakeIdent.normalized_iff (ident : LakeIdent) (written : ident.WellFormed) (u : List Char) :
    trimAll (cuts lead) (ident.text ++ u) = ident.name ↔ ident.Plain lead u := by
  obtain ⟨some, -, shape⟩ := written
  cases ident with
  | bare name => exact normalized_bare leads some shape u
  | quoted name => exact normalized_quoted leads some shape.1 shape.2 u
  | string name => exact normalized_string leads some shape.1 u

end Normalized

namespace LakeIdent

theorem text_apart {ident : LakeIdent} (written : ident.WellFormed) :
    EndsApart isWhiteSpace ident.text := by
  cases ident with
  | bare name =>
    exact endsApart_of_mem written.1 fun c member => isBareChar_not_white (written.2.2 c member)
  | quoted name => exact endsApart_between name (by decide) (by decide)
  | string name => exact endsApart_between name (by decide) (by decide)

theorem text_line {ident : LakeIdent} (written : ident.WellFormed) : '\n' ∉ ident.text := by
  cases ident with
  | bare name => exact written.2.1
  | quoted name =>
    have line : '\n' ∉ name := written.2.1
    simp [text, line]
  | string name =>
    have line : '\n' ∉ name := written.2.1
    simp [text, line]

theorem text_white {ident : LakeIdent} (thin : ∀ c ∈ ident.name, isWhiteSpace c = false) :
    ∀ c ∈ ident.text, isWhiteSpace c = false := by
  intro c member
  cases ident with
  | bare name => exact thin c member
  | quoted name =>
    simp only [text, List.mem_cons, List.mem_append, List.not_mem_nil, or_false] at member
    rcases member with rfl | inside | rfl
    · decide
    · exact thin c inside
    · decide
  | string name =>
    simp only [text, List.mem_cons, List.mem_append, List.not_mem_nil, or_false] at member
    rcases member with rfl | inside | rfl
    · decide
    · exact thin c inside
    · decide

end LakeIdent

theorem stripPrefix?_append (start rest : List Char) :
    stripPrefix? start (start ++ rest) = some rest := by
  rw [stripPrefix?, if_pos (List.isPrefixOf_iff_prefix.mpr (List.prefix_append start rest)),
    List.drop_left]

theorem stripPrefix?_eq_some {start text rest : List Char}
    (found : stripPrefix? start text = some rest) : text = start ++ rest := by
  unfold stripPrefix? at found
  split at found
  · rename_i isStart
    obtain ⟨tail, rfl⟩ := List.isPrefixOf_iff_prefix.mp isStart
    rw [List.drop_left] at found
    rw [Option.some.inj found]
  · cases found

namespace LakeDeclaration

variable (d : LakeDeclaration)

theorem dark_head {keyword : List Char}
    (dark : keyword.head?.all (fun c => !isWhiteSpace c) = true) :
    ∀ c ∈ keyword.head?, isWhiteSpace c = false := by
  intro c first
  rw [Option.mem_def.mp first, Option.all_some] at dark
  simpa using dark

theorem dropWhile_text {keyword : List Char} (first : ∀ c ∈ keyword.head?, isWhiteSpace c = false)
    (some : keyword ≠ []) : (d.text keyword).dropWhile isWhiteSpace =
      keyword ++ d.gap ++ d.ident.text ++ d.trailing := by
  rw [text, dropWhile_append_all fun c member => (d.indent_white c member).1]
  refine dropWhile_of_first ?_
  rw [List.append_assoc, List.append_assoc, head?_append some]
  exact first

theorem stripPrefix?_text (keyword trailing : List Char) :
    stripPrefix? (keyword ++ [' ']) (keyword ++ d.gap ++ d.ident.text ++ trailing) =
      if d.gap.head? = some ' ' then some (d.gap.tail ++ d.ident.text ++ trailing) else none := by
  cases gap : d.gap with
  | nil =>
    rw [if_neg nofun]
    cases found : stripPrefix? (keyword ++ [' ']) (keyword ++ [] ++ d.ident.text ++ trailing) with
    | none => rfl
    | some rest =>
      have whole := stripPrefix?_eq_some found
      simp only [List.append_nil, List.append_assoc, List.append_cancel_left_eq] at whole
      have first := LakeIdent.text_apart d.written
      have blank := first.first ' ' (by rw [← head?_append first.some, whole]; rfl)
      exact absurd blank (by decide)
  | cons c gap' =>
    by_cases blank : c = ' '
    · subst blank
      have regrouped : keyword ++ ' ' :: gap' ++ d.ident.text ++ trailing =
          (keyword ++ [' ']) ++ (gap' ++ d.ident.text ++ trailing) := by simp
      rw [regrouped, stripPrefix?_append]
      rfl
    · rw [if_neg (by simpa using blank)]
      cases found : stripPrefix? (keyword ++ [' '])
        (keyword ++ c :: gap' ++ d.ident.text ++ trailing) with
      | none => rfl
      | some rest =>
        have whole := stripPrefix?_eq_some found
        simp only [List.append_assoc, List.append_cancel_left_eq, List.cons_append,
          List.cons_eq_cons] at whole
        exact absurd whole.1 blank

end LakeDeclaration

def glued (trailing : List Char) : List Char := trailing.takeWhile fun c => !isWhiteSpace c

theorem firstWord?_eq {g core : List Char} (white : ∀ c ∈ g, isWhiteSpace c = true)
    (apart : EndsApart isWhiteSpace core) (trailing : List Char) :
    Modules.firstWord? (g ++ core ++ trailing) = some (glued (core ++ trailing)) := by
  have start : (g ++ core ++ trailing).dropWhile isWhiteSpace = core ++ trailing := by
    rw [List.append_assoc, dropWhile_append_all white]
    refine dropWhile_of_first ?_
    rw [head?_append apart.some]
    exact apart.first
  unfold Modules.firstWord?
  rw [start]
  cases core with
  | nil => exact absurd rfl apart.some
  | cons c core =>
    have here : isWhiteSpace c = false := apart.first c rfl
    simp [glued, here]

theorem glued_white (cs : List Char) : ∀ c ∈ glued cs, isWhiteSpace c = false := by
  intro c member
  simpa using List.mem_takeWhile_imp member

namespace LakeDeclaration

/-- Nothing but the declared name is read of the declaration up to the next blank. -/
def ReadsAsToken (d : LakeDeclaration) : Prop :=
  d.gap.head? = some ' ' ∧ (∀ c ∈ d.ident.name, isWhiteSpace c = false) ∧
    d.ident.Plain ['`'] (glued d.trailing)

/-- Nothing but the declared name is read of the declaration up to the end of the line. -/
def ReadsToEnd (d : LakeDeclaration) : Prop :=
  d.gap.head? = some ' ' ∧ d.ident.Plain [] (d.trailing.rdropWhile isWhiteSpace)

variable (d : LakeDeclaration)

theorem leanLibLine?_text : Modules.leanLibLine? (d.text "lean_lib".toList) =
    if d.gap.head? = some ' ' then
      let root := trimAll (cuts ['`']) (glued (d.ident.text ++ d.trailing))
      if root.isEmpty then none else some (String.ofList root)
    else none := by
  have keyword : "lean_lib ".toList = "lean_lib".toList ++ [' '] := by decide
  have tail : ∀ c ∈ d.gap.tail, isWhiteSpace c = true := fun c member =>
    (d.gap_white c (List.mem_of_mem_tail member)).1
  unfold Modules.leanLibLine?
  rw [d.dropWhile_text (dark_head (by decide)) (by decide), keyword,
    d.stripPrefix?_text _ d.trailing]
  split
  · rw [Option.bind_eq_bind, Option.bind_some,
      firstWord?_eq tail (LakeIdent.text_apart d.written), Option.bind_some,
      Modules.normalizeLakeIdentifier_eq]
  · rfl

theorem leanLibLine?_iff : Modules.leanLibLine? (d.text "lean_lib".toList) =
    some (String.ofList d.ident.name) ↔ d.ReadsAsToken := by
  have named : d.ident.name ≠ [] := d.written.1
  rw [leanLibLine?_text, ReadsAsToken]
  by_cases blank : d.gap.head? = some ' '
  · rw [if_pos blank, and_iff_right blank]
    have value : (let root := trimAll (cuts ['`']) (glued (d.ident.text ++ d.trailing))
        if root.isEmpty then none else some (String.ofList root)) =
          some (String.ofList d.ident.name) ↔
        trimAll (cuts ['`']) (glued (d.ident.text ++ d.trailing)) = d.ident.name := by
      dsimp only
      split
      · rename_i empty
        refine iff_of_false nofun fun same => named ?_
        rw [← same]
        exact List.isEmpty_iff.mp empty
      · rw [Option.some_inj, String.ofList_inj]
    rw [value]
    by_cases thin : ∀ c ∈ d.ident.name, isWhiteSpace c = false
    · have whole : glued (d.ident.text ++ d.trailing) = d.ident.text ++ glued d.trailing :=
        List.takeWhile_append_of_pos fun c member => by
          simp [LakeIdent.text_white thin c member]
      rw [whole, and_iff_right thin]
      exact LakeIdent.normalized_iff (by simp) d.ident d.written _
    · refine iff_of_false (fun same => thin fun c member => ?_) (fun plain => thin plain.1)
      rw [← same] at member
      exact glued_white _ c (trimAll_subset _ _ member)
  · rw [if_neg blank]
    exact iff_of_false nofun fun plain => blank plain.1

theorem trimChars_text {keyword : List Char} (first : ∀ c ∈ keyword.head?, isWhiteSpace c = false)
    (some : keyword ≠ []) : trimChars (d.text keyword) =
      keyword ++ d.gap ++ d.ident.text ++ d.trailing.rdropWhile isWhiteSpace := by
  have apart := LakeIdent.text_apart d.written
  have last : ∀ c ∈ (keyword ++ d.gap ++ d.ident.text).getLast?, isWhiteSpace c = false := by
    rw [List.getLast?_append_of_ne_nil _ apart.some]
    exact apart.last
  rw [trimChars_eq, trim, d.dropWhile_text first some, rdropWhile_append last]

theorem packageLine_iff : (stripPrefix? "package ".toList (trimChars (d.text "package".toList))).map
    normalizeLakeIdentifier = some (String.ofList d.ident.name) ↔ d.ReadsToEnd := by
  have keyword : "package ".toList = "package".toList ++ [' '] := by decide
  rw [d.trimChars_text (dark_head (by decide)) (by decide), keyword, d.stripPrefix?_text,
    ReadsToEnd]
  by_cases blank : d.gap.head? = some ' '
  · have white : ∀ c ∈ d.gap.tail, isWhiteSpace c = true := fun c member =>
      (d.gap_white c (List.mem_of_mem_tail member)).1
    have dropped (rest : List Char) : trimAll (cuts []) (d.gap.tail ++ rest) =
        trimAll (cuts []) rest := by
      rw [cuts, trimAll_cons, trimAll_cons, trim, dropWhile_append_all white]
      rfl
    rw [if_pos blank, and_iff_right blank, Option.map_some, Option.some_inj,
      normalizeLakeIdentifier_eq, String.ofList_inj, List.append_assoc, dropped]
    exact LakeIdent.normalized_iff (by simp) d.ident d.written _
  · rw [if_neg blank]
    constructor
    · intro read
      cases read
    · exact fun plain => absurd plain.1 blank

end LakeDeclaration

theorem splitLines_append {line : List Char} (oneLine : '\n' ∉ line) (rest : List Char) :
    splitLines (line ++ '\n' :: rest) = line :: splitLines rest := by
  induction line with
  | nil => rw [List.nil_append, splitLines, if_pos rfl]
  | cons c line ih =>
    have other : c ≠ '\n' := fun same => oneLine (same ▸ List.mem_cons_self)
    have later := ih fun member => oneLine (List.mem_cons_of_mem c member)
    rw [List.cons_append, splitLines, if_neg other, later]

theorem splitLines_self {line : List Char} (oneLine : '\n' ∉ line) : splitLines line = [line] := by
  induction line with
  | nil => rfl
  | cons c line ih =>
    have other : c ≠ '\n' := fun same => oneLine (same ▸ List.mem_cons_self)
    rw [splitLines, if_neg other, ih fun member => oneLine (List.mem_cons_of_mem c member)]

theorem splitLines_intercalate {lines : List (List Char)} (some : lines ≠ [])
    (oneLine : ∀ line ∈ lines, '\n' ∉ line) : splitLines (['\n'].intercalate lines) = lines := by
  induction lines with
  | nil => exact absurd rfl some
  | cons line lines ih =>
    cases lines with
    | nil =>
      rw [List.intercalate_singleton]
      exact splitLines_self (oneLine line List.mem_cons_self)
    | cons next lines =>
      rw [List.intercalate_cons_cons, List.append_assoc, List.singleton_append,
        splitLines_append (oneLine line List.mem_cons_self),
        ih (List.cons_ne_nil _ _) fun l member => oneLine l (List.mem_cons_of_mem line member)]

theorem LakeDeclaration.text_oneLine (d : LakeDeclaration) {keyword : List Char}
    (oneLine : '\n' ∉ keyword) : '\n' ∉ d.text keyword := by
  have indent : '\n' ∉ d.indent := fun member => (d.indent_white _ member).2 rfl
  have gap : '\n' ∉ d.gap := fun member => (d.gap_white _ member).2 rfl
  simp [LakeDeclaration.text, indent, gap, oneLine, LakeIdent.text_line d.written, d.oneLine]

theorem LakeLine.text_oneLine (line : LakeLine) : '\n' ∉ line.text := by
  cases line with
  | package d => exact d.text_oneLine (by decide)
  | leanLib d => exact d.text_oneLine (by decide)
  | other line => exact line.oneLine

theorem LeanLakefile.splitLines_contents (f : LeanLakefile) :
    splitLines f.contents.toList = f.lines.map LakeLine.text := by
  rw [contents, String.toList_ofList]
  refine splitLines_intercalate ?_ fun line member => ?_
  · simp [lines]
  · obtain ⟨l, -, rfl⟩ := List.mem_map.mp member
    exact l.text_oneLine

theorem begins_of_startsWith {keyword text rest : List Char}
    (start : keyword ++ [' '] ++ rest <+: text.dropWhile isWhiteSpace) : Begins keyword text := by
  obtain ⟨more, whole⟩ := start
  refine ⟨' ' :: rest ++ more, ?_, fun c first => ?_⟩
  · rw [← whole]
    simp
  · cases first
    decide

theorem leanLibLine?_other {line : List Char} (other : ¬Begins "lean_lib".toList line) :
    Modules.leanLibLine? line = none := by
  unfold Modules.leanLibLine?
  cases found : stripPrefix? "lean_lib ".toList (line.dropWhile isWhiteSpace) with
  | none => rfl
  | some rest =>
    have keyword : "lean_lib ".toList = "lean_lib".toList ++ [' '] := by decide
    have whole := stripPrefix?_eq_some found
    rw [keyword] at whole
    have start : "lean_lib".toList ++ [' '] ++ rest <+: line.dropWhile isWhiteSpace := by rw [whole]
    exact absurd (begins_of_startsWith start) other

theorem packageLine_other {line : List Char} (other : ¬Begins "package".toList line) :
    stripPrefix? "package ".toList (trimChars line) = none := by
  cases found : stripPrefix? "package ".toList (trimChars line) with
  | none => rfl
  | some rest =>
    have keyword : "package ".toList = "package".toList ++ [' '] := by decide
    have whole := stripPrefix?_eq_some found
    have start : trimChars line <+: line.dropWhile isWhiteSpace := List.rdropWhile_prefix _ _
    rw [whole, keyword] at start
    exact absurd (begins_of_startsWith start) other

theorem LakeDeclaration.not_begins (d : LakeDeclaration) {keyword other : List Char} {c o : Char}
    (first : keyword.head? = some c) (first' : other.head? = some o) (apart : c ≠ o)
    (thin : isWhiteSpace c = false) : ¬Begins other (d.text keyword) := by
  rintro ⟨rest, start, -⟩
  have some : keyword ≠ [] := by
    rintro rfl
    cases first
  rw [d.dropWhile_text (fun x same => by rw [first] at same; cases same; exact thin) some] at start
  cases keyword with
  | nil => exact some rfl
  | cons k keyword =>
    cases other with
    | nil => cases first'
    | cons o' other =>
      cases first
      cases first'
      exact apart (List.cons_eq_cons.mp start).1

theorem LakeLine.leanLibLine?_none {line : LakeLine} (none : line.leanLib? = none) :
    Modules.leanLibLine? line.text = Option.none := by
  cases line with
  | package d => exact leanLibLine?_other (d.not_begins rfl rfl (by decide) (by decide))
  | leanLib d => cases none
  | other line => exact leanLibLine?_other line.noLibrary

theorem LakeLine.packageLine_none {line : LakeLine} (none : ∀ d, line ≠ .package d) :
    stripPrefix? "package ".toList (trimChars line.text) = Option.none := by
  cases line with
  | package d => exact absurd rfl (none d)
  | leanLib d => exact packageLine_other (d.not_begins rfl rfl (by decide) (by decide))
  | other line => exact packageLine_other line.noPackage

theorem length_filterMap_le {A B : Type} {f g : A → Option B} {xs : List A}
    (absent : ∀ x ∈ xs, g x = none → f x = none) :
    (xs.filterMap f).length ≤ (xs.filterMap g).length := by
  induction xs with
  | nil => exact Nat.le_refl 0
  | cons x xs ih =>
    have rest := ih fun y member => absent y (List.mem_cons_of_mem x member)
    rw [List.filterMap_cons, List.filterMap_cons]
    cases right : g x with
    | none =>
      rw [absent x List.mem_cons_self right]
      exact rest
    | some b =>
      cases left : f x with
      | none => exact Nat.le_succ_of_le rest
      | some a => exact Nat.succ_le_succ rest

/-- Where one reading finds nothing unless the other does, they find the same in all only by
finding the same in each. -/
theorem filterMap_eq_iff {A B : Type} {f g : A → Option B} {xs : List A}
    (absent : ∀ x ∈ xs, g x = none → f x = none) :
    xs.filterMap f = xs.filterMap g ↔ ∀ x ∈ xs, f x = g x := by
  constructor
  · intro same
    induction xs with
    | nil => exact nofun
    | cons x xs ih =>
      have later : ∀ y ∈ xs, g y = none → f y = none := fun y member =>
        absent y (List.mem_cons_of_mem x member)
      have short := length_filterMap_le later
      rw [List.filterMap_cons, List.filterMap_cons] at same
      have both : f x = g x ∧ xs.filterMap f = xs.filterMap g := by
        cases right : g x with
        | none =>
          have left := absent x List.mem_cons_self right
          rw [left, right] at same
          exact ⟨left, same⟩
        | some b =>
          cases left : f x with
          | none =>
            rw [left, right] at same
            have lengths : (xs.filterMap f).length = (xs.filterMap g).length + 1 :=
              congrArg List.length same
            omega
          | some a =>
            rw [left, right] at same
            obtain ⟨here, rest⟩ := List.cons_eq_cons.mp same
            exact ⟨congrArg some here, rest⟩
      exact List.forall_mem_cons.mpr ⟨both.1, ih later both.2⟩
  · intro each
    exact List.filterMap_congr each

namespace LeanLakefile

variable (f : LeanLakefile)

theorem discover_iff : Modules.discoverLeanLakefileRoots f.contents = f.libraries ↔
    ∀ d ∈ f.leanLibs, d.ReadsAsToken := by
  have declared : f.libraries = f.lines.filterMap fun line =>
      line.leanLib?.map fun d => String.ofList d.ident.name := by
    rw [libraries, leanLibs, List.map_filterMap]
  have absent : ∀ line ∈ f.lines,
      line.leanLib?.map (fun d => String.ofList d.ident.name) = none →
        (Modules.leanLibLine? ∘ LakeLine.text) line = none :=
    fun line _ absent => LakeLine.leanLibLine?_none (Option.map_eq_none_iff.mp absent)
  rw [Modules.discoverLeanLakefileRoots, f.splitLines_contents, List.filterMap_map, declared,
    filterMap_eq_iff absent]
  constructor
  · intro same d member
    obtain ⟨line, inside, found⟩ := List.mem_filterMap.mp member
    cases line with
    | leanLib d' =>
      cases found
      exact d.leanLibLine?_iff.mp (same (.leanLib d) inside)
    | package d' => cases found
    | other line => cases found
  · intro plain line member
    cases line with
    | leanLib d =>
      exact d.leanLibLine?_iff.mpr (plain d (List.mem_filterMap.mpr ⟨_, member, rfl⟩))
    | package d => exact LakeLine.leanLibLine?_none rfl
    | other line =>
      have none : (LakeLine.other line).leanLib? = Option.none := rfl
      exact LakeLine.leanLibLine?_none none

variable (formats : Formats) (projectRoot : PathBuf)

theorem packageLine?_contents : packageLine? f.contents =
    (stripPrefix? "package ".toList (trimChars (f.package.text "package".toList))).map
      normalizeLakeIdentifier := by
  have others {ls : List LakeLine} (once : ∀ d, .package d ∉ ls) :
      (ls.map LakeLine.text).findSome? (fun line =>
        (stripPrefix? "package ".toList (trimChars line)).map normalizeLakeIdentifier) = none := by
    refine List.findSome?_eq_none_iff.mpr fun text member => ?_
    obtain ⟨line, inside, rfl⟩ := List.mem_map.mp member
    rw [LakeLine.packageLine_none fun d same => once d (same ▸ inside)]
    rfl
  have before := others fun d member => f.once d (List.mem_append_left _ member)
  have after := others fun d member => f.once d (List.mem_append_right _ member)
  rw [packageLine?, f.splitLines_contents, lines, List.map_append, List.findSome?_append, before,
    List.map_cons, List.findSome?_cons, after, LakeLine.text, Option.none_or]
  cases (stripPrefix? "package ".toList (trimChars (f.package.text "package".toList))).map
    normalizeLakeIdentifier <;> rfl

theorem package_iff (targetName : String) :
    packageNameFromLakefile formats projectRoot targetName f.lakefile = .ok f.packageName ↔
      f.package.ReadsToEnd := by
  rw [← f.package.packageLine_iff, ← f.packageLine?_contents]
  have read : readLakefile formats projectRoot targetName f.lakefile = .ok (.inr f.contents) := rfl
  rw [packageNameFromLakefile, read]
  dsimp only
  cases packageLine? f.contents with
  | none => exact iff_of_false nofun nofun
  | some name => exact ⟨fun same => congrArg some (Except.ok.inj same),
      fun same => congrArg Except.ok (Option.some.inj same)⟩

theorem target_eq (targetName : String) :
    targetDeclaredInLakefile formats projectRoot targetName f.lakefile =
      .ok (containsText f.contents ("lean_lib «" ++ targetName ++ "»") ||
        containsText f.contents ("lean_lib " ++ targetName) ||
        containsText f.contents ("lean_lib \"" ++ targetName ++ "\"")) := rfl

theorem containsText_of_append {contents first rest : String}
    (found : containsText contents (first ++ rest) = true) :
    containsText contents first = true := by
  have infix' := of_decide_eq_true found
  rw [String.toList_append] at infix'
  exact decide_eq_true ((List.prefix_append _ _).isInfix.trans infix')

theorem nothing_contained (nowhere : containsText f.contents "lean_lib " = false)
    {targetName : String} : (containsText f.contents ("lean_lib «" ++ targetName ++ "»") ||
      containsText f.contents ("lean_lib " ++ targetName) ||
      containsText f.contents ("lean_lib \"" ++ targetName ++ "\"")) = false := by
  have none (rest : String) : containsText f.contents ("lean_lib " ++ rest) = false := by
    rw [Bool.eq_false_iff]
    intro found
    rw [containsText_of_append found] at nowhere
    cases nowhere
  have quoted : "lean_lib «" ++ targetName ++ "»" = "lean_lib " ++ ("«" ++ targetName ++ "»") := by
    rw [String.append_assoc, String.append_assoc, ← String.append_assoc]
    rfl
  have string : "lean_lib \"" ++ targetName ++ "\"" =
      "lean_lib " ++ ("\"" ++ targetName ++ "\"") := by
    rw [String.append_assoc, String.append_assoc, ← String.append_assoc]
    rfl
  rw [quoted, string, none, none, none]
  rfl

theorem libraries_named {name : String} (declared : name ∈ f.libraries) : name ≠ "" := by
  obtain ⟨d, -, rfl⟩ := List.mem_map.mp declared
  exact fun empty => d.written.1 (String.ofList_injective (empty.trans String.ofList_nil.symm))

/-- A target is found by any place where the keyword and a blank stand before its name, so all
answers are right only where there is no such place, and no declaration either. -/
theorem target_iff : (∀ targetName,
    targetDeclaredInLakefile formats projectRoot targetName f.lakefile =
      .ok (decide (targetName ∈ f.libraries))) ↔
    f.leanLibs = [] ∧ containsText f.contents "lean_lib " = false := by
  constructor
  · intro exact
    have nowhere : containsText f.contents "lean_lib " = false := by
      have empty := exact ""
      rw [f.target_eq, decide_eq_false fun declared => f.libraries_named declared rfl] at empty
      have parts := Except.ok.inj empty
      rw [Bool.or_eq_false_iff, Bool.or_eq_false_iff, String.append_empty] at parts
      exact parts.1.2
    have none : ∀ name, name ∉ f.libraries := fun name declared => by
      have found := exact name
      rw [f.target_eq, decide_eq_true declared, f.nothing_contained nowhere] at found
      cases found
    rw [libraries] at none
    cases libs : f.leanLibs with
    | nil => exact ⟨rfl, nowhere⟩
    | cons d ds =>
      rw [libs] at none
      exact absurd List.mem_cons_self (none (String.ofList d.ident.name))
  · rintro ⟨none, nowhere⟩ targetName
    rw [f.target_eq, f.nothing_contained nowhere, libraries, none]
    rfl

theorem prefix_accepted {d : LakeDeclaration} (declared : d ∈ f.leanLibs) (blank : d.gap = [' '])
    {targetName : String} (start : targetName.toList <+: d.ident.text) :
    targetDeclaredInLakefile formats projectRoot targetName f.lakefile = .ok true := by
  obtain ⟨line, member, isLib⟩ := List.mem_filterMap.mp declared
  have same : line.text = d.text "lean_lib".toList := by
    cases line with
    | leanLib d' =>
      cases isLib
      rfl
    | package d' => cases isLib
    | other line => cases isLib
  obtain ⟨more, whole⟩ := start
  have phrase : ("lean_lib " ++ targetName).toList <:+: d.text "lean_lib".toList := by
    refine ⟨d.indent, more ++ d.trailing, ?_⟩
    have keyword : "lean_lib ".toList = "lean_lib".toList ++ [' '] := by decide
    rw [LakeDeclaration.text, blank, ← whole, String.toList_append, keyword]
    simp only [List.append_assoc]
  have inside : d.text "lean_lib".toList <:+: f.contents.toList := by
    have lines : f.contents.toList = ['\n'].intercalate (f.lines.map LakeLine.text) :=
      String.toList_ofList
    rw [lines, ← same]
    exact Text.infix_intercalate (List.mem_map_of_mem member)
  have found : containsText f.contents ("lean_lib " ++ targetName) = true :=
    decide_eq_true (phrase.trans inside)
  rw [f.target_eq, found, Bool.or_true, Bool.true_or]

end LeanLakefile

def LakeDeclaration.plain (ident : LakeIdent) (written : ident.WellFormed) (gap : Char)
    (white : isWhiteSpace gap = true ∧ gap ≠ '\n') (option : List Char) (oneLine : '\n' ∉ option) :
    LakeDeclaration where
  indent := []
  gap := [gap]
  ident := ident
  trailing := ' ' :: option
  indent_white := nofun
  gap_white c member := by
    rw [List.mem_singleton.mp member]
    exact white
  written := written
  ends := by
    cases ident with
    | bare name => exact fun c same => by cases same; decide
    | quoted name => exact fun c same => by cases same; decide
    | string name => exact trivial
  gap_some := fun _ => List.cons_ne_nil _ _
  oneLine := by simp [oneLine]

/-- `package demo where`, `lean_lib FooBar where`, and `lean_lib Baz where` with a tab. -/
def demoLakefile : LeanLakefile where
  before := []
  package := .plain (.bare "demo".toList)
    ⟨by decide, by decide, List.all_eq_true.mp (by decide)⟩ ' ' (by decide)
    "where".toList (by decide)
  after := [
    .leanLib (.plain (.bare "FooBar".toList)
      ⟨by decide, by decide, List.all_eq_true.mp (by decide)⟩ ' ' (by decide)
      "where".toList (by decide)),
    .leanLib (.plain (.bare "Baz".toList)
      ⟨by decide, by decide, List.all_eq_true.mp (by decide)⟩ '\t' (by decide)
      "where".toList (by decide))]
  once d member := by
    simp at member

end LeanRs
