import LeanRs.General.TextCursor
import Mathlib.Data.String.Basic

/-! A source file as the shim sees it: a header that it has parsed, and a body with lines and
columns of its own. -/
namespace LeanRs

open String TextCursor

/-- A text with the byte offsets at which its lines start, and the offset of its end. -/
structure FileMap where
  source : String
  positions : List Nat

namespace FileMap

def loop : List Char → Nat → List Nat
  | [], i => [i]
  | c :: rest, i =>
    if c = '\n' then (i + c.utf8Size) :: loop rest (i + c.utf8Size) else loop rest (i + c.utf8Size)

def ofString (s : String) : FileMap := ⟨s, 0 :: loop s.toList 0⟩

/-- The byte offset of a line and a column, both counted as `Lean.Position` does. A column past the
end of the text is its end. -/
def ofPosition (m : FileMap) (line column : Nat) : Nat :=
  let colPos :=
    match m.positions[line - 1]? with
    | some position => position
    | none => m.positions.getLast?.getD 0
  colPos + utf8Len ((Pos.Raw.extract m.source ⟨colPos⟩ m.source.rawEndPos).toList.take column)

end FileMap

structure ModuleSourceSpan where
  startLine : Nat
  startColumn : Nat
  endLine : Nat
  endColumn : Nat
  deriving DecidableEq

structure SourceDocument where
  source : String
  fileMap : FileMap
  bodyFileMap : FileMap
  lineOffset : Nat

def countNewlines (s : String) : Nat := s.toList.count '\n'

namespace SourceDocument

def fromSources (source bodySource : String) (lineOffset : Nat) : SourceDocument :=
  ⟨source, .ofString source, .ofString bodySource, lineOffset⟩

def bodySpanToFile (doc : SourceDocument) (span : ModuleSourceSpan) : ModuleSourceSpan :=
  { span with
    startLine := span.startLine + doc.lineOffset
    endLine := span.endLine + doc.lineOffset }

def rawOffset? (doc : SourceDocument) (line column : Nat) : Option Pos.Raw :=
  if line = 0 ∨ column = 0 then none else some ⟨doc.fileMap.ofPosition line (column - 1)⟩

def replaceRawSpan (doc : SourceDocument) (replacement : String) (start stop : Pos.Raw) : String :=
  let pfx := Pos.Raw.extract doc.source 0 start
  let suffix := Pos.Raw.extract doc.source stop doc.source.rawEndPos
  pfx ++ replacement ++ suffix

def extractFileSpan? (doc : SourceDocument) (span : ModuleSourceSpan) : Option String :=
  match doc.rawOffset? span.startLine span.startColumn,
      doc.rawOffset? span.endLine span.endColumn with
  | some start, some stop => some (Pos.Raw.extract doc.source start stop)
  | _, _ => none

end SourceDocument

def splitOnNewline (text : String) : List String := (text.toList.splitOn '\n').map String.ofList

def lineColumnAfterText (line column : Nat) (text : String) : Nat × Nat :=
  let charCount (text : String) : Nat := text.toList.length
  let parts := splitOnNewline text
  match parts.reverse with
  | [] => (line, column)
  | last :: _ =>
    if parts.length = 1 then (line, column + charCount text)
    else (line + parts.length - 1, charCount last + 1)

theorem FileMap.loop_line {before : List Char} (start : AtLineStart before) (rest : List Char)
    (i : Nat) : (i :: loop (before ++ rest) i)[before.count '\n']? = some (i + utf8Len before) := by
  induction before generalizing i with
  | nil => rfl
  | cons c more ih =>
    have later : more ≠ [] → AtLineStart more := by
      intro some
      obtain nothing | ⟨first, split⟩ := start
      · cases nothing
      · cases first with
        | nil => exact absurd (List.cons.inj split).2 some
        | cons d first => exact Or.inr ⟨first, (List.cons.inj split).2⟩
    show (i :: loop (c :: (more ++ rest)) i)[(c :: more).count '\n']? = _
    unfold loop
    by_cases newline : c = '\n'
    · rw [if_pos newline, List.count_cons, if_pos (beq_iff_eq.mpr newline),
        List.getElem?_cons_succ]
      have start' : AtLineStart more := by
        by_cases nothing : more = []
        · exact Or.inl nothing
        · exact later nothing
      rw [ih start', utf8Len_cons]
      exact congrArg some (by omega)
    · have some : more ≠ [] := by
        rintro rfl
        obtain nothing | ⟨first, split⟩ := start
        · cases nothing
        · cases first with
          | nil => exact newline (List.cons.inj split).1
          | cons d first => exact absurd (List.cons.inj split).2 (by simp)
      have counted := ih (later some) (i + c.utf8Size)
      have positive := count_pos_of_atLineStart (later some) some
      rw [if_neg newline, List.count_cons, if_neg (fun same => newline (beq_iff_eq.mp same)),
        Nat.add_zero, utf8Len_cons]
      obtain ⟨k, count⟩ := Nat.exists_eq_succ_of_ne_zero (Nat.ne_of_gt positive)
      rw [count] at counted ⊢
      rw [List.getElem?_cons_succ] at counted ⊢
      rw [counted]
      congr 1
      omega

theorem extract_prefix (a b : List Char) :
    Pos.Raw.extract (ofList (a ++ b)) 0 ⟨utf8Len a⟩ = ofList a := by
  have valid := extract_of_valid [] a b
  rw [utf8Len_nil, Nat.zero_add, List.nil_append] at valid
  exact valid

theorem extract_suffix (a b : List Char) :
    Pos.Raw.extract (ofList (a ++ b)) ⟨utf8Len a⟩ (ofList (a ++ b)).rawEndPos = ofList b := by
  have valid := extract_of_valid a b []
  rw [List.append_nil] at valid
  rw [rawEndPos_ofList, utf8Len_append]
  exact valid

theorem FileMap.ofPosition_advance (a b : List Char) :
    (ofString (ofList (a ++ b))).ofPosition (advance (1, 1) a).1 ((advance (1, 1) a).2 - 1) =
      utf8Len a := by
  obtain ⟨before, split, start⟩ := exists_lastLine a
  have text : a ++ b = before ++ (lastLine a ++ b) := by
    conv_lhs => rw [split]
    exact List.append_assoc _ _ _
  have lines : a.count '\n' = before.count '\n' := by
    conv_lhs => rw [split]
    rw [List.count_append, List.count_eq_zero_of_not_mem (lastLine_plain a)]
    rfl
  have found : (0 :: loop (ofList (a ++ b)).toList 0)[a.count '\n']? = some (utf8Len before) := by
    rw [String.toList_ofList, text, lines, loop_line start, Nat.zero_add]
  rw [advance_eq]
  unfold ofPosition ofString
  simp only [Nat.add_sub_cancel_left, found]
  rw [text, extract_suffix, String.toList_ofList, List.take_left, ← utf8Len_append, ← split]

namespace SourceDocument

def Mapped (doc : SourceDocument) : Prop := doc.fileMap = .ofString doc.source

variable {doc : SourceDocument} {a b : List Char}

theorem Mapped.rawOffset?_advance (mapped : doc.Mapped) (source : doc.source = ofList (a ++ b)) :
    doc.rawOffset? (advance (1, 1) a).1 (advance (1, 1) a).2 = some ⟨utf8Len a⟩ := by
  unfold rawOffset?
  rw [if_neg, mapped, source, FileMap.ofPosition_advance]
  rw [advance_eq]
  simp only
  omega

theorem replaceRawSpan_nothing (source : doc.source = ofList (a ++ b)) (replacement : String) :
    doc.replaceRawSpan replacement ⟨utf8Len a⟩ ⟨utf8Len a⟩ =
      ofList (a ++ replacement.toList ++ b) := by
  unfold replaceRawSpan
  rw [source, extract_prefix, extract_suffix, ofList_append, ofList_append, ofList_toList]

end SourceDocument

theorem splitOn_lines (text : List Char) :
    (text.splitOn '\n').length = text.count '\n' + 1 := by
  induction text with
  | nil => rfl
  | cons c rest ih =>
    rw [List.splitOn_cons_eq_if_modifyHead, List.count_cons]
    split
    · rw [List.length_cons, ih]
    · rw [List.length_modifyHead, ih]

theorem splitOn_lastLine (text : List Char) :
    ∃ front, text.splitOn '\n' = front ++ [lastLine text] := by
  obtain ⟨before, split, start⟩ := exists_lastLine text
  have alone : (lastLine text).splitOn '\n' = [lastLine text] :=
    List.splitOn_eq_singleton (lastLine_plain text)
  obtain rfl | ⟨more, rfl⟩ := start
  · refine ⟨[], ?_⟩
    conv_lhs => rw [split, List.nil_append]
    rw [alone]
    rfl
  · refine ⟨more.splitOn '\n', ?_⟩
    conv_lhs => rw [split, List.append_assoc]
    show (more ++ '\n' :: lastLine text).splitOn '\n' = _
    rw [List.splitOn_append_cons_self, alone]

theorem lineColumnAfterText_eq (line column : Nat) (text : String) :
    lineColumnAfterText line column text = advance (line, column) text.toList := by
  obtain ⟨front, split⟩ := splitOn_lastLine text.toList
  have lines := splitOn_lines text.toList
  have parts : splitOnNewline text =
      front.map String.ofList ++ [ofList (lastLine text.toList)] := by
    rw [splitOnNewline, split, List.map_append]
    rfl
  have length : (splitOnNewline text).length = text.toList.count '\n' + 1 := by
    rw [splitOnNewline, List.length_map, lines]
  unfold lineColumnAfterText
  dsimp only
  rw [length, parts, List.reverse_append]
  show (if text.toList.count '\n' + 1 = 1 then _ else _) = _
  by_cases broken : '\n' ∈ text.toList
  · have positive := List.count_pos_iff.mpr broken
    rw [if_neg (by omega), advance_broken broken, String.toList_ofList]
    exact Prod.ext (by show line + (_ + 1) - 1 = line + _; omega) (Nat.add_comm _ _)
  · rw [if_pos (by rw [List.count_eq_zero_of_not_mem broken]), advance_plain broken]

end LeanRs
