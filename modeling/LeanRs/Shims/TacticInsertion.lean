import LeanRs.Shims.SourceDocument

/-! Where the shim splices a candidate for a proof step into the source, and what it says about the
place. -/
namespace LeanRs

open String TextCursor

def isNewline (c : Char) : Bool := c == '\n' || c == '\r'

def trimTrailingNewlines (text : String) : String :=
  ofList (text.toList.reverse.dropWhile isNewline).reverse

def trimLeftAscii (text : String) : String :=
  ofList (text.toList.dropWhile fun c => c == ' ' || c == '\t' || c == '\n' || c == '\r')

def trimAsciiSimple (text : String) : String := trimTrailingNewlines (trimLeftAscii text)

def stripOptionalByLine (text : String) : String :=
  let trimmed := trimAsciiSimple text
  if trimmed = "by" then ""
  else if "by\n".toList.isPrefixOf trimmed.toList then ofList (trimmed.toList.drop 3)
  else if "by\r\n".toList.isPrefixOf trimmed.toList then ofList (trimmed.toList.drop 4)
  else text

def indentFragment (indent text : String) : String :=
  let text := trimTrailingNewlines (stripOptionalByLine text)
  String.intercalate "\n" <| (splitOnNewline text).map fun line =>
    if (trimAsciiSimple line).isEmpty then "" else indent ++ trimLeftAscii line

structure RenderedInfo where
  value : String
  truncated : Bool
  deriving DecidableEq

structure DeclarationTargetInfo where
  shortName : String
  declarationName : String
  namespaceName : String
  declarationKind : String
  declarationSpan : ModuleSourceSpan
  nameSpan : ModuleSourceSpan
  bodySpan : ModuleSourceSpan
  deriving DecidableEq

structure ProofPositionSummary where
  index : Nat
  tactic : RenderedInfo

structure ProofInsertionSite where
  tacticBodySpan : ModuleSourceSpan
  tacticFileSpan : ModuleSourceSpan
  insertedBodySpan : ModuleSourceSpan
  insertedFileSpan : ModuleSourceSpan
  declaration : Option DeclarationTargetInfo
  proofPosition : Option ProofPositionSummary

inductive TacticPlacement where
  | before
  | after
  deriving DecidableEq

structure SelectedTactic where
  span : ModuleSourceSpan
  placement : TacticPlacement
  colPos : 0 < span.startColumn

def SelectedTactic.ofSpan? (placement : TacticPlacement) (span : ModuleSourceSpan) :
    Option SelectedTactic :=
  if h : 0 < span.startColumn then some ⟨span, placement, h⟩ else none

def SourceDocument.tacticInsertion? (doc : SourceDocument) (selected : SelectedTactic)
    (declaration : Option DeclarationTargetInfo) (proofPosition : Option ProofPositionSummary)
    (text : String) : Option (String × ProofInsertionSite) := do
  let span := selected.span
  let fileSpan := doc.bodySpanToFile span
  let indent := "".pushn ' ' (span.startColumn - 1)
  match selected.placement with
  | .after =>
    let fragment := "\n" ++ indentFragment indent text
    let pos ← doc.rawOffset? fileSpan.endLine fileSpan.endColumn
    let overlay := doc.replaceRawSpan fragment pos pos
    let (fileEndLine, fileEndColumn) :=
      lineColumnAfterText fileSpan.endLine fileSpan.endColumn fragment
    let (bodyEndLine, bodyEndColumn) := lineColumnAfterText span.endLine span.endColumn fragment
    some (overlay, {
      tacticBodySpan := span
      tacticFileSpan := fileSpan
      insertedBodySpan := ⟨span.endLine, span.endColumn, bodyEndLine, bodyEndColumn⟩
      insertedFileSpan := ⟨fileSpan.endLine, fileSpan.endColumn, fileEndLine, fileEndColumn⟩
      declaration
      proofPosition })
  | .before =>
    let body := indentFragment indent text
    let fragment := body ++ "\n"
    let pos ← doc.rawOffset? fileSpan.startLine 1
    let overlay := doc.replaceRawSpan fragment pos pos
    -- the spans cover the candidate without the line break behind it
    let (fileEndLine, fileEndColumn) := lineColumnAfterText fileSpan.startLine 1 body
    let (bodyEndLine, bodyEndColumn) := lineColumnAfterText span.startLine 1 body
    some (overlay, {
      tacticBodySpan := span
      tacticFileSpan := fileSpan
      insertedBodySpan := ⟨span.startLine, 1, bodyEndLine, bodyEndColumn⟩
      insertedFileSpan := ⟨fileSpan.startLine, 1, fileEndLine, fileEndColumn⟩
      declaration
      proofPosition })

def spanAfterText (line column : Nat) (text : String) : ModuleSourceSpan :=
  let (endLine, endColumn) := lineColumnAfterText line column text
  ⟨line, column, endLine, endColumn⟩

/-- What both arms do: an insertion at a line and a column of the body. -/
def SourceDocument.insertionAt? (doc : SourceDocument) (span : ModuleSourceSpan)
    (line column : Nat) (inserted fragment : String) (declaration : Option DeclarationTargetInfo)
    (proofPosition : Option ProofPositionSummary) : Option (String × ProofInsertionSite) :=
  (doc.rawOffset? (line + doc.lineOffset) column).map fun pos =>
    (doc.replaceRawSpan fragment pos pos, {
      tacticBodySpan := span
      tacticFileSpan := doc.bodySpanToFile span
      insertedBodySpan := spanAfterText line column inserted
      insertedFileSpan := spanAfterText (line + doc.lineOffset) column inserted
      declaration
      proofPosition })

theorem SourceDocument.tacticInsertion?_eq (doc : SourceDocument) (selected : SelectedTactic)
    (declaration : Option DeclarationTargetInfo) (proofPosition : Option ProofPositionSummary)
    (text : String) :
    doc.tacticInsertion? selected declaration proofPosition text =
      let candidate := indentFragment ("".pushn ' ' (selected.span.startColumn - 1)) text
      match selected.placement with
      | .after => doc.insertionAt? selected.span selected.span.endLine selected.span.endColumn
        ("\n" ++ candidate) ("\n" ++ candidate) declaration proofPosition
      | .before => doc.insertionAt? selected.span selected.span.startLine 1
        candidate (candidate ++ "\n") declaration proofPosition := by
  unfold tacticInsertion? insertionAt?
  cases selected.placement with
  | after =>
    dsimp only [bodySpanToFile]
    generalize indentFragment _ text = candidate
    cases doc.rawOffset? (selected.span.endLine + doc.lineOffset) selected.span.endColumn <;>
      simp only [Option.bind_eq_bind, Option.bind_none, Option.bind_some, Option.map_none,
        Option.map_some, spanAfterText]
  | before =>
    dsimp only [bodySpanToFile]
    generalize indentFragment _ text = candidate
    cases doc.rawOffset? (selected.span.startLine + doc.lineOffset) 1 <;>
      simp only [Option.bind_eq_bind, Option.bind_none, Option.bind_some, Option.map_none,
        Option.map_some, spanAfterText]

def spanIn (text : List Char) (first last : Nat) : ModuleSourceSpan :=
  ⟨(position text first).1, (position text first).2, (position text last).1,
    (position text last).2⟩

/-- A tactic in the body of a declaration, and where to put a candidate. The offsets count the
characters of the body of the file, which begins where the parser has left the header. -/
structure TacticSelection where
  header : String
  body : String
  bodyStart : Nat
  tacticStart : Nat
  tacticEnd : Nat
  bodyEnd : Nat
  placement : TacticPlacement
  start_le : bodyStart ≤ tacticStart
  tactic_le : tacticStart ≤ tacticEnd
  end_le : tacticEnd ≤ bodyEnd
  inside : bodyEnd ≤ body.toList.length

namespace TacticSelection

variable (t : TacticSelection)

def source : List Char := t.header.toList ++ t.body.toList

def document : SourceDocument :=
  .fromSources (t.header ++ t.body) t.body (countNewlines t.header)

def span : ModuleSourceSpan := spanIn t.body.toList t.tacticStart t.tacticEnd

theorem span_colPos : 0 < t.span.startColumn := by
  show 0 < (advance (1, 1) _).2
  rw [advance_eq]
  exact Nat.lt_add_right _ Nat.zero_lt_one

def selected : SelectedTactic := ⟨t.span, t.placement, t.span_colPos⟩

def candidate (text : String) : String :=
  indentFragment ("".pushn ' ' (t.span.startColumn - 1)) text

def inserted (text : String) : String :=
  match t.placement with
  | .after => "\n" ++ t.candidate text
  | .before => t.candidate text

def trailing : String :=
  match t.placement with
  | .after => ""
  | .before => "\n"

def fragment (text : String) : String := t.inserted text ++ t.trailing

/-- The candidate has been spliced in at the character `n` of the file, and the site says so. -/
structure SplicedAt (text overlay : String) (site : ProofInsertionSite) (n : Nat) : Prop where
  within : n ≤ t.source.length
  spliced : overlay.toList = splice t.source n (t.fragment text).toList
  insertedFileSpan : site.insertedFileSpan =
    spanIn overlay.toList n (n + (t.inserted text).toList.length)
  afterHeader : t.header.toList.length ≤ n
  insertedBodySpan : site.insertedBodySpan =
    spanIn (overlay.toList.drop t.header.toList.length) (n - t.header.toList.length)
      (n - t.header.toList.length + (t.inserted text).toList.length)
  afterStart : t.header.toList.length + t.bodyStart ≤ n
  beforeEnd : n ≤ t.header.toList.length + t.bodyEnd
  untouched : overlay.toList.take (t.header.toList.length + t.bodyStart) =
    t.source.take (t.header.toList.length + t.bodyStart)
  beforeTactic : t.placement = .before → n ≤ t.header.toList.length + t.tacticStart
  afterTactic : t.placement = .after → t.header.toList.length + t.tacticEnd ≤ n

def Spliced (text : String) (result : String × ProofInsertionSite) : Prop :=
  ∃ n, t.SplicedAt text result.1 result.2 n

/-- The character of the body before which the candidate is meant to go. -/
def point : Nat :=
  match t.placement with
  | .after => t.tacticEnd
  | .before => lineStart (t.body.toList.take t.tacticStart)

/-- The line of the insertion has nothing of the header on it, and nothing of the declaration
before its body if the candidate goes to the start of the line. -/
def Fits : Prop :=
  (AtLineStart t.header.toList ∨ '\n' ∈ t.body.toList.take t.point) ∧
    (t.placement = .before → t.bodyStart ≤ t.point)

/-- How far to the left of the point it inserts, since it takes a column of the body for one of the
file. -/
def slip : Nat :=
  if '\n' ∈ t.body.toList.take t.point then 0 else (lastLine t.header.toList).length

def insertionOffset : Nat := t.header.toList.length + t.point - t.slip

theorem point_le : t.point ≤ t.tacticEnd := by
  unfold point
  cases t.placement with
  | after => exact Nat.le_refl _
  | before =>
    apply Nat.le_trans (lineStart_le _)
    rw [List.length_take]
    exact Nat.le_trans (Nat.min_le_left _ _) t.tactic_le

theorem point_before_le (placement : t.placement = .before) : t.point ≤ t.tacticStart := by
  rw [point, placement]
  apply Nat.le_trans (lineStart_le _)
  rw [List.length_take]
  exact Nat.min_le_left _ _

theorem point_inside : t.point ≤ t.body.toList.length :=
  Nat.le_trans t.point_le (Nat.le_trans t.end_le t.inside)

theorem slip_le : t.slip ≤ t.header.toList.length := by
  unfold slip
  split
  · exact Nat.zero_le _
  · obtain ⟨before, split, -⟩ := exists_lastLine t.header.toList
    conv_rhs => rw [split]
    rw [List.length_append]
    exact Nat.le_add_left _ _

theorem insertionOffset_le : t.insertionOffset ≤ t.source.length := by
  unfold insertionOffset source
  have inside := t.point_inside
  rw [List.length_append]
  omega

theorem position_insertionOffset : position t.source t.insertionOffset =
    ((position t.body.toList t.point).1 + countNewlines t.header,
      (position t.body.toList t.point).2) := by
  have inside := t.point_inside
  unfold position insertionOffset slip source countNewlines
  by_cases broken : '\n' ∈ t.body.toList.take t.point
  · rw [if_pos broken, Nat.sub_zero, List.take_length_add_append, advance_append, advance_eq]
    have shifted := advance_shift (1, 1) (t.header.toList.count '\n')
      (lastLine t.header.toList).length (t.body.toList.take t.point)
    rw [if_pos broken] at shifted
    exact shifted
  · obtain ⟨front, split, start⟩ := exists_lastLine t.header.toList
    have lines : t.header.toList.count '\n' = front.count '\n' := by
      conv_lhs => rw [split]
      rw [List.count_append, List.count_eq_zero_of_not_mem (lastLine_plain _)]
      rfl
    have offset : t.header.toList.length + t.point - (lastLine t.header.toList).length =
        front.length + t.point := by
      have length := congrArg List.length split
      rw [List.length_append] at length
      omega
    have plain : '\n' ∉ (lastLine t.header.toList ++ t.body.toList).take t.point := by
      intro member
      rw [List.take_append] at member
      obtain left | right := List.mem_append.mp member
      · exact lastLine_plain _ (List.mem_of_mem_take left)
      · exact broken (List.take_subset_take_left _ (Nat.sub_le _ _) right)
    rw [if_neg broken, offset, advance_plain broken, lines]
    conv_lhs => rw [split]
    rw [List.append_assoc, List.take_length_add_append, advance_append,
      advance_atLineStart start, advance_plain plain, List.length_take, List.length_take,
      List.length_append]
    exact Prod.ext rfl (by omega)

structure Returned (text : String) (result : String × ProofInsertionSite) : Prop where
  spliced : result.1.toList = splice t.source t.insertionOffset (t.fragment text).toList
  insertedFileSpan : result.2.insertedFileSpan =
    ⟨(position t.source t.insertionOffset).1, (position t.source t.insertionOffset).2,
      (advance (position t.source t.insertionOffset) (t.inserted text).toList).1,
      (advance (position t.source t.insertionOffset) (t.inserted text).toList).2⟩
  insertedBodySpan : result.2.insertedBodySpan =
    ⟨(position t.body.toList t.point).1, (position t.body.toList t.point).2,
      (advance (position t.body.toList t.point) (t.inserted text).toList).1,
      (advance (position t.body.toList t.point) (t.inserted text).toList).2⟩

theorem document_source : t.document.source =
    ofList (t.source.take t.insertionOffset ++ t.source.drop t.insertionOffset) := by
  rw [List.take_append_drop, source, ofList_append, ofList_toList, ofList_toList]
  rfl

theorem rawOffset?_point : t.document.rawOffset?
    ((position t.body.toList t.point).1 + countNewlines t.header)
    (position t.body.toList t.point).2 =
      some ⟨utf8Len (t.source.take t.insertionOffset)⟩ := by
  have mapped : t.document.Mapped := rfl
  have found := mapped.rawOffset?_advance t.document_source
  have position := t.position_insertionOffset
  unfold TextCursor.position at position
  rw [position] at found
  exact found

theorem replaceRawSpan_point (text : String) :
    (t.document.replaceRawSpan (t.fragment text) ⟨utf8Len (t.source.take t.insertionOffset)⟩
      ⟨utf8Len (t.source.take t.insertionOffset)⟩).toList =
        splice t.source t.insertionOffset (t.fragment text).toList := by
  rw [SourceDocument.replaceRawSpan_nothing t.document_source, toList_ofList]
  rfl

theorem point_before (placement : t.placement = .before) :
    (position t.body.toList t.tacticStart).1 = (position t.body.toList t.point).1 ∧
      (position t.body.toList t.point).2 = 1 := by
  obtain ⟨start, split⟩ := take_lineStart (t.body.toList.take t.tacticStart)
  have point : t.point = lineStart (t.body.toList.take t.tacticStart) := by
    rw [TacticSelection.point, placement]
  have taken : (t.body.toList.take t.tacticStart).take t.point = t.body.toList.take t.point := by
    rw [List.take_take, Nat.min_eq_left (t.point_before_le placement)]
  rw [← point, taken] at start split
  unfold position
  rw [advance_atLineStart start, advance_line]
  constructor
  · conv_lhs => rw [split]
    rw [List.count_append, List.count_eq_zero_of_not_mem (lastLine_plain _)]
    rfl
  · rfl

theorem insertionAt?_returned (declaration : Option DeclarationTargetInfo)
    (proofPosition : Option ProofPositionSummary) (text : String) :
    ∃ result, t.document.insertionAt? t.span (position t.body.toList t.point).1
      (position t.body.toList t.point).2 (t.inserted text) (t.fragment text) declaration
      proofPosition = some result ∧ t.Returned text result := by
  have offset : t.document.rawOffset?
      ((position t.body.toList t.point).1 + t.document.lineOffset)
      (position t.body.toList t.point).2 = _ := t.rawOffset?_point
  unfold SourceDocument.insertionAt?
  rw [offset]
  refine ⟨_, rfl, ?_⟩
  constructor
  · exact t.replaceRawSpan_point text
  · rw [t.position_insertionOffset, ← lineColumnAfterText_eq]
    rfl
  · rw [← Prod.mk.eta (p := position t.body.toList t.point), ← lineColumnAfterText_eq]
    rfl

theorem tacticInsertion?_returned (declaration : Option DeclarationTargetInfo)
    (proofPosition : Option ProofPositionSummary) (text : String) :
    ∃ result, t.document.tacticInsertion? t.selected declaration proofPosition text = some result ∧
      t.Returned text result := by
  have inserts := t.insertionAt?_returned declaration proofPosition text
  rw [SourceDocument.tacticInsertion?_eq]
  cases placement : t.placement with
  | after =>
    have point : t.point = t.tacticEnd := by rw [TacticSelection.point, placement]
    have inserted : t.inserted text = "\n" ++ t.candidate text := by
      rw [TacticSelection.inserted, placement]
    have fragment : t.fragment text = "\n" ++ t.candidate text := by
      rw [TacticSelection.fragment, TacticSelection.trailing, inserted, placement, append_empty]
    rw [point, inserted, fragment] at inserts
    simp only [selected, placement]
    exact inserts
  | before =>
    obtain ⟨line, column⟩ := t.point_before placement
    have inserted : t.inserted text = t.candidate text := by
      rw [TacticSelection.inserted, placement]
    have fragment : t.fragment text = t.candidate text ++ "\n" := by
      rw [TacticSelection.fragment, TacticSelection.trailing, inserted, placement]
    rw [← line, column, inserted, fragment] at inserts
    simp only [selected, placement]
    exact inserts

variable {t} {text : String} {result : String × ProofInsertionSite}

theorem slip_eq_zero : t.slip = 0 ↔
    AtLineStart t.header.toList ∨ '\n' ∈ t.body.toList.take t.point := by
  rw [← lastLine_eq_nil]
  unfold slip
  split
  · rename_i broken
    exact ⟨fun _ => Or.inr broken, fun _ => rfl⟩
  · rename_i plain
    rw [or_iff_left plain]
    exact List.length_eq_zero_iff

theorem Returned.fileSpan (returned : t.Returned text result) :
    result.2.insertedFileSpan = spanIn result.1.toList t.insertionOffset
      (t.insertionOffset + (t.inserted text).toList.length) := by
  have inside := t.insertionOffset_le
  have parts : (t.fragment text).toList = (t.inserted text).toList ++ t.trailing.toList :=
    toList_append
  rw [returned.insertedFileSpan, returned.spliced, spanIn, position_splice inside, parts,
    position_splice_end inside]

theorem Returned.overlayBody (returned : t.Returned text result) (straight : t.slip = 0) :
    result.1.toList.drop t.header.toList.length =
      splice t.body.toList t.point (t.fragment text).toList := by
  rw [returned.spliced, insertionOffset, straight, Nat.sub_zero, source, splice_drop]

theorem Returned.spliced_of_fits (returned : t.Returned text result) (fits : t.Fits) :
    t.Spliced text result := by
  have straight := slip_eq_zero.mpr fits.1
  have offset : t.insertionOffset = t.header.toList.length + t.point := by
    rw [insertionOffset, straight, Nat.sub_zero]
  have le := t.point_le
  have endLe := t.end_le
  have afterStart : t.bodyStart ≤ t.point := by
    cases placement : t.placement with
    | before => exact fits.2 placement
    | after =>
      rw [point, placement]
      exact Nat.le_trans t.start_le t.tactic_le
  refine ⟨t.insertionOffset, ?_⟩
  constructor
  · exact t.insertionOffset_le
  · exact returned.spliced
  · exact returned.fileSpan
  · omega
  · have inside := t.point_inside
    have parts : (t.fragment text).toList = (t.inserted text).toList ++ t.trailing.toList :=
      toList_append
    rw [returned.overlayBody straight, offset, Nat.add_sub_cancel_left,
      returned.insertedBodySpan, spanIn, position_splice inside, parts,
      position_splice_end inside]
  · omega
  · omega
  · rw [returned.spliced, splice, List.append_assoc,
      List.take_append_of_le_length (by rw [List.length_take]; have := t.insertionOffset_le; omega),
      List.take_take, Nat.min_eq_left (by omega)]
  · intro placement
    have before := t.point_before_le placement
    omega
  · intro placement
    have after : t.point = t.tacticEnd := by rw [point, placement]
    omega

theorem Returned.offset_eq (returned : t.Returned text result) {n : Nat}
    (spliced : t.SplicedAt text result.1 result.2 n) : n = t.insertionOffset := by
  have same := returned.fileSpan.symm.trans spliced.insertedFileSpan
  have length : t.source.length ≤ result.1.toList.length := by
    have total := congrArg List.length (List.take_append_drop t.insertionOffset t.source)
    rw [returned.spliced, splice, List.length_append, List.length_append]
    rw [List.length_append] at total
    omega
  have place : position result.1.toList t.insertionOffset = position result.1.toList n :=
    Prod.ext (congrArg ModuleSourceSpan.startLine same) (congrArg ModuleSourceSpan.startColumn same)
  exact (position_inj (Nat.le_trans t.insertionOffset_le length)
    (Nat.le_trans spliced.within length) place).symm

theorem Returned.fits_of_spliced (returned : t.Returned text result)
    (spliced : t.Spliced text result) : t.Fits := by
  obtain ⟨n, at'⟩ := spliced
  obtain rfl := returned.offset_eq at'
  have header := at'.afterHeader
  have slip := t.slip_le
  have straight : t.slip = 0 := by
    by_cases broken : '\n' ∈ t.body.toList.take t.point
    · exact slip_eq_zero.mpr (Or.inr broken)
    · -- the body span names a column that is the slip too far to the right
      have offset : t.insertionOffset = t.header.toList.length + (t.point - t.slip) := by
        unfold insertionOffset at header ⊢
        omega
      have overlay : result.1.toList.drop t.header.toList.length =
          splice t.body.toList (t.point - t.slip) (t.fragment text).toList := by
        rw [returned.spliced, offset, source, splice_drop]
      have same := returned.insertedBodySpan.symm.trans at'.insertedBodySpan
      have columns := congrArg ModuleSourceSpan.startColumn same
      have inside : t.point - t.slip ≤ t.body.toList.length :=
        Nat.le_trans (Nat.sub_le _ _) t.point_inside
      have plain : '\n' ∉ t.body.toList.take (t.point - t.slip) := fun member =>
        broken (List.take_subset_take_left _ (Nat.sub_le _ _) member)
      rw [overlay, offset, Nat.add_sub_cancel_left, spanIn, position_splice inside] at columns
      unfold position at columns
      rw [advance_plain broken, advance_plain plain, List.length_take, List.length_take,
        Nat.min_eq_left t.point_inside, Nat.min_eq_left inside] at columns
      dsimp only at columns
      unfold insertionOffset at header
      omega
  constructor
  · exact slip_eq_zero.mp straight
  · intro _
    have start := at'.afterStart
    unfold insertionOffset at start
    omega

theorem Returned.extractFileSpan? (returned : t.Returned text result) {doc : SourceDocument}
    (mapped : doc.Mapped) (source : doc.source = result.1) :
    doc.extractFileSpan? result.2.insertedFileSpan = some (t.inserted text) := by
  have parts : (t.fragment text).toList = (t.inserted text).toList ++ t.trailing.toList :=
    toList_append
  generalize front : t.source.take t.insertionOffset = a
  generalize back : t.trailing.toList ++ t.source.drop t.insertionOffset = b
  have whole : doc.source = ofList (a ++ ((t.inserted text).toList ++ b)) := by
    rw [source, ← ofList_toList (s := result.1), returned.spliced, splice, parts, front, ← back]
    simp only [List.append_assoc]
  have place : position t.source t.insertionOffset = advance (1, 1) a := congrArg _ front
  have start := mapped.rawOffset?_advance whole
  have stop := mapped.rawOffset?_advance (whole.trans (by rw [List.append_assoc]) :
    doc.source = ofList ((a ++ (t.inserted text).toList) ++ b))
  rw [advance_append] at stop
  unfold SourceDocument.extractFileSpan?
  rw [returned.insertedFileSpan, place]
  dsimp only
  rw [start, stop, whole, utf8Len_append, ← List.append_assoc]
  exact congrArg some ((extract_of_valid _ _ _).trans ofList_toList)

end TacticSelection

/-- The insertion is what it is meant to be exactly when the line of the insertion is clear of the
header, and of the declaration before its body. -/
theorem tacticInsertion_spliced_iff (t : TacticSelection)
    (declaration : Option DeclarationTargetInfo) (proofPosition : Option ProofPositionSummary)
    (text : String) :
    ∃ result, t.document.tacticInsertion? t.selected declaration proofPosition text = some result ∧
      (t.Spliced text result ↔ t.Fits) := by
  obtain ⟨result, inserts, returned⟩ := t.tacticInsertion?_returned declaration proofPosition text
  exact ⟨result, inserts, returned.fits_of_spliced, returned.spliced_of_fits⟩

def oneLineTactic : TacticSelection where
  header := ""
  body := "theorem t : True := by trivial"
  bodyStart := 20
  tacticStart := 23
  tacticEnd := 30
  bodyEnd := 30
  placement := .before
  start_le := by decide
  tactic_le := by decide
  end_le := by decide
  inside := by decide

/-- A candidate before the tactic of a one-line theorem goes above the whole theorem. -/
theorem one_line_candidate_above :
    ¬∀ (t : TacticSelection) (declaration : Option DeclarationTargetInfo)
      (proofPosition : Option ProofPositionSummary) (text : String)
      (result : String × ProofInsertionSite),
      t.document.tacticInsertion? t.selected declaration proofPosition text = some result →
        t.Spliced text result := by
  intro all
  obtain ⟨result, inserts, returned⟩ :=
    oneLineTactic.tacticInsertion?_returned none none "exact trivial"
  have fits := returned.fits_of_spliced (all _ _ _ _ _ inserts)
  exact absurd (fits.2 rfl) (by decide)

end LeanRs
