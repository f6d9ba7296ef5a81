import LeanRs.General.Selection
import LeanRs.Shims.TacticInsertion

/-! Which node of the elaborated body a cursor selects: the covering node of the least area. -/
namespace LeanRs

open Selection

def rangeContains (span : ModuleSourceSpan) (line column : Nat) : Bool :=
  if line < span.startLine || line > span.endLine then false
  else if line == span.startLine && column < span.startColumn then false
  else if line == span.endLine && column > span.endColumn then false
  else true

def rangeArea (span : ModuleSourceSpan) : Nat :=
  let lineSpan := span.endLine - span.startLine
  let colSpan := span.endColumn - span.startColumn
  lineSpan * 1000000 + colSpan

def spanStrictlyContains (outer inner : ModuleSourceSpan) : Bool :=
  rangeContains outer inner.startLine inner.startColumn &&
    rangeContains outer inner.endLine inner.endColumn &&
    !(outer.startLine == inner.startLine && outer.startColumn == inner.startColumn &&
      outer.endLine == inner.endLine && outer.endColumn == inner.endColumn)

def ModuleSourceSpan.EndsBefore (first second : ModuleSourceSpan) : Prop :=
  first.endLine < second.startLine ∨
    first.endLine = second.startLine ∧ first.endColumn ≤ second.startColumn

theorem rangeContains_iff {span : ModuleSourceSpan} {line column : Nat} :
    rangeContains span line column ↔ (span.startLine ≤ line ∧ line ≤ span.endLine) ∧
      (line = span.startLine → span.startColumn ≤ column) ∧
      (line = span.endLine → column ≤ span.endColumn) := by
  unfold rangeContains
  grind

theorem spanStrictlyContains_iff {outer inner : ModuleSourceSpan} :
    spanStrictlyContains outer inner ↔
      (rangeContains outer inner.startLine inner.startColumn ∧
        rangeContains outer inner.endLine inner.endColumn) ∧
      ¬(outer.startLine = inner.startLine ∧ outer.startColumn = inner.startColumn ∧
        outer.endLine = inner.endLine ∧ outer.endColumn = inner.endColumn) := by
  unfold spanStrictlyContains
  grind

namespace ModuleSourceSpan

def height (span : ModuleSourceSpan) : Nat := span.endLine - span.startLine

/-- How far to the right of its first column the range ends, and nothing if it ends to the left. -/
def width (span : ModuleSourceSpan) : Nat := span.endColumn - span.startColumn

/-- Of two ranges over equally many lines the narrower one is ahead. Otherwise the one over fewer
lines is, unless it is wider by a million columns for each line that it has less. -/
def Ahead (first second : ModuleSourceSpan) : Prop :=
  first.height = second.height ∧ first.width < second.width ∨
    first.height < second.height ∧
      first.width < second.width + 1000000 * (second.height - first.height) ∨
    second.height < first.height ∧
      first.width + 1000000 * (first.height - second.height) < second.width

end ModuleSourceSpan

theorem rangeArea_lt_iff {first second : ModuleSourceSpan} :
    rangeArea first < rangeArea second ↔ first.Ahead second := by
  unfold rangeArea ModuleSourceSpan.Ahead ModuleSourceSpan.height ModuleSourceSpan.width
  dsimp only
  omega

/-- Over the same lines an inner range is ahead exactly if the outer one ends to the right of the
column that it starts in. -/
theorem inner_ahead_iff {outer inner : ModuleSourceSpan}
    (inside : spanStrictlyContains outer inner) (same : inner.height = outer.height) :
    inner.Ahead outer ↔ outer.startColumn < outer.endColumn := by
  obtain ⟨⟨starts, ends⟩, other⟩ := spanStrictlyContains_iff.mp inside
  obtain ⟨⟨first, within⟩, left, -⟩ := rangeContains_iff.mp starts
  obtain ⟨⟨within', last⟩, -, right⟩ := rangeContains_iff.mp ends
  unfold ModuleSourceSpan.height at same
  have begins : inner.startLine = outer.startLine := by omega
  have closes : inner.endLine = outer.endLine := by omega
  have leftmost := left begins
  have rightmost := right closes
  have narrower : inner.Ahead outer ↔ inner.width < outer.width := by
    unfold ModuleSourceSpan.Ahead ModuleSourceSpan.height
    rw [begins, closes]
    omega
  rw [narrower]
  unfold ModuleSourceSpan.width
  omega

structure BodySpan extends ModuleSourceSpan where
  lines : 0 < startLine
  columns : 0 < startColumn
  ordered : startLine < endLine ∨ startLine = endLine ∧ startColumn ≤ endColumn

namespace SourceDocument

variable (doc : SourceDocument)

def fileLineToBody (line : Nat) : Nat := if line > doc.lineOffset then line - doc.lineOffset else 0

def bodyCursor (line column : Nat) : Nat × Nat := (doc.fileLineToBody line, column)

theorem rangeContains_fileLineToBody (span : BodySpan) (line column : Nat) :
    rangeContains span.toModuleSourceSpan (doc.fileLineToBody line) column =
      rangeContains (doc.bodySpanToFile span.toModuleSourceSpan) line column := by
  have lines := span.lines
  have ordered := span.ordered
  rw [Bool.eq_iff_iff, rangeContains_iff, rangeContains_iff]
  unfold bodySpanToFile fileLineToBody
  dsimp only
  by_cases header : line > doc.lineOffset
  · rw [if_pos header]
    omega
  · rw [if_neg header]
    omega

theorem rangeArea_bodySpanToFile (span : ModuleSourceSpan) :
    rangeArea (doc.bodySpanToFile span) = rangeArea span := by
  unfold rangeArea bodySpanToFile
  dsimp only
  rw [Nat.add_sub_add_right]

end SourceDocument

/-- A node with a range that a cursor may select, and what the answer renders of it. -/
structure Candidate (P : Type) where
  span : BodySpan
  payload : P

/-- A node of an info tree: the kinds that carry a term or the goals of a tactic, with the span of
their syntax where it has one, and all other kinds. -/
inductive Info (T K : Type) where
  | ofTermInfo (span? : Option BodySpan) (ti : T)
  | ofTacticInfo (span? : Option BodySpan) (ti : K)
  | other

variable {P T K R : Type}

def Info.term? : Info T K → Option (Candidate T)
  | .ofTermInfo (some span) ti => some ⟨span, ti⟩
  | _ => none

def Info.tactic? : Info T K → Option (Candidate K)
  | .ofTacticInfo (some span) ti => some ⟨span, ti⟩
  | _ => none

structure CursorAcc (P : Type) where
  line : Nat
  column : Nat
  best? : Option (Candidate P)

def betterSpan (candidate : ModuleSourceSpan) (best? : Option (Candidate P)) : Bool :=
  match best? with
  | none => true
  | some best => rangeArea candidate < rangeArea best.span.toModuleSourceSpan

/-- `collectTypeAt` and `collectGoalAt` differ in the kind of node alone. -/
def collectAt (kind : Info T K → Option (Candidate P)) (acc : CursorAcc P) (info : Info T K) :
    CursorAcc P :=
  match kind info with
  | some candidate =>
    let span := candidate.span.toModuleSourceSpan
    if rangeContains span acc.line acc.column && betterSpan span acc.best? then
      { acc with best? := some candidate }
    else acc
  | none => acc

def collectTypeAt : CursorAcc T → Info T K → CursorAcc T := collectAt Info.term?

def collectGoalAt : CursorAcc K → Info T K → CursorAcc K := collectAt Info.tactic?

/-- The trees are given by their nodes in the order in which `foldInfoM` visits them. -/
def bestAt (collect : CursorAcc P → Info T K → CursorAcc P) (doc : SourceDocument)
    (trees : List (List (Info T K))) (line column : Nat) : Option (Candidate P) :=
  let (line, column) := doc.bodyCursor line column
  let start : CursorAcc P := ⟨line, column, none⟩
  (trees.foldl (fun acc tree => List.foldl collect acc tree) start).best?

inductive TypeAtResult (R : Type) where
  | term (span : ModuleSourceSpan) (rendered : R)
  | noTerm

def runTypeAt (doc : SourceDocument) (trees : List (List (Info T K))) (line column : Nat)
    (render : T → R) : TypeAtResult R :=
  match bestAt collectTypeAt doc trees line column with
  | none => .noTerm
  | some candidate =>
    .term (doc.bodySpanToFile candidate.span.toModuleSourceSpan) (render candidate.payload)

inductive GoalAtResult (R : Type) where
  | goal (span : ModuleSourceSpan) (rendered : R)
  | noTacticContext

def runGoalAt (doc : SourceDocument) (trees : List (List (Info T K))) (line column : Nat)
    (render : K → R) : GoalAtResult R :=
  match bestAt collectGoalAt doc trees line column with
  | none => .noTacticContext
  | some candidate =>
    .goal (doc.bodySpanToFile candidate.span.toModuleSourceSpan) (render candidate.payload)

structure DeclarationCandidate where
  info : DeclarationTargetInfo
  bodySpanBodyCoords : ModuleSourceSpan
  declarationSpanBodyCoords : BodySpan

def declarationAt? (doc : SourceDocument) (candidates : List DeclarationCandidate)
    (line column : Nat) : Option DeclarationCandidate :=
  let bodyCursorLine := doc.fileLineToBody line
  let containing := candidates.filter fun candidate =>
    rangeContains candidate.declarationSpanBodyCoords.toModuleSourceSpan bodyCursorLine column
  containing.foldl (fun best? candidate =>
    match best? with
    | none => some candidate
    | some best =>
      if rangeArea candidate.declarationSpanBodyCoords.toModuleSourceSpan <
          rangeArea best.declarationSpanBodyCoords.toModuleSourceSpan then
        some candidate
      else best?) none

/-- The nodes of one kind that an answer may select, each with its range in the file. -/
structure Visited (α : Type) where
  nodes : List α
  span : α → ModuleSourceSpan

namespace Visited

variable {α : Type} (v : Visited α) (line column : Nat)

/-- The visited nodes that cover the cursor, in the order of the visit. -/
def covering : List α := v.nodes.filter fun n => rangeContains (v.span n) line column

/-- Another node that covers the cursor has a range strictly inside this one. -/
def IsOuter (a : α) : Prop :=
  ∃ n ∈ v.covering line column, spanStrictlyContains (v.span a) (v.span n) = true

/-- What a cursor should select: nothing, if nothing covers it, and else an innermost node. -/
def Innermost : Option α → Prop
  | none => v.covering line column = []
  | some a => a ∈ v.covering line column ∧ ¬v.IsOuter line column a

/-- Of two ranges one lies in the other, or one ends before the other starts. -/
def Nested : Prop :=
  ∀ a ∈ v.nodes, ∀ b ∈ v.nodes, v.span a = v.span b ∨
    spanStrictlyContains (v.span a) (v.span b) ∨ spanStrictlyContains (v.span b) (v.span a) ∨
    (v.span a).EndsBefore (v.span b) ∨ (v.span b).EndsBefore (v.span a)

/-- For each covering node around another one, some covering node is ahead of it: one that is
visited later, or an earlier one that it is not itself ahead of. -/
def OutersBehind : Prop :=
  ∀ before outer after, v.covering line column = before ++ outer :: after →
    v.IsOuter line column outer →
      ∃ n, n ∈ before ∧ ¬(v.span outer).Ahead (v.span n) ∨
        n ∈ after ∧ (v.span n).Ahead (v.span outer)

variable {v line column}

theorem outersBehind_iff : v.OutersBehind line column ↔
    Beaten (fun n => rangeArea (v.span n)) (v.IsOuter line column) (v.covering line column) := by
  unfold OutersBehind Beaten
  simp only [← not_lt (α := Nat), rangeArea_lt_iff]

theorem innermost_argmin_iff :
    v.Innermost line column
        ((v.covering line column).argmin fun n => rangeArea (v.span n)) ↔
      v.OutersBehind line column := by
  rw [outersBehind_iff, ← argmin_not_iff]
  cases found : (v.covering line column).argmin fun n => rangeArea (v.span n) with
  | none =>
    constructor
    · intro _ a impossible
      cases impossible
    · intro _
      exact List.argmin_eq_none.mp found
  | some a =>
    constructor
    · intro innermost b same
      obtain rfl := Option.some.inj same
      exact innermost.2
    · intro good
      exact ⟨List.argmin_mem found, good a rfl⟩

end Visited

/-- No line is longer than the weight of a line, and a range of several lines ends to the right of
the column that it starts in. -/
structure ModuleSourceSpan.Wide (span : ModuleSourceSpan) : Prop where
  columns : 0 < span.startColumn
  short : span.endColumn ≤ 1000000
  rightwards : span.startLine = span.endLine ∧ span.startColumn ≤ span.endColumn ∨
    span.startLine < span.endLine ∧ span.startColumn < span.endColumn

theorem inner_ahead_of_wide {outer inner : ModuleSourceSpan} (wide : outer.Wide)
    (narrow : inner.Wide) (inside : spanStrictlyContains outer inner) : inner.Ahead outer := by
  by_cases same : inner.height = outer.height
  · rw [inner_ahead_iff inside same]
    obtain ⟨-, -, outwards⟩ := wide
    obtain ⟨⟨starts, ends⟩, other⟩ := spanStrictlyContains_iff.mp inside
    rw [rangeContains_iff] at starts ends
    omega
  · obtain ⟨columns, short, -⟩ := narrow
    obtain ⟨⟨starts, ends⟩, -⟩ := spanStrictlyContains_iff.mp inside
    rw [rangeContains_iff] at starts ends
    refine .inr (.inl ?_)
    unfold ModuleSourceSpan.height ModuleSourceSpan.width at *
    omega

theorem Visited.outersBehind_of_wide {α : Type} {v : Visited α} {line column : Nat}
    (wide : ∀ a ∈ v.covering line column, (v.span a).Wide) : v.OutersBehind line column := by
  rw [outersBehind_iff]
  apply beaten_of_argmin
  rintro a found ⟨n, member, inside⟩
  have ahead := inner_ahead_of_wide (wide a (List.argmin_mem found)) (wide n member) inside
  have least := List.le_of_mem_argmin member found
  exact absurd (rangeArea_lt_iff.mpr ahead) (not_lt.mpr least)

theorem collectAt_fold (kind : Info T K → Option (Candidate P)) (infos : List (Info T K))
    (acc : CursorAcc P) :
    infos.foldl (collectAt kind) acc = ⟨acc.line, acc.column,
      ((infos.filterMap kind).filter fun c =>
        rangeContains c.span.toModuleSourceSpan acc.line acc.column).foldl
          (keepBetter fun c => rangeArea c.span.toModuleSourceSpan) acc.best?⟩ := by
  induction infos generalizing acc with
  | nil => rfl
  | cons info rest ih =>
    rw [List.foldl_cons, ih, List.filterMap_cons]
    unfold collectAt
    cases node : kind info with
    | none => rfl
    | some candidate =>
      dsimp only
      rw [List.filter_cons]
      cases covers : rangeContains candidate.span.toModuleSourceSpan acc.line acc.column with
      | false => rfl
      | true =>
        rw [if_pos rfl, List.foldl_cons, Bool.true_and]
        cases best : acc.best? with
        | none => rfl
        | some b =>
          unfold betterSpan keepBetter
          dsimp only
          by_cases less : rangeArea candidate.span.toModuleSourceSpan <
              rangeArea b.span.toModuleSourceSpan
          · rw [if_pos (decide_eq_true less), if_pos less]
          · rw [if_neg (fun h => less (of_decide_eq_true h)), if_neg less, best]

namespace SourceDocument

variable (doc : SourceDocument)

def visited (kind : Info T K → Option (Candidate P)) (trees : List (List (Info T K))) :
    Visited (Candidate P) :=
  ⟨trees.flatten.filterMap kind, fun c => doc.bodySpanToFile c.span.toModuleSourceSpan⟩

def declarations (candidates : List DeclarationCandidate) : Visited DeclarationCandidate :=
  ⟨candidates, fun c => doc.bodySpanToFile c.declarationSpanBodyCoords.toModuleSourceSpan⟩

theorem bestAt_eq (kind : Info T K → Option (Candidate P)) (trees : List (List (Info T K)))
    (line column : Nat) :
    bestAt (collectAt kind) doc trees line column =
      ((doc.visited kind trees).covering line column).argmin fun n =>
        rangeArea ((doc.visited kind trees).span n) := by
  unfold bestAt bodyCursor
  dsimp only
  rw [← List.foldl_flatten, collectAt_fold]
  dsimp only
  rw [foldl_keepBetter]
  unfold Visited.covering visited
  simp only [rangeContains_fileLineToBody, rangeArea_bodySpanToFile]

theorem declarationAt?_eq (candidates : List DeclarationCandidate) (line column : Nat) :
    declarationAt? doc candidates line column =
      ((doc.declarations candidates).covering line column).argmin fun n =>
        rangeArea ((doc.declarations candidates).span n) := by
  have step : (fun (best? : Option DeclarationCandidate) candidate =>
      match best? with
      | none => some candidate
      | some best =>
        if rangeArea candidate.declarationSpanBodyCoords.toModuleSourceSpan <
            rangeArea best.declarationSpanBodyCoords.toModuleSourceSpan then
          some candidate
        else best?) = keepBetter fun c : DeclarationCandidate =>
      rangeArea c.declarationSpanBodyCoords.toModuleSourceSpan := by
    funext best? candidate
    cases best? <;> rfl
  unfold declarationAt?
  dsimp only
  rw [step, foldl_keepBetter]
  unfold Visited.covering declarations
  simp only [rangeContains_fileLineToBody, rangeArea_bodySpanToFile]

end SourceDocument

theorem runTypeAt_eq_noTerm {doc : SourceDocument} {trees : List (List (Info T K))}
    {line column : Nat} {render : T → R} : runTypeAt doc trees line column render = .noTerm ↔
      bestAt collectTypeAt doc trees line column = none := by
  unfold runTypeAt
  cases bestAt collectTypeAt doc trees line column <;> simp

theorem runGoalAt_eq_noTacticContext {doc : SourceDocument} {trees : List (List (Info T K))}
    {line column : Nat} {render : K → R} :
    runGoalAt doc trees line column render = .noTacticContext ↔
      bestAt collectGoalAt doc trees line column = none := by
  unfold runGoalAt
  cases bestAt collectGoalAt doc trees line column <;> simp

/-- What is selected is innermost exactly when the outer nodes are behind, which they are where all
ranges that cover the cursor are wide; nothing is selected exactly where nothing covers it. -/
structure Visited.Selects {α : Type} (v : Visited α) (line column : Nat)
    (selected : Option α) : Prop where
  exact : v.Innermost line column selected ↔ v.OutersBehind line column
  wide : (∀ a ∈ v.covering line column, (v.span a).Wide) → v.Innermost line column selected
  nothing : selected = none ↔ v.covering line column = []

theorem Visited.selects_argmin {α : Type} (v : Visited α) (line column : Nat) :
    v.Selects line column ((v.covering line column).argmin fun n => rangeArea (v.span n)) where
  exact := innermost_argmin_iff
  wide wide := innermost_argmin_iff.mpr (outersBehind_of_wide wide)
  nothing := List.argmin_eq_none

/-- The cursor selects an innermost node exactly when the lines and columns of the covering ranges
put the outer ones behind; where no node covers the cursor nothing is selected. -/
theorem selects_innermost_iff (doc : SourceDocument) (trees : List (List (Info T K)))
    (candidates : List DeclarationCandidate) (line column : Nat) (renderTerm : T → R)
    (renderGoals : K → R) :
    (doc.visited Info.term? trees).Selects line column
      (bestAt collectTypeAt doc trees line column) ∧
    (doc.visited Info.tactic? trees).Selects line column
      (bestAt collectGoalAt doc trees line column) ∧
    (doc.declarations candidates).Selects line column
      (declarationAt? doc candidates line column) ∧
    (runTypeAt doc trees line column renderTerm = .noTerm ↔
      (doc.visited Info.term? trees).covering line column = []) ∧
    (runGoalAt doc trees line column renderGoals = .noTacticContext ↔
      (doc.visited Info.tactic? trees).covering line column = []) := by
  rw [runTypeAt_eq_noTerm, runGoalAt_eq_noTacticContext]
  unfold collectTypeAt collectGoalAt
  rw [doc.bestAt_eq, doc.bestAt_eq, doc.declarationAt?_eq]
  exact ⟨Visited.selects_argmin _ _ _, Visited.selects_argmin _ _ _, Visited.selects_argmin _ _ _,
    List.argmin_eq_none, List.argmin_eq_none⟩

def lambdaBody : String := "#check id (fun x : Nat =>\n  x)"

def applicationSpan : BodySpan :=
  ⟨spanIn lambdaBody.toList 7 30, by decide, by decide, by decide⟩

def functionSpan : BodySpan :=
  ⟨spanIn lambdaBody.toList 11 29, by decide, by decide, by decide⟩

def lambdaTrees : List (List (Info Unit Unit)) :=
  [[.ofTermInfo (some applicationSpan) (), .ofTermInfo (some functionSpan) ()]]

/-- At the arrow of the function the application is selected: both end to the left of the column
that they start in. -/
theorem application_selected :
    ¬∀ (doc : SourceDocument) (trees : List (List (Info Unit Unit))) (line column : Nat),
      (doc.visited Info.term? trees).Nested →
        (doc.visited Info.term? trees).Innermost line column
          (bestAt collectTypeAt doc trees line column) := by
  intro all
  have nested : ((SourceDocument.fromSources lambdaBody lambdaBody 0).visited Info.term?
      lambdaTrees).Nested := by
    intro a inA b inB
    change a ∈ [Candidate.mk applicationSpan (), ⟨functionSpan, ()⟩] at inA
    change b ∈ [Candidate.mk applicationSpan (), ⟨functionSpan, ()⟩] at inB
    simp only [List.mem_cons, List.not_mem_nil, or_false] at inA inB
    obtain rfl | rfl := inA
    · obtain rfl | rfl := inB
      · exact Or.inl rfl
      · exact Or.inr (Or.inl (by decide))
    · obtain rfl | rfl := inB
      · exact Or.inr (Or.inr (Or.inl (by decide)))
      · exact Or.inl rfl
  have innermost := all (.fromSources lambdaBody lambdaBody 0) lambdaTrees 1 24 nested
  have covers : Candidate.mk functionSpan () ∈ Visited.covering
      ((SourceDocument.fromSources lambdaBody lambdaBody 0).visited Info.term? lambdaTrees) 1 24 :=
    List.mem_filter.mpr ⟨List.Mem.tail _ (List.Mem.head _), by decide⟩
  exact innermost.2 ⟨_, covers, by decide⟩

end LeanRs
