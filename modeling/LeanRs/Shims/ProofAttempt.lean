import LeanRs.General.Metering
import LeanRs.Shims.Rendering
import LeanRs.Shims.Selection

/-! The answer to a proof attempt: one row for each candidate, under a budget of bytes for all of
them. What the elaboration of an overlay gives is left open. -/
namespace LeanRs

open Elaboration Metering

structure ModuleQueryOutputBudgets where
  perFieldBytes : Nat
  totalBytes : Nat

structure ProofCandidate where
  id : String
  text : String

/-- The edit is resolved before any candidate is tried. -/
structure ProofAttemptRequest where
  candidates : List ProofCandidate
  budgets : ModuleQueryOutputBudgets

inductive ProofAttemptStatus where
  | closed
  | progressed
  | failed
  | timeout
  | budgetExceeded
  | notAttempted
  | unsupported
  deriving DecidableEq

structure ProofAttemptRow where
  id : String
  status : ProofAttemptStatus
  candidateText : RenderedInfo
  diagnostics : ElabFailure
  downstreamDiagnostics : ElabFailure
  goals : List RenderedInfo
  declaration : Option DeclarationTargetInfo
  proofPosition : Option ProofPositionSummary
  outputTruncated : Bool

structure LocalInfo where
  name : String
  binderInfo : String
  typeStr : RenderedInfo
  value : Option RenderedInfo

structure ProofAttemptEnvelope where
  candidates : List ProofAttemptRow
  candidateLimit : Nat
  candidatesTruncated : Bool
  entryGoals : List RenderedInfo
  locals : List LocalInfo

def proofCandidateLimit : Nat := 16

def severityBytes : Severity → Nat
  | .info => 4
  | .warning => 7
  | .error => 5

def failureBytes (failure : ElabFailure) : Nat :=
  failure.diagnostics.foldl (fun bytes d =>
    bytes + byteLength d.message + byteLength d.fileLabel + severityBytes d.severity) 0

def spanBytes (_span : ModuleSourceSpan) : Nat := 32

def declarationTargetInfoBytes (info : DeclarationTargetInfo) : Nat :=
  byteLength info.shortName + byteLength info.declarationName + byteLength info.namespaceName +
    byteLength info.declarationKind + spanBytes info.declarationSpan + spanBytes info.nameSpan +
    spanBytes info.bodySpan

def attemptRowBytes (row : ProofAttemptRow) : Nat :=
  byteLength row.id + renderedBytes row.candidateText +
    failureBytes row.diagnostics + failureBytes row.downstreamDiagnostics +
    row.goals.foldl (fun bytes goal => bytes + renderedBytes goal) 0 +
    match row.declaration with
    | some info => declarationTargetInfoBytes info
    | none => 0

def containsSubstr (text needle : String) : Bool :=
  text.toList.tails.any fun tail => needle.toList.isPrefixOf tail

def diagnosticHasError (failure : ElabFailure) : Bool :=
  failure.diagnostics.any fun d => d.severity == .error

def diagnosticMentionsHeartbeat (failure : ElabFailure) : Bool :=
  failure.diagnostics.any fun d =>
    containsSubstr d.message "heartbeat" || containsSubstr d.message "Heartbeats" ||
      containsSubstr d.message "maximum number of heartbeats"

def classifyAttempt (failure : ElabFailure) (goals : List RenderedInfo) : ProofAttemptStatus :=
  if diagnosticMentionsHeartbeat failure then .timeout
  else if diagnosticHasError failure then .failed
  else if goals.isEmpty then .closed
  else .progressed

def renderedGoalInfos (goals : List String) (limit : Nat) : List RenderedInfo :=
  goals.map fun goal =>
    if byteLength goal ≤ limit then ⟨goal, false⟩
    else ⟨(renderPieces limit (goal.toList.map Char.toString)).out, true⟩

inductive ProofStateResult where
  | state (goalsAfter : List String) (truncated : Bool)
  | unavailable
  | ambiguous
  | needsBuild

def proofStateGoalsAfter (result : ProofStateResult) (limit : Nat) : List RenderedInfo × Bool :=
  match result with
  | .state goalsAfter truncated => (renderedGoalInfos goalsAfter limit, truncated)
  | .unavailable | .ambiguous | .needsBuild => ([], false)

def diagnosticStartsInBodySpan (span : ModuleSourceSpan) (d : Elaboration.Diagnostic) : Bool :=
  match d.position with
  | none => false
  | some pos => rangeContains span pos.line pos.column

def splitFailureAtBodySpan (span : ModuleSourceSpan) (failure : ElabFailure) :
    ElabFailure × ElabFailure :=
  let localDiags := failure.diagnostics.filter (diagnosticStartsInBodySpan span)
  let downstream := failure.diagnostics.filter fun d => !diagnosticStartsInBodySpan span d
  ({ failure with diagnostics := localDiags }, { failure with diagnostics := downstream })

/-- What the elaboration of an overlay gives: its messages, and the tactic state at a cursor of the
file. -/
structure ElaboratedOverlay where
  messages : List Elaboration.Message
  proofState : Nat → Nat → ProofStateResult

/-- A hypothesis of the entry state, with its type and its value as they are rendered: by the
pretty printer, or where that fails by the pieces of the raw expression. -/
inductive LocalText where
  | pretty (text : String)
  | raw (pieces : List String)

structure LocalDecl where
  userName : String
  binderInfo : String
  type : LocalText
  value : Option LocalText

structure EntryState where
  degraded : Bool
  goalsBefore : List String
  localDecls : List LocalDecl

/-- The resolved edit; it always lies in a declaration, at a proof position. -/
structure EditTarget where
  selected : SelectedTactic
  declaration : DeclarationTargetInfo
  proofPosition : ProofPositionSummary
  entry : Option EntryState

structure AttemptContext where
  document : SourceDocument
  fileLabel : String
  resolve : Except String EditTarget
  build : String → Except ElabFailure ElaboratedOverlay

def truncationFlag (failure : ElabFailure) : Bool :=
  match failure.truncated with
  | .truncated => true
  | .complete => false

def attemptCandidate (cx : AttemptContext) (perFieldBytes : Nat) (target : EditTarget)
    (candidate : ProofCandidate) : ProofAttemptRow :=
  let candidateText := renderStringBoundedWith perFieldBytes candidate.text
  match cx.document.tacticInsertion? target.selected (some target.declaration)
      (some target.proofPosition) candidate.text with
  | none =>
    { id := candidate.id
      status := .failed
      candidateText
      diagnostics :=
        singleErrorFailure "proof edit target is outside the source text" cx.fileLabel
      downstreamDiagnostics := emptyFailure
      goals := []
      declaration := some target.declaration
      proofPosition := some target.proofPosition
      outputTruncated := candidateText.truncated }
  | some (overlay, site) =>
    match cx.build overlay with
    | .error failure =>
      let (localFailure, downstreamFailure) :=
        splitFailureAtBodySpan site.insertedBodySpan failure
      { id := candidate.id
        status := if diagnosticMentionsHeartbeat failure then .timeout else .failed
        candidateText
        diagnostics := localFailure
        downstreamDiagnostics := downstreamFailure
        goals := []
        declaration := site.declaration
        proofPosition := site.proofPosition
        outputTruncated := candidateText.truncated }
    | .ok snapshot =>
      let failure :=
        failureFromMessages snapshot.messages perFieldBytes.toUSize.toNat cx.fileLabel
      let (localFailure, downstreamFailure) :=
        splitFailureAtBodySpan site.insertedBodySpan failure
      let proofState :=
        snapshot.proofState site.insertedFileSpan.endLine site.insertedFileSpan.endColumn
      let (goals, proofStateTruncated) := proofStateGoalsAfter proofState perFieldBytes
      { id := candidate.id
        status := classifyAttempt localFailure goals
        candidateText
        diagnostics := localFailure
        downstreamDiagnostics := downstreamFailure
        goals
        declaration := site.declaration
        proofPosition := site.proofPosition
        outputTruncated := candidateText.truncated || proofStateTruncated ||
          truncationFlag localFailure || truncationFlag downstreamFailure }

def candidateCapRows (candidates : List ProofCandidate) : List ProofCandidate × Bool :=
  (candidates.take (min candidates.length proofCandidateLimit),
    candidates.length > proofCandidateLimit)

def unresolvedRow (perFieldBytes : Nat) (message fileLabel : String) (candidate : ProofCandidate) :
    ProofAttemptRow where
  id := candidate.id
  status := .failed
  candidateText := renderStringBoundedWith perFieldBytes candidate.text
  diagnostics := singleErrorFailure message fileLabel
  downstreamDiagnostics := emptyFailure
  goals := []
  declaration := none
  proofPosition := none
  outputTruncated := (renderStringBoundedWith perFieldBytes candidate.text).truncated

def notAttemptedRow (perFieldBytes : Nat) (target : EditTarget) (candidate : ProofCandidate) :
    ProofAttemptRow where
  id := candidate.id
  status := .notAttempted
  candidateText := renderStringBoundedWith perFieldBytes candidate.text
  diagnostics := emptyFailure
  downstreamDiagnostics := emptyFailure
  goals := []
  declaration := some target.declaration
  proofPosition := some target.proofPosition
  outputTruncated := true

def overBudget (row : ProofAttemptRow) : ProofAttemptRow :=
  { row with status := .budgetExceeded, outputTruncated := true }

def attemptRows (cx : AttemptContext) (budgets : ModuleQueryOutputBudgets) (target : EditTarget) :
    List ProofCandidate → Nat → List ProofAttemptRow
  | [], _ => []
  | candidate :: rest, spent =>
    if spent ≥ budgets.totalBytes then
      notAttemptedRow budgets.perFieldBytes target candidate ::
        attemptRows cx budgets target rest spent
    else
      let row := attemptCandidate cx budgets.perFieldBytes target candidate
      let bytes := attemptRowBytes row
      if spent + bytes > budgets.totalBytes then
        overBudget row :: attemptRows cx budgets target rest budgets.totalBytes
      else row :: attemptRows cx budgets target rest (spent + bytes)

def renderLocalExpr (limit : Nat) : LocalText → RenderedInfo
  | .pretty text => renderStringBoundedWith limit text
  | .raw pieces => renderExprBoundedWith limit pieces

def collectLocals (limit : Nat) (decls : List LocalDecl) : List LocalInfo :=
  decls.map fun decl =>
    ⟨decl.userName, decl.binderInfo, renderLocalExpr limit decl.type,
      decl.value.map (renderLocalExpr limit)⟩

def entryRendering (perFieldBytes : Nat) : Option EntryState → List RenderedInfo × List LocalInfo
  | none => ([], [])
  | some entry =>
    if entry.degraded then ([], [])
    else (renderedGoalInfos entry.goalsBefore perFieldBytes,
      collectLocals perFieldBytes entry.localDecls)

def attemptEnvelope (cx : AttemptContext) (request : ProofAttemptRequest) : ProofAttemptEnvelope :=
  let (candidates, candidatesTruncated) := candidateCapRows request.candidates
  match cx.resolve with
  | .error message =>
    { candidates := candidates.map
        (unresolvedRow request.budgets.perFieldBytes message cx.fileLabel)
      candidateLimit := proofCandidateLimit
      candidatesTruncated
      entryGoals := []
      locals := [] }
  | .ok target =>
    let (entryGoals, locals) := entryRendering request.budgets.perFieldBytes target.entry
    { candidates := attemptRows cx request.budgets target candidates 0
      candidateLimit := proofCandidateLimit
      candidatesTruncated
      entryGoals
      locals }

theorem SourceDocument.tacticInsertion?_target {doc : SourceDocument} {selected : SelectedTactic}
    {declaration : Option DeclarationTargetInfo} {proofPosition : Option ProofPositionSummary}
    {text overlay : String} {site : ProofInsertionSite}
    (inserted : doc.tacticInsertion? selected declaration proofPosition text =
      some (overlay, site)) :
    site.declaration = declaration ∧ site.proofPosition = proofPosition := by
  rw [tacticInsertion?_eq] at inserted
  unfold insertionAt? at inserted
  cases placement : selected.placement with
  | after =>
    simp only [placement] at inserted
    obtain ⟨pos, -, same⟩ := Option.map_eq_some_iff.mp inserted
    cases same
    exact ⟨rfl, rfl⟩
  | before =>
    simp only [placement] at inserted
    obtain ⟨pos, -, same⟩ := Option.map_eq_some_iff.mp inserted
    cases same
    exact ⟨rfl, rfl⟩

variable {cx : AttemptContext} {perFieldBytes : Nat} {target : EditTarget}

/-- What every attempted row has, however the attempt ends. -/
structure ProofAttemptRow.Attempted (perFieldBytes : Nat) (target : EditTarget)
    (candidate : ProofCandidate) (row : ProofAttemptRow) : Prop where
  id : row.id = candidate.id
  candidateText : row.candidateText = renderStringBoundedWith perFieldBytes candidate.text
  declaration : row.declaration = some target.declaration
  proofPosition : row.proofPosition = some target.proofPosition
  notExceeded : row.status ≠ .budgetExceeded
  wasAttempted : row.status ≠ .notAttempted
  goals : ∀ goal ∈ row.goals, renderedBytes goal ≤ withMarker perFieldBytes

theorem renderedGoalInfos_le {goals : List String} {limit : Nat} :
    ∀ goal ∈ renderedGoalInfos goals limit, renderedBytes goal ≤ withMarker limit := by
  intro goal member
  obtain ⟨text, -, rfl⟩ := List.mem_map.mp member
  exact renderStringBoundedWith_le limit text

theorem proofStateGoalsAfter_le (result : ProofStateResult) (limit : Nat) :
    ∀ goal ∈ (proofStateGoalsAfter result limit).1, renderedBytes goal ≤ withMarker limit := by
  cases result with
  | state goalsAfter truncated => exact renderedGoalInfos_le
  | unavailable => nofun
  | ambiguous => nofun
  | needsBuild => nofun

theorem classifyAttempt_attempted (failure : ElabFailure) (goals : List RenderedInfo) :
    classifyAttempt failure goals ≠ .budgetExceeded ∧
      classifyAttempt failure goals ≠ .notAttempted := by
  unfold classifyAttempt
  split
  · decide
  · split
    · decide
    · split <;> decide

theorem attemptCandidate_attempted (cx : AttemptContext) (perFieldBytes : Nat)
    (target : EditTarget) (candidate : ProofCandidate) :
    (attemptCandidate cx perFieldBytes target candidate).Attempted perFieldBytes target
      candidate := by
  unfold attemptCandidate
  split
  · exact ⟨rfl, rfl, rfl, rfl, nofun, nofun, nofun⟩
  · rename_i overlay site inserted
    obtain ⟨same, position⟩ := SourceDocument.tacticInsertion?_target inserted
    split
    · refine ⟨rfl, rfl, same, position, ?_, ?_, nofun⟩
      · dsimp only
        split <;> decide
      · dsimp only
        split <;> decide
    · have status := classifyAttempt_attempted
      exact ⟨rfl, rfl, same, position, (status _ _).1, (status _ _).2,
        proofStateGoalsAfter_le _ _⟩

theorem attemptRowBytes_pos {candidate : ProofCandidate} {row : ProofAttemptRow}
    (attempted : row.Attempted perFieldBytes target candidate) : 0 < attemptRowBytes row := by
  unfold attemptRowBytes
  rw [attempted.declaration]
  dsimp only [declarationTargetInfoBytes, spanBytes]
  omega

/-- The row for a candidate, by how the budget treats it. -/
def metredRow (cx : AttemptContext) (perFieldBytes : Nat) (target : EditTarget) :
    Mark × ProofCandidate → ProofAttemptRow
  | (.reported, candidate) => attemptCandidate cx perFieldBytes target candidate
  | (.exceeded, candidate) => overBudget (attemptCandidate cx perFieldBytes target candidate)
  | (.skipped, candidate) => notAttemptedRow perFieldBytes target candidate

def attemptCost (cx : AttemptContext) (perFieldBytes : Nat) (target : EditTarget)
    (candidate : ProofCandidate) : Nat :=
  attemptRowBytes (attemptCandidate cx perFieldBytes target candidate)

theorem attemptRows_eq (cx : AttemptContext) (budgets : ModuleQueryOutputBudgets)
    (target : EditTarget) (candidates : List ProofCandidate) (spent : Nat) :
    attemptRows cx budgets target candidates spent =
      (meter (attemptCost cx budgets.perFieldBytes target) budgets.totalBytes spent
        candidates).map (metredRow cx budgets.perFieldBytes target) := by
  induction candidates generalizing spent with
  | nil => rfl
  | cons candidate rest ih =>
    unfold attemptRows meter
    by_cases full : spent ≥ budgets.totalBytes
    · rw [if_pos full, if_pos full, ih]
      rfl
    · rw [if_neg full, if_neg full]
      dsimp only
      by_cases over' : spent + attemptCost cx budgets.perFieldBytes target candidate >
          budgets.totalBytes
      · rw [if_pos over', ih]
        unfold attemptCost at over'
        rw [if_pos over']
        rfl
      · rw [if_neg over']
        unfold attemptCost at over'
        rw [if_neg over', ih]
        rfl

theorem metredRow_id (entry : Mark × ProofCandidate) :
    (metredRow cx perFieldBytes target entry).id = entry.2.id := by
  obtain ⟨mark, candidate⟩ := entry
  cases mark with
  | reported => exact (attemptCandidate_attempted cx perFieldBytes target candidate).id
  | exceeded => exact (attemptCandidate_attempted cx perFieldBytes target candidate).id
  | skipped => rfl

theorem attemptRows_ids (cx : AttemptContext) (budgets : ModuleQueryOutputBudgets)
    (target : EditTarget) (candidates : List ProofCandidate) (spent : Nat) :
    (attemptRows cx budgets target candidates spent).map (·.id) = candidates.map (·.id) := by
  rw [attemptRows_eq, List.map_map]
  have kept := @meter_entries _ (attemptCost cx budgets.perFieldBytes target) budgets.totalBytes
    spent candidates
  conv_rhs => rw [← kept, List.map_map]
  exact List.map_congr_left fun entry _ => metredRow_id entry

/-- The row is neither over the budget nor left out for it. -/
def ProofAttemptRow.Reported (row : ProofAttemptRow) : Prop :=
  row.status ≠ .budgetExceeded ∧ row.status ≠ .notAttempted

instance (row : ProofAttemptRow) : Decidable row.Reported :=
  inferInstanceAs (Decidable (_ ∧ _))

def reportedRows (rows : List ProofAttemptRow) : List ProofAttemptRow :=
  rows.filter fun row => row.Reported

def exceededRows (rows : List ProofAttemptRow) : List ProofAttemptRow :=
  rows.filter fun row => row.status = .budgetExceeded

theorem reportedRows_metred (metered : List (Mark × ProofCandidate)) :
    reportedRows (metered.map (metredRow cx perFieldBytes target)) =
      (marked .reported metered).map (attemptCandidate cx perFieldBytes target) := by
  induction metered with
  | nil => rfl
  | cons entry rest ih =>
    obtain ⟨mark, candidate⟩ := entry
    have attempted := attemptCandidate_attempted cx perFieldBytes target candidate
    unfold reportedRows at ih ⊢
    rw [List.map_cons, List.filter_cons, ih, marked_cons]
    cases mark with
    | reported =>
      rw [if_pos (decide_eq_true ⟨attempted.notExceeded, attempted.wasAttempted⟩), if_pos rfl]
      rfl
    | exceeded => rw [if_neg (by simp [metredRow, overBudget, ProofAttemptRow.Reported]),
        if_neg nofun]
    | skipped => rw [if_neg (by simp [metredRow, notAttemptedRow, ProofAttemptRow.Reported]),
        if_neg nofun]

theorem exceededRows_metred (metered : List (Mark × ProofCandidate)) :
    (exceededRows (metered.map (metredRow cx perFieldBytes target))).length =
      (marked .exceeded metered).length := by
  induction metered with
  | nil => rfl
  | cons entry rest ih =>
    obtain ⟨mark, candidate⟩ := entry
    have attempted := attemptCandidate_attempted cx perFieldBytes target candidate
    unfold exceededRows at ih ⊢
    rw [List.map_cons, List.filter_cons, marked_cons]
    cases mark with
    | reported =>
      rw [if_neg (by simp [metredRow, attempted.notExceeded]), if_neg nofun]
      exact ih
    | exceeded =>
      rw [if_pos (by simp [metredRow, overBudget]), if_pos rfl, List.length_cons, List.length_cons,
        ih]
    | skipped =>
      rw [if_neg (by simp [metredRow, notAttemptedRow]), if_neg nofun]
      exact ih

variable (cx) (budgets : ModuleQueryOutputBudgets) (target : EditTarget)
  (candidates : List ProofCandidate)

theorem reportedRows_le : ((reportedRows (attemptRows cx budgets target candidates 0)).map
    attemptRowBytes).sum ≤ budgets.totalBytes := by
  rw [attemptRows_eq, reportedRows_metred, List.map_map]
  have fits := @reported_le _ (attemptCost cx budgets.perFieldBytes target) _ _ candidates
    (Nat.zero_le budgets.totalBytes)
  rw [Nat.zero_add] at fits
  exact fits

theorem exceededRows_le_one :
    (exceededRows (attemptRows cx budgets target candidates 0)).length ≤ 1 := by
  rw [attemptRows_eq, exceededRows_metred]
  exact exceeded_le_one

variable {cx budgets target candidates}

/-- Every row is the attempt at its candidate, perhaps marked as over the budget, or a row for a
candidate that has not been tried. -/
theorem mem_attemptRows {row : ProofAttemptRow} {spent : Nat}
    (member : row ∈ attemptRows cx budgets target candidates spent) :
    ∃ candidate, row = attemptCandidate cx budgets.perFieldBytes target candidate ∨
      row = overBudget (attemptCandidate cx budgets.perFieldBytes target candidate) ∨
      row = notAttemptedRow budgets.perFieldBytes target candidate := by
  rw [attemptRows_eq] at member
  obtain ⟨⟨mark, candidate⟩, -, rfl⟩ := List.mem_map.mp member
  refine ⟨candidate, ?_⟩
  cases mark with
  | reported => exact Or.inl rfl
  | exceeded => exact Or.inr (Or.inl rfl)
  | skipped => exact Or.inr (Or.inr rfl)

theorem notAttempted_empty {row : ProofAttemptRow} {spent : Nat}
    (member : row ∈ attemptRows cx budgets target candidates spent)
    (skipped : row.status = .notAttempted) :
    row.diagnostics = emptyFailure ∧ row.downstreamDiagnostics = emptyFailure ∧ row.goals = [] := by
  obtain ⟨candidate, rfl | rfl | rfl⟩ := mem_attemptRows member
  · exact absurd skipped (attemptCandidate_attempted cx _ target candidate).wasAttempted
  · exact absurd skipped nofun
  · exact ⟨rfl, rfl, rfl⟩

theorem attemptRows_reported {before after : List ProofCandidate} {candidate : ProofCandidate}
    (split : candidates = before ++ candidate :: after)
    (fits : (before.map (attemptCost cx budgets.perFieldBytes target)).sum +
      attemptCost cx budgets.perFieldBytes target candidate ≤ budgets.totalBytes) :
    (attemptRows cx budgets target candidates 0)[before.length]? =
      some (attemptCandidate cx budgets.perFieldBytes target candidate) := by
  have pos : 0 < attemptCost cx budgets.perFieldBytes target candidate :=
    attemptRowBytes_pos (attemptCandidate_attempted cx _ target candidate)
  have reported := @meter_reported _ (attemptCost cx budgets.perFieldBytes target)
    budgets.totalBytes 0 before after candidate (by omega) (by omega)
  rw [attemptRows_eq, split, List.getElem?_map, reported]
  rfl

end LeanRs
