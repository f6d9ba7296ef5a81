import LeanRs.Shims.ProofAttempt

/-! When an attempt keeps to its budgets: the bytes of all rows together, and the limit of each
rendered field. -/
namespace LeanRs

open Elaboration Metering

variable {cx : AttemptContext} {perFieldBytes : Nat} {target : EditTarget}
  {budgets : ModuleQueryOutputBudgets} {candidates : List ProofCandidate}

structure ProofAttemptRow.Rendered (limit : Nat) (row : ProofAttemptRow) : Prop where
  candidateText : renderedBytes row.candidateText ≤ withMarker limit
  goals : ∀ goal ∈ row.goals, renderedBytes goal ≤ withMarker limit
  tactic : ∀ position, row.proofPosition = some position →
    renderedBytes position.tactic ≤ withMarker limit

structure LocalInfo.Rendered (limit : Nat) (info : LocalInfo) : Prop where
  typeStr : renderedBytes info.typeStr ≤ withMarker limit
  value : ∀ value, info.value = some value → renderedBytes value ≤ withMarker limit

structure ProofAttemptEnvelope.Rendered (limit : Nat) (envelope : ProofAttemptEnvelope) :
    Prop where
  candidates : ∀ row ∈ envelope.candidates, row.Rendered limit
  entryGoals : ∀ goal ∈ envelope.entryGoals, renderedBytes goal ≤ withMarker limit
  locals : ∀ info ∈ envelope.locals, info.Rendered limit

/-- The text of the tactic at the selected position is short enough for a field. -/
def EditTarget.TacticFits (target : EditTarget) (limit : Nat) : Prop :=
  renderedBytes target.proofPosition.tactic ≤ withMarker limit

theorem attempted_rendered {candidate : ProofCandidate} {row : ProofAttemptRow}
    (attempted : row.Attempted perFieldBytes target candidate) :
    row.Rendered perFieldBytes ↔ target.TacticFits perFieldBytes := by
  constructor
  · intro rendered
    exact rendered.tactic _ attempted.proofPosition
  · intro fits
    refine ⟨?_, attempted.goals, fun position same => ?_⟩
    · rw [attempted.candidateText]
      exact renderStringBoundedWith_le _ _
    · rw [attempted.proofPosition] at same
      exact Option.some.inj same ▸ fits

theorem attemptRows_rendered {row : ProofAttemptRow} {spent : Nat}
    (member : row ∈ attemptRows cx budgets target candidates spent) :
    row.Rendered budgets.perFieldBytes ↔ target.TacticFits budgets.perFieldBytes := by
  obtain ⟨candidate, same⟩ := mem_attemptRows member
  have attempted := attempted_rendered (attemptCandidate_attempted cx budgets.perFieldBytes target
    candidate)
  obtain rfl | rfl | rfl := same
  · exact attempted
  · rw [← attempted]
    exact ⟨fun ⟨text, goals, tactic⟩ => ⟨text, goals, tactic⟩,
      fun ⟨text, goals, tactic⟩ => ⟨text, goals, tactic⟩⟩
  · constructor
    · intro rendered
      exact rendered.tactic _ rfl
    · intro fits
      exact ⟨renderStringBoundedWith_le _ _, fun _ none => absurd none List.not_mem_nil,
        fun _ same => Option.some.inj same ▸ fits⟩

theorem renderLocalExpr_le (limit : Nat) (text : LocalText) :
    renderedBytes (renderLocalExpr limit text) ≤ withMarker limit := by
  cases text with
  | pretty text => exact renderStringBoundedWith_le limit text
  | raw pieces => exact renderExprBoundedWith_le limit pieces

theorem collectLocals_rendered {limit : Nat} {decls : List LocalDecl} :
    ∀ info ∈ collectLocals limit decls, info.Rendered limit := by
  intro info member
  obtain ⟨decl, -, rfl⟩ := List.mem_map.mp member
  refine ⟨renderLocalExpr_le limit decl.type, fun value some => ?_⟩
  obtain ⟨text, -, rfl⟩ := Option.map_eq_some_iff.mp some
  exact renderLocalExpr_le limit text

theorem entryRendering_rendered (limit : Nat) (entry : Option EntryState) :
    (∀ goal ∈ (entryRendering limit entry).1, renderedBytes goal ≤ withMarker limit) ∧
      ∀ info ∈ (entryRendering limit entry).2, info.Rendered limit := by
  unfold entryRendering
  split
  · exact ⟨nofun, nofun⟩
  · split
    · exact ⟨nofun, nofun⟩
    · exact ⟨renderedGoalInfos_le, collectLocals_rendered⟩

structure ProofAttemptRow.Classified (cx : AttemptContext) (perFieldBytes : Nat)
    (site : ProofInsertionSite) (snapshot : ElaboratedOverlay) (row : ProofAttemptRow) :
    Prop where
  messages : (row.diagnostics, row.downstreamDiagnostics) =
    splitFailureAtBodySpan site.insertedBodySpan
      (failureFromMessages snapshot.messages perFieldBytes.toUSize.toNat cx.fileLabel)
  goals : row.goals = (proofStateGoalsAfter (snapshot.proofState site.insertedFileSpan.endLine
    site.insertedFileSpan.endColumn) perFieldBytes).1
  status : row.status = classifyAttempt row.diagnostics row.goals

theorem attemptCandidate_classified {candidate : ProofCandidate} {overlay : String}
    {site : ProofInsertionSite} {snapshot : ElaboratedOverlay}
    (inserted : cx.document.tacticInsertion? target.selected (some target.declaration)
      (some target.proofPosition) candidate.text = some (overlay, site))
    (built : cx.build overlay = .ok snapshot) :
    (attemptCandidate cx perFieldBytes target candidate).Classified cx perFieldBytes site
      snapshot := by
  unfold attemptCandidate
  simp only [inserted, built]
  exact ⟨rfl, rfl, rfl⟩

/-- The messages of a row are whole messages of the overlay, the first one is among them, and all
but the last of those that are kept stay below the limit. -/
def ProofAttemptRow.KeepsMessages (perFieldBytes : Nat) (fileLabel : String)
    (snapshot : ElaboratedOverlay) (row : ProofAttemptRow) : Prop :=
  ∃ kept : List Elaboration.Diagnostic,
    kept <+: snapshot.messages.map (·.diagnostic fileLabel) ∧
      (snapshot.messages ≠ [] → kept ≠ []) ∧
      (kept.length ≤ 1 ∨ messageBytes kept.dropLast < perFieldBytes.toUSize.toNat) ∧
      (row.diagnostics.diagnostics ++ row.downstreamDiagnostics.diagnostics).Perm kept

theorem ProofAttemptRow.Classified.keepsMessages {site : ProofInsertionSite}
    {snapshot : ElaboratedOverlay} {row : ProofAttemptRow}
    (classified : row.Classified cx perFieldBytes site snapshot) :
    row.KeepsMessages perFieldBytes cx.fileLabel snapshot := by
  obtain ⟨diagnostics, downstream⟩ := Prod.mk.inj classified.messages
  refine ⟨(serializeMessages snapshot.messages perFieldBytes.toUSize.toNat cx.fileLabel).1,
    serializeMessages_prefix _ _ _, fun some' => serializeMessages_ne_nil some' _ _,
    serializeMessages_kept _ _ _, ?_⟩
  rw [diagnostics, downstream]
  exact List.filter_append_perm _ _

theorem candidateCapRows_eq (candidates : List ProofCandidate) :
    (candidateCapRows candidates).1 = candidates.take proofCandidateLimit := by
  unfold candidateCapRows
  dsimp only
  rw [Nat.min_comm, ← List.take_take, List.take_length]

structure AttemptRowsBudgeted (cx : AttemptContext) (budgets : ModuleQueryOutputBudgets)
    (target : EditTarget) (candidates : List ProofCandidate) (rows : List ProofAttemptRow) :
    Prop where
  fit : ((reportedRows rows).map attemptRowBytes).sum ≤ budgets.totalBytes
  oneExceeds : (exceededRows rows).length ≤ 1
  skippedEmpty : ∀ row ∈ rows, row.status = .notAttempted →
    row.diagnostics = emptyFailure ∧ row.downstreamDiagnostics = emptyFailure ∧ row.goals = []
  reported : ∀ before candidate after, candidates = before ++ candidate :: after →
    (before.map (attemptCost cx budgets.perFieldBytes target)).sum +
        attemptCost cx budgets.perFieldBytes target candidate ≤ budgets.totalBytes →
      rows[before.length]? = some (attemptCandidate cx budgets.perFieldBytes target candidate)
  elaborated : ∀ candidate ∈ candidates, ∀ overlay site snapshot,
    cx.document.tacticInsertion? target.selected (some target.declaration)
        (some target.proofPosition) candidate.text = some (overlay, site) →
      cx.build overlay = .ok snapshot →
        (attemptCandidate cx budgets.perFieldBytes target candidate).Classified cx
            budgets.perFieldBytes site snapshot ∧
          (attemptCandidate cx budgets.perFieldBytes target candidate).KeepsMessages
            budgets.perFieldBytes cx.fileLabel snapshot

theorem attemptRows_budgeted (cx : AttemptContext) (budgets : ModuleQueryOutputBudgets)
    (target : EditTarget) (candidates : List ProofCandidate) :
    AttemptRowsBudgeted cx budgets target candidates
      (attemptRows cx budgets target candidates 0) where
  fit := reportedRows_le cx budgets target candidates
  oneExceeds := exceededRows_le_one cx budgets target candidates
  skippedEmpty _ member skipped := notAttempted_empty member skipped
  reported _ _ _ split fits := attemptRows_reported split fits
  elaborated _ _ _ _ _ inserted built :=
    have classified := attemptCandidate_classified inserted built
    ⟨classified, classified.keepsMessages⟩

def ProofAttemptRow.labelBytes (row : ProofAttemptRow) : Nat :=
  byteLength row.id + renderedBytes row.candidateText +
    match row.declaration with
    | some info => declarationTargetInfoBytes info
    | none => 0

def ProofAttemptRow.payloadBytes (row : ProofAttemptRow) : Nat :=
  failureBytes row.diagnostics + failureBytes row.downstreamDiagnostics +
    (row.goals.map renderedBytes).sum

def ProofAttemptRow.placeholderBytes (row : ProofAttemptRow) : Nat :=
  if row.Reported then 0 else row.labelBytes

theorem foldl_bytes {A : Type} (bytes : A → Nat) (items : List A) :
    items.foldl (fun sum item => sum + bytes item) 0 = (items.map bytes).sum := by
  rw [List.sum_eq_foldl_nat, List.foldl_map]

theorem attemptRowBytes_eq (row : ProofAttemptRow) :
    attemptRowBytes row = row.labelBytes + row.payloadBytes := by
  unfold attemptRowBytes ProofAttemptRow.labelBytes ProofAttemptRow.payloadBytes
  rw [foldl_bytes]
  cases row.declaration with
  | none =>
    dsimp only
    omega
  | some info =>
    dsimp only
    omega

def diagnosticBytes (d : Elaboration.Diagnostic) : Nat :=
  byteLength d.message + byteLength d.fileLabel + severityBytes d.severity

theorem failureBytes_eq (failure : ElabFailure) :
    failureBytes failure = (failure.diagnostics.map diagnosticBytes).sum := by
  rw [← foldl_bytes]
  simp only [failureBytes, diagnosticBytes, Nat.add_assoc]

theorem failureBytes_split (span : ModuleSourceSpan) (failure : ElabFailure) :
    failureBytes (splitFailureAtBodySpan span failure).1 +
      failureBytes (splitFailureAtBodySpan span failure).2 = failureBytes failure := by
  have parts := List.filter_append_perm (diagnosticStartsInBodySpan span) failure.diagnostics
  have sums := (parts.map diagnosticBytes).sum_nat
  rw [List.map_append, List.sum_append] at sums
  rw [failureBytes_eq, failureBytes_eq, failureBytes_eq]
  exact sums

/-- What the outcome of an attempt is charged, its messages and goals cut to the limit of a
field. -/
def attemptPayload (cx : AttemptContext) (perFieldBytes : Nat) (target : EditTarget)
    (candidate : ProofCandidate) : Nat :=
  match cx.document.tacticInsertion? target.selected (some target.declaration)
      (some target.proofPosition) candidate.text with
  | none =>
    failureBytes (singleErrorFailure "proof edit target is outside the source text" cx.fileLabel)
  | some (overlay, site) =>
    match cx.build overlay with
    | .error failure => failureBytes failure
    | .ok snapshot =>
      failureBytes
          (failureFromMessages snapshot.messages perFieldBytes.toUSize.toNat cx.fileLabel) +
        ((proofStateGoalsAfter (snapshot.proofState site.insertedFileSpan.endLine
          site.insertedFileSpan.endColumn) perFieldBytes).1.map renderedBytes).sum

theorem attemptCandidate_payload (cx : AttemptContext) (perFieldBytes : Nat)
    (target : EditTarget) (candidate : ProofCandidate) :
    (attemptCandidate cx perFieldBytes target candidate).payloadBytes =
      attemptPayload cx perFieldBytes target candidate := by
  unfold attemptCandidate attemptPayload ProofAttemptRow.payloadBytes
  cases cx.document.tacticInsertion? target.selected (some target.declaration)
      (some target.proofPosition) candidate.text with
  | none => rfl
  | some inserted =>
    dsimp only
    cases cx.build inserted.1 with
    | error failure => simp [failureBytes_split]
    | ok snapshot => simp [failureBytes_split]

/-- What the row of a candidate is charged for the candidate and the declaration of the edit. -/
def candidateBytes (perFieldBytes : Nat) (target : EditTarget) (candidate : ProofCandidate) :
    Nat :=
  byteLength candidate.id + renderedBytes (renderStringBoundedWith perFieldBytes candidate.text) +
    declarationTargetInfoBytes target.declaration

def attemptBytes (cx : AttemptContext) (perFieldBytes : Nat) (target : EditTarget)
    (candidate : ProofCandidate) : Nat :=
  candidateBytes perFieldBytes target candidate + attemptPayload cx perFieldBytes target candidate

theorem attemptCost_eq (cx : AttemptContext) (perFieldBytes : Nat) (target : EditTarget) :
    attemptCost cx perFieldBytes target = attemptBytes cx perFieldBytes target := by
  funext candidate
  have attempted := attemptCandidate_attempted cx perFieldBytes target candidate
  unfold attemptCost attemptBytes
  rw [attemptRowBytes_eq, attemptCandidate_payload]
  unfold ProofAttemptRow.labelBytes candidateBytes
  rw [attempted.id, attempted.candidateText, attempted.declaration]

theorem metredRows_total (metered : List (Mark × ProofCandidate)) :
    ((metered.map (metredRow cx perFieldBytes target)).map attemptRowBytes).sum =
      ((marked .reported metered).map (attemptCost cx perFieldBytes target)).sum +
        ((marked .exceeded metered).map (attemptPayload cx perFieldBytes target)).sum +
        ((metered.map (metredRow cx perFieldBytes target)).map
          ProofAttemptRow.placeholderBytes).sum := by
  induction metered with
  | nil => rfl
  | cons entry rest ih =>
    obtain ⟨mark, candidate⟩ := entry
    have attempted := attemptCandidate_attempted cx perFieldBytes target candidate
    rw [List.map_cons, List.map_cons, List.map_cons, List.sum_cons, List.sum_cons, ih,
      marked_cons, marked_cons]
    cases mark with
    | reported =>
      have placeholder :
          (metredRow cx perFieldBytes target (.reported, candidate)).placeholderBytes = 0 :=
        if_pos ⟨attempted.notExceeded, attempted.wasAttempted⟩
      have cost : attemptRowBytes (metredRow cx perFieldBytes target (.reported, candidate)) =
          attemptCost cx perFieldBytes target candidate := rfl
      rw [if_pos rfl, if_neg (by decide), List.map_cons, List.sum_cons, placeholder, cost]
      omega
    | exceeded =>
      have placeholder :
          (metredRow cx perFieldBytes target (.exceeded, candidate)).placeholderBytes =
            (attemptCandidate cx perFieldBytes target candidate).labelBytes :=
        if_neg fun reported => reported.1 rfl
      have cost : attemptRowBytes (metredRow cx perFieldBytes target (.exceeded, candidate)) =
          attemptRowBytes (attemptCandidate cx perFieldBytes target candidate) := rfl
      rw [if_neg (by decide), if_pos rfl, List.map_cons, List.sum_cons, placeholder, cost,
        attemptRowBytes_eq, attemptCandidate_payload]
      omega
    | skipped =>
      have placeholder :
          (metredRow cx perFieldBytes target (.skipped, candidate)).placeholderBytes =
            (notAttemptedRow perFieldBytes target candidate).labelBytes :=
        if_neg fun reported => reported.2 rfl
      have cost : attemptRowBytes (metredRow cx perFieldBytes target (.skipped, candidate)) =
          (notAttemptedRow perFieldBytes target candidate).labelBytes := by
        have none : (notAttemptedRow perFieldBytes target candidate).payloadBytes = 0 := rfl
        have sum := attemptRowBytes_eq (notAttemptedRow perFieldBytes target candidate)
        rw [none, Nat.add_zero] at sum
        exact sum
      rw [if_neg (by decide), if_neg (by decide), placeholder, cost]
      omega

/-- The outcome of a candidate whose row goes over the budget fits in what the candidates before it
leave. -/
def EditTarget.RefusalFits (target : EditTarget) (cx : AttemptContext)
    (budgets : ModuleQueryOutputBudgets) (candidates : List ProofCandidate) : Prop :=
  ∀ before candidate after, candidates = before ++ candidate :: after →
    let spent := (before.map (attemptBytes cx budgets.perFieldBytes target)).sum
    spent < budgets.totalBytes →
      budgets.totalBytes < spent + attemptBytes cx budgets.perFieldBytes target candidate →
        spent + attemptPayload cx budgets.perFieldBytes target candidate ≤ budgets.totalBytes

theorem attemptRows_total_iff (cx : AttemptContext) (budgets : ModuleQueryOutputBudgets)
    (target : EditTarget) (candidates : List ProofCandidate) :
    ((attemptRows cx budgets target candidates 0).map attemptRowBytes).sum ≤
        budgets.totalBytes + ((attemptRows cx budgets target candidates 0).map
          ProofAttemptRow.placeholderBytes).sum ↔
      target.RefusalFits cx budgets candidates := by
  have metered := @reported_exceeded_le_iff _ (attemptCost cx budgets.perFieldBytes target)
    budgets.totalBytes 0 candidates (attemptPayload cx budgets.perFieldBytes target)
    (Nat.zero_le _)
  simp only [Nat.zero_add] at metered
  rw [attemptRows_eq, metredRows_total, Nat.add_le_add_iff_right, metered, attemptCost_eq]
  rfl

def unresolvedBytes (perFieldBytes : Nat) (message fileLabel : String)
    (candidate : ProofCandidate) : Nat :=
  byteLength candidate.id + renderedBytes (renderStringBoundedWith perFieldBytes candidate.text) +
    failureBytes (singleErrorFailure message fileLabel)

/-- An envelope within its budgets: a row for each of the first candidates, all of them together
within the total but for the labels of what is refused, each rendered field within its limit, and
whole rows while they fit. -/
structure ProofAttemptEnvelope.KeepsBudgets (cx : AttemptContext) (request : ProofAttemptRequest)
    (envelope : ProofAttemptEnvelope) : Prop where
  ids : envelope.candidates.map (·.id) =
    (request.candidates.take proofCandidateLimit).map (·.id)
  candidatesTruncated : envelope.candidatesTruncated = true ↔
    request.candidates.length > proofCandidateLimit
  total : (envelope.candidates.map attemptRowBytes).sum ≤
    request.budgets.totalBytes + (envelope.candidates.map ProofAttemptRow.placeholderBytes).sum
  rendered : envelope.Rendered request.budgets.perFieldBytes
  reported : ∀ target, cx.resolve = .ok target → ∀ before candidate after,
    request.candidates.take proofCandidateLimit = before ++ candidate :: after →
      (before.map (attemptCost cx request.budgets.perFieldBytes target)).sum +
          attemptCost cx request.budgets.perFieldBytes target candidate ≤
        request.budgets.totalBytes →
      envelope.candidates[before.length]? =
        some (attemptCandidate cx request.budgets.perFieldBytes target candidate)

/-- The edit is not resolved and the rows that say so fit; or it is resolved at a tactic that fits
in a field, and no outcome is larger than what is left. -/
def OutputFits (cx : AttemptContext) (request : ProofAttemptRequest) : Prop :=
  match cx.resolve with
  | .error message =>
    ((request.candidates.take proofCandidateLimit).map
      (unresolvedBytes request.budgets.perFieldBytes message cx.fileLabel)).sum ≤
        request.budgets.totalBytes
  | .ok target =>
    (request.candidates ≠ [] → target.TacticFits request.budgets.perFieldBytes) ∧
      target.RefusalFits cx request.budgets (request.candidates.take proofCandidateLimit)

theorem unresolvedRow_bytes (perFieldBytes : Nat) (message fileLabel : String)
    (candidate : ProofCandidate) :
    attemptRowBytes (unresolvedRow perFieldBytes message fileLabel candidate) =
      unresolvedBytes perFieldBytes message fileLabel candidate := by
  have none : failureBytes emptyFailure = 0 := rfl
  simp only [attemptRowBytes, unresolvedRow, unresolvedBytes, none, List.foldl_nil, Nat.add_zero]

theorem unresolvedRows_total (perFieldBytes : Nat) (message fileLabel : String)
    (candidates : List ProofCandidate) :
    ((candidates.map (unresolvedRow perFieldBytes message fileLabel)).map attemptRowBytes).sum =
      (candidates.map (unresolvedBytes perFieldBytes message fileLabel)).sum := by
  rw [List.map_map]
  exact congrArg List.sum (List.map_congr_left fun candidate _ => unresolvedRow_bytes _ _ _ _)

theorem unresolvedRows_placeholder (perFieldBytes : Nat) (message fileLabel : String)
    (candidates : List ProofCandidate) :
    ((candidates.map (unresolvedRow perFieldBytes message fileLabel)).map
      ProofAttemptRow.placeholderBytes).sum = 0 := by
  induction candidates with
  | nil => rfl
  | cons candidate rest ih =>
    have placeholder :
        (unresolvedRow perFieldBytes message fileLabel candidate).placeholderBytes = 0 :=
      if_pos ⟨by simp [unresolvedRow], by simp [unresolvedRow]⟩
    rw [List.map_cons, List.map_cons, List.sum_cons, ih, placeholder]

theorem unresolvedRow_rendered (perFieldBytes : Nat) (message fileLabel : String)
    (candidate : ProofCandidate) :
    (unresolvedRow perFieldBytes message fileLabel candidate).Rendered perFieldBytes where
  candidateText := renderStringBoundedWith_le _ _
  goals _ none := absurd none List.not_mem_nil
  tactic _ none := by cases none

theorem attemptEnvelope_candidatesTruncated (cx : AttemptContext) (request : ProofAttemptRequest) :
    (attemptEnvelope cx request).candidatesTruncated = true ↔
      request.candidates.length > proofCandidateLimit := by
  have flag : (attemptEnvelope cx request).candidatesTruncated =
      decide (request.candidates.length > proofCandidateLimit) := by
    unfold attemptEnvelope
    dsimp only [candidateCapRows]
    cases cx.resolve with
    | error message => rfl
    | ok target => rfl
  rw [flag, decide_eq_true_iff]

section Unresolved

variable {cx : AttemptContext} {request : ProofAttemptRequest} {message : String}

theorem attemptEnvelope_unresolved (unresolved : cx.resolve = .error message) :
    (attemptEnvelope cx request).candidates = (request.candidates.take proofCandidateLimit).map
        (unresolvedRow request.budgets.perFieldBytes message cx.fileLabel) ∧
      (attemptEnvelope cx request).entryGoals = [] ∧ (attemptEnvelope cx request).locals = [] := by
  unfold attemptEnvelope
  rw [← candidateCapRows_eq, unresolved]
  exact ⟨rfl, rfl, rfl⟩

theorem keepsBudgets_unresolved_iff (unresolved : cx.resolve = .error message) :
    (attemptEnvelope cx request).KeepsBudgets cx request ↔
      ((request.candidates.take proofCandidateLimit).map
        (unresolvedBytes request.budgets.perFieldBytes message cx.fileLabel)).sum ≤
          request.budgets.totalBytes := by
  obtain ⟨rows, entryGoals, locals⟩ := @attemptEnvelope_unresolved cx request message unresolved
  have total : ((attemptEnvelope cx request).candidates.map attemptRowBytes).sum ≤
      request.budgets.totalBytes + ((attemptEnvelope cx request).candidates.map
        ProofAttemptRow.placeholderBytes).sum ↔
      ((request.candidates.take proofCandidateLimit).map
        (unresolvedBytes request.budgets.perFieldBytes message cx.fileLabel)).sum ≤
          request.budgets.totalBytes := by
    rw [rows, unresolvedRows_total, unresolvedRows_placeholder, Nat.add_zero]
  rw [← total]
  refine ⟨fun keeps => keeps.total, fun fits => ⟨?_, ?_, fits, ⟨?_, ?_, ?_⟩, ?_⟩⟩
  · rw [rows, List.map_map]
    rfl
  · exact attemptEnvelope_candidatesTruncated cx request
  · intro row member
    rw [rows] at member
    obtain ⟨candidate, -, rfl⟩ := List.mem_map.mp member
    exact unresolvedRow_rendered _ _ _ candidate
  · rw [entryGoals]
    simp
  · rw [locals]
    simp
  · intro target resolved
    rw [unresolved] at resolved
    cases resolved

end Unresolved

section Resolved

variable {cx : AttemptContext} {request : ProofAttemptRequest} {target : EditTarget}

theorem attemptEnvelope_resolved (resolved : cx.resolve = .ok target) :
    (attemptEnvelope cx request).candidates = attemptRows cx request.budgets target
        (request.candidates.take proofCandidateLimit) 0 ∧
      (attemptEnvelope cx request).entryGoals =
        (entryRendering request.budgets.perFieldBytes target.entry).1 ∧
      (attemptEnvelope cx request).locals =
        (entryRendering request.budgets.perFieldBytes target.entry).2 := by
  unfold attemptEnvelope
  rw [← candidateCapRows_eq, resolved]
  exact ⟨rfl, rfl, rfl⟩

theorem attemptEnvelope_rendered_iff (resolved : cx.resolve = .ok target) :
    (attemptEnvelope cx request).Rendered request.budgets.perFieldBytes ↔
      (request.candidates ≠ [] → target.TacticFits request.budgets.perFieldBytes) := by
  obtain ⟨rows, entryGoals, locals⟩ := @attemptEnvelope_resolved cx request target resolved
  constructor
  · intro rendered some'
    obtain ⟨candidate, rest, same⟩ := List.exists_cons_of_ne_nil some'
    have ids := attemptRows_ids cx request.budgets target
      (request.candidates.take proofCandidateLimit) 0
    rw [same] at ids
    obtain ⟨row, member⟩ : ∃ row, row ∈ attemptRows cx request.budgets target
        (request.candidates.take proofCandidateLimit) 0 := by
      apply List.exists_mem_of_ne_nil
      intro none
      rw [← same, none, same] at ids
      cases ids
    exact (attemptRows_rendered member).mp (rendered.candidates row (rows ▸ member))
  · intro fits
    have entry := entryRendering_rendered request.budgets.perFieldBytes target.entry
    refine ⟨fun row member => ?_, ?_, ?_⟩
    · rw [rows] at member
      refine (attemptRows_rendered member).mpr (fits fun none => ?_)
      rw [none] at member
      cases member
    · rw [entryGoals]
      exact entry.1
    · rw [locals]
      exact entry.2

theorem keepsBudgets_resolved_iff (resolved : cx.resolve = .ok target) :
    (attemptEnvelope cx request).KeepsBudgets cx request ↔
      (request.candidates ≠ [] → target.TacticFits request.budgets.perFieldBytes) ∧
        target.RefusalFits cx request.budgets (request.candidates.take proofCandidateLimit) := by
  have rows := (@attemptEnvelope_resolved cx request target resolved).1
  have total := attemptRows_total_iff cx request.budgets target
    (request.candidates.take proofCandidateLimit)
  rw [← rows] at total
  rw [← attemptEnvelope_rendered_iff resolved, ← total]
  refine ⟨fun keeps => ⟨keeps.rendered, keeps.total⟩, fun ⟨rendered, total⟩ =>
    ⟨?_, attemptEnvelope_candidatesTruncated cx request, total, rendered, ?_⟩⟩
  · rw [rows]
    exact attemptRows_ids _ _ _ _ _
  · intro other resolved'
    obtain rfl := Except.ok.inj (resolved.symm.trans resolved')
    rw [rows]
    intro before candidate after split fits
    exact attemptRows_reported split fits

end Resolved

/-- An attempt keeps to its budgets exactly if the edit is not resolved and the rows that say so
fit, or it is resolved at a tactic that fits in a field and the outcome of no refused candidate is
larger than what is left. And in each attempt on a resolved edit what is reported is within the
total, one row at most goes over it, and the messages of a row are whole messages. -/
theorem attemptEnvelope_budget (cx : AttemptContext) (request : ProofAttemptRequest) :
    ((attemptEnvelope cx request).KeepsBudgets cx request ↔ OutputFits cx request) ∧
      ∀ target, cx.resolve = .ok target →
        AttemptRowsBudgeted cx request.budgets target
          (request.candidates.take proofCandidateLimit)
          (attemptEnvelope cx request).candidates := by
  constructor
  · unfold OutputFits
    cases outcome : cx.resolve with
    | error message => exact keepsBudgets_unresolved_iff outcome
    | ok target => exact keepsBudgets_resolved_iff outcome
  · intro target resolved
    rw [(attemptEnvelope_resolved resolved).1]
    exact attemptRows_budgeted cx request.budgets target _

def exactTactic : TacticSelection where
  header := ""
  body := "theorem goal : True := by exact trivial"
  bodyStart := 23
  tacticStart := 26
  tacticEnd := 39
  bodyEnd := 39
  placement := .before
  start_le := by decide
  tactic_le := by decide
  end_le := by decide
  inside := by decide

def exactTarget : EditTarget where
  selected := exactTactic.selected
  declaration :=
    ⟨"goal", "goal", "", "theorem", exactTactic.span, exactTactic.span, exactTactic.span⟩
  proofPosition := ⟨0, ⟨"exact trivial", false⟩⟩
  entry := none

def exactCandidate : ProofCandidate := ⟨"c0", "trivial"⟩

/-- An attempt on a theorem of one line, whose overlay elaborates with a goal left. -/
def exactAttempt (resolve : Except String EditTarget) : AttemptContext where
  document := exactTactic.document
  fileLabel := "T.lean"
  resolve
  build _ := .ok ⟨[], fun _ _ => .state ["⊢ False"] false⟩

theorem exactAttempt_payload (resolve : Except String EditTarget) :
    attemptPayload (exactAttempt resolve) 16 exactTarget exactCandidate = 9 := by
  obtain ⟨result, inserted, -⟩ := exactTactic.tacticInsertion?_returned
    (some exactTarget.declaration) (some exactTarget.proofPosition) "trivial"
  have there : (exactAttempt resolve).document.tacticInsertion? exactTarget.selected
      (some exactTarget.declaration) (some exactTarget.proofPosition) exactCandidate.text =
        some result := inserted
  unfold attemptPayload
  rw [there]
  rfl

/-- The row over the budget keeps its goal, the rows of an edit that is not resolved are not
metered, and the tactic of the edit is not cut. -/
theorem overBudget_row_keeps_goal :
    ¬(attemptEnvelope (exactAttempt (.ok exactTarget)) ⟨[exactCandidate], ⟨16, 1⟩⟩).KeepsBudgets
        (exactAttempt (.ok exactTarget)) ⟨[exactCandidate], ⟨16, 1⟩⟩ ∧
      ¬(attemptEnvelope (exactAttempt (.error "no such declaration"))
          ⟨[exactCandidate], ⟨16, 1⟩⟩).KeepsBudgets
        (exactAttempt (.error "no such declaration")) ⟨[exactCandidate], ⟨16, 1⟩⟩ ∧
      ¬(attemptEnvelope (exactAttempt (.ok exactTarget))
          ⟨[exactCandidate], ⟨1, 4096⟩⟩).KeepsBudgets
        (exactAttempt (.ok exactTarget)) ⟨[exactCandidate], ⟨1, 4096⟩⟩ := by
  refine ⟨fun keeps => ?_, fun keeps => ?_, fun keeps => ?_⟩
  · have fits := ((keepsBudgets_resolved_iff rfl).mp keeps).2 [] exactCandidate [] rfl
      (by decide)
    have payload := exactAttempt_payload (.ok exactTarget)
    dsimp only [List.map_nil, List.sum_nil, attemptBytes] at fits
    rw [payload] at fits
    omega
  · have fits := (keepsBudgets_unresolved_iff rfl).mp keeps
    exact absurd fits (by decide)
  · have fits := ((keepsBudgets_resolved_iff rfl).mp keeps).1 (by simp)
    exact absurd fits (by unfold EditTarget.TacticFits; decide)

end LeanRs
