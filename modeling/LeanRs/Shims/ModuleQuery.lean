import LeanRs.Shims.ModuleSnapshot
import LeanRs.Shims.ProofAttempt

/-! Batches of selectors over one elaboration of a source: the entry point that elaborates for each
batch, and the one that keeps snapshots in a cache of its process. -/
namespace LeanRs

open Elaboration

namespace InfoTree

inductive ProofPositionSelector where
  | default
  | index (index : Nat)
  | afterText (text : String) (occurrence : Option Nat)
  | entry

inductive ModuleQuerySelector where
  | diagnostics (id : String)
  | proofState (id : String) (line column : Nat)
  | typeAt (id : String) (line column : Nat)
  | references (id name : String)
  | declarationTarget (id : String) (name? : Option String) (line? column? : Option Nat)
  | surroundingDeclaration (id : String) (line column : Nat)
  | proofStateInDeclaration (id declaration : String) (position : ProofPositionSelector)
    (localsRaw : Nat)
  | declarationOutline (id : String)

structure SerializableNameRef where
  span : ModuleSourceSpan
  name : String
  isBinder : Bool

structure TermRendering where
  expr : RenderedInfo
  typeStr : RenderedInfo
  expectedType : Option RenderedInfo

structure ReferencesResult where
  references : List SerializableNameRef
  truncated : Bool

inductive DeclarationTargetResult where
  | target (info : DeclarationTargetInfo)
  | notFound
  | ambiguous (candidates : List DeclarationTargetInfo)

structure DeclarationOutlineResult where
  declarations : List DeclarationTargetInfo
  truncated : Bool

structure ProofBoundaryCandidate where
  index : Nat
  kind : String
  source : ModuleSourceSpan
  excerpt : RenderedInfo

structure ProofStateInfo where
  declarationName : Option String
  namespaceName : String
  safeEdit : Option DeclarationTargetInfo
  span : ModuleSourceSpan
  goalsBefore : List String
  goalsAfter : List String
  locals : List LocalInfo
  expectedType : Option RenderedInfo
  truncated : Bool
  proofBoundaries : List ProofBoundaryCandidate
  proofBoundariesTruncated : Bool

inductive ProofStateResult where
  | state (info : ProofStateInfo)
  | unavailable (message : String) (proofBoundaries : List ProofBoundaryCandidate)
    (proofBoundariesTruncated : Bool)
  | ambiguous (candidates : List DeclarationTargetInfo)
  | needsBuild (missing : List String)

inductive SurroundingDeclarationResult where
  | declaration (info : DeclarationTargetInfo)
  | none

inductive ModuleQueryBatchResult where
  | diagnostics (failure : ElabFailure)
  | proofState (result : ProofStateResult)
  | typeAt (result : TypeAtResult TermRendering)
  | references (result : ReferencesResult)
  | declarationTarget (result : DeclarationTargetResult)
  | surroundingDeclaration (result : SurroundingDeclarationResult)
  | declarationOutline (result : DeclarationOutlineResult)

inductive ModuleQueryBatchItem where
  | ok (id : String) (result : ModuleQueryBatchResult)
  | unavailable (id message : String)
  | budgetExceeded (id message : String)

structure ModuleQueryBatchEnvelope where
  items : List ModuleQueryBatchItem
  totalTruncated : Bool

inductive ModuleQueryBatchOutcome where
  | ok (result : ModuleQueryBatchEnvelope) (imports : List String)
  | missingImports (result : ModuleQueryBatchEnvelope) (imports missing : List String)
  | headerParseFailed (diagnostics : ElabFailure)

def selectorId : ModuleQuerySelector → String
  | .diagnostics id => id
  | .proofState id _ _ => id
  | .typeAt id _ _ => id
  | .references id _ => id
  | .declarationTarget id _ _ _ => id
  | .surroundingDeclaration id _ _ => id
  | .proofStateInDeclaration id _ _ _ => id
  | .declarationOutline id => id

def ModuleQueryBatchItem.id : ModuleQueryBatchItem → String
  | .ok id _ => id
  | .unavailable id _ => id
  | .budgetExceeded id _ => id

def sumBytes {α : Type} (bytes : α → Nat) (xs : List α) : Nat :=
  xs.foldl (fun total x => total + bytes x) 0

def optionBytes {α : Type} (bytes : α → Nat) : Option α → Nat
  | some a => bytes a
  | none => 0

def localInfoBytes (info : LocalInfo) : Nat :=
  byteLength info.name + byteLength info.binderInfo + renderedBytes info.typeStr +
    optionBytes renderedBytes info.value

def proofBoundaryCandidateBytes (candidate : ProofBoundaryCandidate) : Nat :=
  8 + byteLength candidate.kind + spanBytes candidate.source + renderedBytes candidate.excerpt

def typeAtBytes : TypeAtResult TermRendering → Nat
  | .noTerm => 0
  | .term span rendering =>
    spanBytes span + renderedBytes rendering.expr + renderedBytes rendering.typeStr +
      optionBytes renderedBytes rendering.expectedType

def referencesBytes (result : ReferencesResult) : Nat :=
  result.references.foldl (fun bytes node => bytes + byteLength node.name + 32) 0

def proofStateBytes : ProofStateResult → Nat
  | .unavailable message proofBoundaries _ =>
    byteLength message + sumBytes proofBoundaryCandidateBytes proofBoundaries
  | .ambiguous candidates => sumBytes declarationTargetInfoBytes candidates
  | .needsBuild missing => sumBytes byteLength missing
  | .state info =>
    optionBytes byteLength info.declarationName + byteLength info.namespaceName +
      optionBytes declarationTargetInfoBytes info.safeEdit + spanBytes info.span +
      sumBytes byteLength info.goalsBefore + sumBytes byteLength info.goalsAfter +
      sumBytes localInfoBytes info.locals + optionBytes renderedBytes info.expectedType +
      sumBytes proofBoundaryCandidateBytes info.proofBoundaries

def declarationTargetBytes : DeclarationTargetResult → Nat
  | .target info => declarationTargetInfoBytes info
  | .notFound => 0
  | .ambiguous candidates => sumBytes declarationTargetInfoBytes candidates

def surroundingDeclarationBytes : SurroundingDeclarationResult → Nat
  | .none => 0
  | .declaration info => declarationTargetInfoBytes info

def declarationOutlineBytes (result : DeclarationOutlineResult) : Nat :=
  sumBytes declarationTargetInfoBytes result.declarations

def batchResultBytes : ModuleQueryBatchResult → Nat
  | .diagnostics failure => failureBytes failure
  | .proofState result => proofStateBytes result
  | .typeAt result => typeAtBytes result
  | .references result => referencesBytes result
  | .declarationTarget result => declarationTargetBytes result
  | .surroundingDeclaration result => surroundingDeclarationBytes result
  | .declarationOutline result => declarationOutlineBytes result

def batchItemBytes : ModuleQueryBatchItem → Nat
  | .ok id result => byteLength id + batchResultBytes result
  | .unavailable id message => byteLength id + byteLength message
  | .budgetExceeded id message => byteLength id + byteLength message

def batchEnvelopeBytes (envelope : ModuleQueryBatchEnvelope) : Nat :=
  sumBytes batchItemBytes envelope.items

/-- The loop of `dedupByDeclarationName`, after `seen`. -/
def dedupLoop (seen : List String) : List DeclarationCandidate → List DeclarationCandidate
  | [] => []
  | candidate :: rest =>
    if seen.contains candidate.info.declarationName then dedupLoop seen rest
    else candidate :: dedupLoop (seen ++ [candidate.info.declarationName]) rest

def dedupByDeclarationName (candidates : List DeclarationCandidate) : List DeclarationCandidate :=
  dedupLoop [] candidates

def declarationTargetByName (candidates : List DeclarationCandidate) (name : String) :
    DeclarationTargetResult :=
  let matched := dedupByDeclarationName <| candidates.filter fun candidate =>
    candidate.info.declarationName == name || candidate.info.shortName == name
  match matched with
  | [] => .notFound
  | [candidate] => .target candidate.info
  | many => .ambiguous (many.map (·.info))

def declarationTargetByPosition (doc : SourceDocument) (candidates : List DeclarationCandidate)
    (line column : Nat) : DeclarationTargetResult :=
  match declarationAt? doc candidates line column with
  | some candidate => .target candidate.info
  | none => .notFound

def selectorDeclarationTarget (doc : SourceDocument) (candidates : List DeclarationCandidate)
    (name? : Option String) (line? column? : Option Nat) : DeclarationTargetResult :=
  match name?, line?, column? with
  | some name, _, _ => declarationTargetByName candidates name
  | none, some line, some column => declarationTargetByPosition doc candidates line column
  | _, _, _ => .notFound

/-- The loop of `selectorDeclarationOutline`: nothing is listed behind what does not fit. -/
def outlineFrom (totalBytes : Nat) :
    List DeclarationCandidate → List DeclarationTargetInfo → Nat → DeclarationOutlineResult
  | [], declarations, _ => ⟨declarations, false⟩
  | candidate :: rest, declarations, spent =>
    let bytes := declarationTargetInfoBytes candidate.info
    if spent + bytes > totalBytes then ⟨declarations, true⟩
    else outlineFrom totalBytes rest (declarations ++ [candidate.info]) (spent + bytes)

def selectorDeclarationOutline (candidates : List DeclarationCandidate)
    (budgets : ModuleQueryOutputBudgets) : DeclarationOutlineResult :=
  outlineFrom budgets.totalBytes (dedupByDeclarationName candidates) [] 0

def offsetDiagnosticPos (doc : SourceDocument) (pos : DiagnosticPos) : DiagnosticPos :=
  { pos with
    line := pos.line + doc.lineOffset
    endLine := pos.endLine.map (· + doc.lineOffset) }

def offsetDiagnostic (doc : SourceDocument) (diagnostic : Elaboration.Diagnostic) :
    Elaboration.Diagnostic :=
  { diagnostic with position := diagnostic.position.map (offsetDiagnosticPos doc) }

def offsetFailure (doc : SourceDocument) (failure : ElabFailure) : ElabFailure :=
  if doc.lineOffset = 0 then failure
  else { failure with diagnostics := failure.diagnostics.map (offsetDiagnostic doc) }

inductive LocalsRendering where
  | skip
  | raw
  | pretty

/-- The selectors that walk the info trees; they run the pretty printer, and may fail. -/
structure TreeWalks (Tree : Type) where
  runProofState : SourceDocument → List Tree → List DeclarationCandidate → (line column : Nat) →
    ModuleQueryOutputBudgets → LocalsRendering → Except String ProofStateResult
  runProofStateInDeclaration : SourceDocument → List Tree → List DeclarationCandidate →
    (name : String) → ProofPositionSelector → ModuleQueryOutputBudgets → (missing : List String) →
    LocalsRendering → Except String ProofStateResult
  runTypeAtWith : SourceDocument → List Tree → (line column limit : Nat) →
    Except String (TypeAtResult TermRendering)
  runReferences : SourceDocument → List Tree → String → Except String ReferencesResult

structure Projected (Tree : Type) where
  doc : SourceDocument
  messages : List Elaboration.Message
  trees : List Tree
  candidates : List DeclarationCandidate
  fileLabel : String
  missing : List String

variable {Env Tree Chain : Type}

def batchResultFor (walks : TreeWalks Tree) (p : Projected Tree)
    (budgets : ModuleQueryOutputBudgets) :
    ModuleQuerySelector → Except String ModuleQueryBatchResult
  | .diagnostics _ =>
    let failure := failureFromMessages p.messages budgets.perFieldBytes.toUSize.toNat p.fileLabel
    .ok (.diagnostics (offsetFailure p.doc failure))
  | .proofState _ line column =>
    (walks.runProofState p.doc p.trees p.candidates line column budgets .pretty).map .proofState
  | .proofStateInDeclaration _ declaration position localsRaw =>
    let localsMode := if localsRaw != 0 then LocalsRendering.raw else LocalsRendering.pretty
    (walks.runProofStateInDeclaration p.doc p.trees p.candidates declaration position budgets
      p.missing localsMode).map .proofState
  | .typeAt _ line column =>
    (walks.runTypeAtWith p.doc p.trees line column budgets.perFieldBytes).map .typeAt
  | .references _ name => (walks.runReferences p.doc p.trees name).map .references
  | .declarationTarget _ name? line? column? =>
    .ok (.declarationTarget (selectorDeclarationTarget p.doc p.candidates name? line? column?))
  | .surroundingDeclaration _ line column =>
    let result :=
      match declarationAt? p.doc p.candidates line column with
      | some candidate => .declaration candidate.info
      | none => .none
    .ok (.surroundingDeclaration result)
  | .declarationOutline _ =>
    .ok (.declarationOutline (selectorDeclarationOutline p.candidates budgets))

def emptyBatchResultFor : ModuleQuerySelector → ModuleQueryBatchResult
  | .diagnostics _ => .diagnostics emptyFailure
  | .proofState _ _ _ =>
    .proofState (.unavailable "module processing did not reach the requested context" [] false)
  | .proofStateInDeclaration _ _ _ _ =>
    .proofState (.unavailable "module processing did not reach the requested declaration" [] false)
  | .typeAt _ _ _ => .typeAt .noTerm
  | .references _ _ => .references ⟨[], false⟩
  | .declarationTarget _ _ _ _ => .declarationTarget .notFound
  | .surroundingDeclaration _ _ _ => .surroundingDeclaration .none
  | .declarationOutline _ => .declarationOutline ⟨[], false⟩

def batchEnvelopeFromFailure (selectors : List ModuleQuerySelector) (failure : ElabFailure) :
    ModuleQueryBatchEnvelope where
  items := selectors.map fun selector =>
    match selector with
    | .diagnostics id => .ok id (.diagnostics failure)
    | _ => .ok (selectorId selector) (emptyBatchResultFor selector)
  totalTruncated := false

def emptyBatchEnvelope (selectors : List ModuleQuerySelector) : ModuleQueryBatchEnvelope where
  items := selectors.map fun selector => .ok (selectorId selector) (emptyBatchResultFor selector)
  totalTruncated := false

def exhaustedMessage : String := "module query batch total byte budget exhausted"

def oversizedMessage : String :=
  "module query selector would exceed the batch total byte budget"

def runSelectors (answer : ModuleQuerySelector → Except String ModuleQueryBatchResult)
    (totalLimit : Nat) : List ModuleQuerySelector → Nat → ModuleQueryBatchEnvelope →
      ModuleQueryBatchEnvelope
  | [], _, out => out
  | selector :: rest, spent, out =>
    let id := selectorId selector
    if spent ≥ totalLimit then
      runSelectors answer totalLimit rest spent
        ⟨out.items ++ [.budgetExceeded id exhaustedMessage], true⟩
    else
      match answer selector with
      | .ok result =>
        let bytes := batchResultBytes result
        if spent + bytes > totalLimit then
          runSelectors answer totalLimit rest spent
            ⟨out.items ++ [.budgetExceeded id oversizedMessage], true⟩
        else
          runSelectors answer totalLimit rest (spent + bytes)
            { out with items := out.items ++ [.ok id result] }
      | .error ex =>
        runSelectors answer totalLimit rest spent
          { out with items := out.items ++ [.unavailable id ex] }

def runBatchSelectorsWithCandidates (walks : TreeWalks Tree)
    (selectors : List ModuleQuerySelector) (p : Projected Tree)
    (budgets : ModuleQueryOutputBudgets) : ModuleQueryBatchEnvelope :=
  runSelectors (batchResultFor walks p budgets) budgets.totalBytes selectors 0 ⟨[], false⟩

section Batch

open Metering

variable (answer : ModuleQuerySelector → Except String ModuleQueryBatchResult)

def selectorCost (selector : ModuleQuerySelector) : Nat :=
  match answer selector with
  | .ok result => batchResultBytes result
  | .error _ => 0

def answeredItem (selector : ModuleQuerySelector) : ModuleQueryBatchItem :=
  match answer selector with
  | .ok result => .ok (selectorId selector) result
  | .error ex => .unavailable (selectorId selector) ex

def markedItem : Mark × ModuleQuerySelector → ModuleQueryBatchItem
  | (.reported, selector) => answeredItem answer selector
  | (.exceeded, selector) => .budgetExceeded (selectorId selector) oversizedMessage
  | (.skipped, selector) => .budgetExceeded (selectorId selector) exhaustedMessage

def meteredSelectors (totalLimit spent : Nat) (selectors : List ModuleQuerySelector) :
    List (Mark × ModuleQuerySelector) :=
  greedy (selectorCost answer) totalLimit (fun _ => true) spent selectors

def refused (entry : Mark × ModuleQuerySelector) : Bool := entry.1 != .reported

variable {answer}

theorem runSelectors_eq {totalLimit : Nat} (selectors : List ModuleQuerySelector) (spent : Nat)
    (out : ModuleQueryBatchEnvelope) :
    runSelectors answer totalLimit selectors spent out =
      ⟨out.items ++ (meteredSelectors answer totalLimit spent selectors).map (markedItem answer),
        out.totalTruncated ||
          (meteredSelectors answer totalLimit spent selectors).any refused⟩ := by
  unfold meteredSelectors
  induction selectors generalizing spent out with
  | nil => simp [runSelectors, greedy]
  | cons selector rest ih =>
    unfold runSelectors greedy judge charge
    by_cases full : spent ≥ totalLimit
    · simp [full, ih, markedItem, refused]
    · cases answered : answer selector with
      | error ex =>
        have within : spent ≤ totalLimit := by omega
        simp [full, ih, markedItem, refused, answered, answeredItem, selectorCost, within]
      | ok result =>
        by_cases fits : spent + batchResultBytes result ≤ totalLimit
        · have below : ¬spent + batchResultBytes result > totalLimit := by omega
          simp [full, ih, markedItem, refused, answered, answeredItem, selectorCost, fits, below]
        · have above : spent + batchResultBytes result > totalLimit := by omega
          simp [full, ih, markedItem, refused, answered, selectorCost, fits, above]

def ModuleQueryBatchItem.payloadBytes : ModuleQueryBatchItem → Nat
  | .ok _ result => batchResultBytes result
  | .unavailable _ _ | .budgetExceeded _ _ => 0

def ModuleQueryBatchItem.exceeds : ModuleQueryBatchItem → Bool
  | .budgetExceeded _ _ => true
  | .ok _ _ | .unavailable _ _ => false

def payloadBytes (items : List ModuleQueryBatchItem) : Nat :=
  (items.map (·.payloadBytes)).sum

/-- What a selector gets once others have spent so much. -/
def itemAfter (answer : ModuleQuerySelector → Except String ModuleQueryBatchResult)
    (totalLimit spent : Nat) (selector : ModuleQuerySelector) : ModuleQueryBatchItem :=
  if spent ≥ totalLimit then .budgetExceeded (selectorId selector) exhaustedMessage
  else
    match answer selector with
    | .error ex => .unavailable (selectorId selector) ex
    | .ok result =>
      if spent + batchResultBytes result ≤ totalLimit then .ok (selectorId selector) result
      else .budgetExceeded (selectorId selector) oversizedMessage

/-- One item for each selector, in order; each is decided by the selector's own answer and the
bytes answered before it, and all answers fit in the budget together. -/
structure BatchBudgeted (answer : ModuleQuerySelector → Except String ModuleQueryBatchResult)
    (totalLimit : Nat) (selectors : List ModuleQuerySelector)
    (envelope : ModuleQueryBatchEnvelope) : Prop where
  ids : envelope.items.map (·.id) = selectors.map selectorId
  within : payloadBytes envelope.items ≤ totalLimit
  decided : ∀ before selector after, selectors = before ++ selector :: after →
    envelope.items[before.length]? = some (itemAfter answer totalLimit
      (payloadBytes (envelope.items.take before.length)) selector)
  truncated : envelope.totalTruncated = envelope.items.any (·.exceeds)

variable {totalLimit : Nat}

theorem markedItem_id (entry : Mark × ModuleQuerySelector) :
    (markedItem answer entry).id = selectorId entry.2 := by
  obtain ⟨mark, selector⟩ := entry
  cases mark with
  | reported =>
    cases answered : answer selector <;> simp [markedItem, answeredItem, answered,
      ModuleQueryBatchItem.id]
  | exceeded => rfl
  | skipped => rfl

theorem markedItem_payload (mark : Mark) (selector : ModuleQuerySelector) :
    (markedItem answer (mark, selector)).payloadBytes =
      charge (selectorCost answer) mark selector := by
  cases mark with
  | reported =>
    cases answered : answer selector <;> simp [markedItem, answeredItem, answered, charge,
      selectorCost, ModuleQueryBatchItem.payloadBytes]
  | exceeded => rfl
  | skipped => rfl

theorem payloadBytes_marked (metered : List (Mark × ModuleQuerySelector)) :
    payloadBytes (metered.map (markedItem answer)) =
      reportedCost (selectorCost answer) metered := by
  induction metered with
  | nil => rfl
  | cons entry rest ih =>
    obtain ⟨mark, selector⟩ := entry
    rw [reportedCost_cons, ← ih, ← markedItem_payload]
    simp [payloadBytes]

theorem markedItem_exceeds (entry : Mark × ModuleQuerySelector) :
    (markedItem answer entry).exceeds = refused entry := by
  obtain ⟨mark, selector⟩ := entry
  cases mark with
  | reported =>
    cases answered : answer selector <;> simp [markedItem, answeredItem, answered, refused,
      ModuleQueryBatchItem.exceeds]
  | exceeded => rfl
  | skipped => rfl

theorem markedItem_judge (spent : Nat) (selector : ModuleQuerySelector) :
    markedItem answer (judge (selectorCost answer) totalLimit (fun _ => true) spent selector,
      selector) = itemAfter answer totalLimit spent selector := by
  unfold judge itemAfter
  by_cases full : spent ≥ totalLimit
  · rw [if_pos full, if_pos full]
    rfl
  · rw [if_neg full, if_neg full]
    cases answered : answer selector with
    | error ex =>
      have within : spent ≤ totalLimit := by omega
      simp [selectorCost, answered, within, markedItem, answeredItem]
    | ok result =>
      by_cases fits : spent + batchResultBytes result ≤ totalLimit
      · simp [selectorCost, answered, fits, markedItem, answeredItem]
      · simp [selectorCost, answered, fits, markedItem]

theorem runSelectors_budgeted (selectors : List ModuleQuerySelector) :
    BatchBudgeted answer totalLimit selectors
      (runSelectors answer totalLimit selectors 0 ⟨[], false⟩) := by
  rw [runSelectors_eq, List.nil_append, Bool.false_or]
  unfold meteredSelectors
  refine ⟨?_, ?_, ?_, ?_⟩
  · rw [List.map_map]
    have same : (fun item : ModuleQueryBatchItem => item.id) ∘ markedItem answer =
        selectorId ∘ Prod.snd := funext markedItem_id
    rw [same, ← List.map_map, greedy_entries]
  · rw [payloadBytes_marked]
    have fits := @greedy_reported_le _ (selectorCost answer) totalLimit 0 (fun _ => true)
      (Nat.zero_le _) selectors
    rwa [Nat.zero_add] at fits
  · rintro before selector after rfl
    have width : (greedy (selectorCost answer) totalLimit (fun _ => true) 0 before).length =
        before.length := by
      rw [← List.length_map Prod.snd, greedy_entries]
    have earlier : ((greedy (selectorCost answer) totalLimit (fun _ => true) 0
        (before ++ selector :: after)).map (markedItem answer)).take before.length =
        (greedy (selectorCost answer) totalLimit (fun _ => true) 0 before).map
          (markedItem answer) := by
      rw [← List.map_take, greedy_append, ← width, List.take_left]
    rw [earlier, payloadBytes_marked, List.getElem?_map, greedy_mark, Option.map_some,
      markedItem_judge, Nat.zero_add]
  · have same : (fun item : ModuleQueryBatchItem => item.exceeds) ∘ markedItem answer = refused :=
      funext markedItem_exceeds
    rw [List.any_map, same]

end Batch

/-- What a batch is answered with, whatever the elaboration has left. -/
theorem runBatchSelectors_budgeted (walks : TreeWalks Tree) (selectors : List ModuleQuerySelector)
    (p : Projected Tree) (budgets : ModuleQueryOutputBudgets) :
    BatchBudgeted (batchResultFor walks p budgets) budgets.totalBytes selectors
      (runBatchSelectorsWithCandidates walks selectors p budgets) :=
  runSelectors_budgeted selectors

structure BatchRequest (Env : Type) where
  input : ModuleInput Env
  selectors : List ModuleQuerySelector
  budgets : ModuleQueryOutputBudgets
  diagBytes : USize

def wrapOutcome (imports missing : List String) (result : ModuleQueryBatchEnvelope) :
    ModuleQueryBatchOutcome :=
  if missing.isEmpty then .ok result imports else .missingImports result imports missing

def processModuleQueryBatch (fe : Frontend Env Tree Chain) (walks : TreeWalks Tree)
    (request : BatchRequest Env) : ModuleQueryBatchOutcome :=
  let input := request.input
  let budgets := request.budgets
  let header := fe.parseHeader input.source input.fileLabel
  if hasErrors header.messages then
    .headerParseFailed
      (failureFromMessages header.messages budgets.perFieldBytes.toUSize.toNat input.fileLabel)
  else
    let missing := fe.missing input header
    if !missing.isEmpty then
      wrapOutcome header.imports missing (emptyBatchEnvelope request.selectors)
    else
      match fe.commandEnv input header with
      | .error ex =>
        wrapOutcome header.imports missing
          (batchEnvelopeFromFailure request.selectors (singleErrorFailure ex input.fileLabel))
      | .ok (commandEnv, initialMessages) =>
        if hasErrors initialMessages && missing.isEmpty then
          let failure := failureFromMessages initialMessages budgets.perFieldBytes.toUSize.toNat
            input.fileLabel
          wrapOutcome header.imports missing (batchEnvelopeFromFailure request.selectors failure)
        else
          let commandState := input.commandState commandEnv initialMessages
          let (st, _) := fe.processCommandsIncrementally (input.bodySource header) input.fileLabel
            commandState none
          let document := input.document header
          match fe.declarationCandidates document st.trees with
          | .error ex =>
            wrapOutcome header.imports missing
              (batchEnvelopeFromFailure request.selectors (singleErrorFailure ex input.fileLabel))
          | .ok candidates =>
            wrapOutcome header.imports missing
              (runBatchSelectorsWithCandidates walks request.selectors
                ⟨document, st.messages, st.trees, candidates, input.fileLabel, missing⟩ budgets)

/-- Times are left out. -/
structure ModuleQueryCacheFacts where
  cacheStatus : ModuleQueryCacheStatus
  outputBytes : UInt64
  cacheEntryCount : Option Nat
  cacheApproxBytes : Option Nat

inductive ModuleQueryBatchCachedOutcome where
  | ok (result : ModuleQueryBatchEnvelope) (imports : List String) (facts : ModuleQueryCacheFacts)
  | missingImports (result : ModuleQueryBatchEnvelope) (imports missing : List String)
    (facts : ModuleQueryCacheFacts)
  | headerParseFailed (diagnostics : ElabFailure) (facts : ModuleQueryCacheFacts)

abbrev Cache (Env Tree Chain : Type) :=
  ModuleSnapshotCacheState (SnapshotState Env Tree Chain)

def cacheFacts (status : ModuleQueryCacheStatus) (outputBytes : Nat)
    (cache : Cache Env Tree Chain) : ModuleQueryCacheFacts :=
  ⟨status, outputBytes.toUInt64, some cache.entries.length, some cache.approxBytes⟩

def wrapCachedOutcome (state : SnapshotState Env Tree Chain)
    (envelope : ModuleQueryBatchEnvelope) (facts : ModuleQueryCacheFacts) :
    ModuleQueryBatchCachedOutcome :=
  if state.missing.isEmpty then .ok envelope state.imports facts
  else .missingImports envelope state.imports state.missing facts

def headerFailureCachedOutcome (failure : ElabFailure) (status : ModuleQueryCacheStatus)
    (cache : Cache Env Tree Chain) : ModuleQueryBatchCachedOutcome :=
  .headerParseFailed failure (cacheFacts status (failureBytes failure) cache)

def SnapshotState.projected (state : SnapshotState Env Tree Chain) (fileLabel : String) :
    Projected Tree :=
  ⟨state.document, state.messages, state.trees, state.candidates, fileLabel, state.missing⟩

def projectCachedSnapshot (walks : TreeWalks Tree) (state : SnapshotState Env Tree Chain)
    (request : BatchRequest Env) (status : ModuleQueryCacheStatus)
    (cache : Cache Env Tree Chain) : ModuleQueryBatchCachedOutcome :=
  let envelope := runBatchSelectorsWithCandidates walks request.selectors
    (state.projected request.input.fileLabel) request.budgets
  wrapCachedOutcome state envelope (cacheFacts status (batchEnvelopeBytes envelope) cache)

/-- The whole of `processModuleQueryBatchCached`: what it leaves in the cache, and its answer. -/
def queryCached (fe : Frontend Env Tree Chain) (walks : TreeWalks Tree) (moment : Moment Env)
    (request : BatchRequest Env) (policyRaw : String) (cache0 : Cache Env Tree Chain) :
    ModuleQueryBatchCachedOutcome × Cache Env Tree Chain :=
  let (cache, status, result) := processModuleQueryBatchCached
    (buildModuleSnapshot fe moment request.input request.diagBytes) policyRaw moment.nowMs
    moment.laterMs cache0
  match result with
  | .error failure => (headerFailureCachedOutcome failure status cache, cache)
  | .ok snapshot => (projectCachedSnapshot walks snapshot.state request status cache, cache)

end InfoTree

end LeanRs
