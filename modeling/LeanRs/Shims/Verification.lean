import LeanRs.Shims.ModuleQuery

/-! Verdicts on the declarations of a source, one at a time or a batch under a budget, and what a
verdict says about the elaboration behind it. -/
namespace LeanRs

open Elaboration

namespace InfoTree

inductive DeclarationVerificationTarget where
  | name (name : String)
  | span (span : ModuleSourceSpan)
  deriving DecidableEq

structure DeclarationVerificationRequest where
  source : String
  target : DeclarationVerificationTarget
  sorryPolicy : Nat
  reportAxioms : Nat
  budgets : ModuleQueryOutputBudgets

structure DeclarationVerificationBatchItem where
  id : String
  target : DeclarationVerificationTarget

structure DeclarationVerificationBatchRequest where
  source : String
  targets : List DeclarationVerificationBatchItem
  sorryPolicy : Nat
  reportAxioms : Nat
  budgets : ModuleQueryOutputBudgets

inductive DeclarationVerificationStatus where
  | accepted
  | rejected
  | notFound
  | ambiguous
  | timeout
  | budgetExceeded
  | unsupported
  | needsBuild
  deriving DecidableEq

structure DeclarationVerificationFacts where
  target : Option DeclarationTargetInfo
  diagnostics : ElabFailure
  unresolvedGoals : List RenderedInfo
  containsSorry : Bool
  containsAdmit : Bool
  containsSorryAx : Bool
  axioms : List String
  axiomsTruncated : Bool
  outputTruncated : Bool
  candidates : List DeclarationTargetInfo
  axiomsAvailable : Bool
  deriving DecidableEq

structure DeclarationVerificationBatchRow where
  id : String
  target : DeclarationVerificationTarget
  status : DeclarationVerificationStatus
  facts : DeclarationVerificationFacts
  deriving DecidableEq

inductive DeclarationVerificationOutcome where
  | ok (status : DeclarationVerificationStatus) (facts : DeclarationVerificationFacts)
    (imports : List String)
  | missingImports (status : DeclarationVerificationStatus)
    (facts : DeclarationVerificationFacts) (imports missing : List String)
  | headerParseFailed (diagnostics : ElabFailure)

inductive DeclarationVerificationBatchOutcome where
  | ok (results : List DeclarationVerificationBatchRow) (imports : List String)
  | missingImports (results : List DeclarationVerificationBatchRow) (imports missing : List String)
  | headerParseFailed (diagnostics : ElabFailure)

/-- A goal of a tactic state, as it is printed; it is degraded where it refers to metavariables
that have no declaration. -/
structure Goal where
  degraded : Bool
  text : String

structure TacticCandidate where
  goalsBefore : List Goal
  goalsAfter : List Goal

def tacticCandidateDegraded (candidate : TacticCandidate) : Bool :=
  candidate.goalsBefore.any (·.degraded) || candidate.goalsAfter.any (·.degraded)

def goalUnavailable : String := "<goal unavailable: elaboration degraded under resource pressure>"

def renderGoal (goal : Goal) (byteLimit currentBytes : USize) : String × USize × Bool :=
  if currentBytes ≥ byteLimit then (truncationMarker, currentBytes, true)
  else if goal.degraded then (goalUnavailable, currentBytes, false)
  else
    let newBytes := currentBytes + (byteLength goal.text).toUSize
    if newBytes > byteLimit then (truncationMarker, currentBytes, true)
    else (goal.text, newBytes, false)

def renderGoals (byteLimit : USize) : List Goal → USize → List String × USize × Bool
  | [], bytes => ([], bytes, false)
  | goal :: rest, bytes =>
    let (s, newBytes, didTruncate) := renderGoal goal byteLimit bytes
    if didTruncate then ([s], newBytes, true)
    else
      let (out, lastBytes, truncated) := renderGoals byteLimit rest newBytes
      (s :: out, lastBytes, truncated)

/-- The walks over the info trees and over the constants of an environment; the second one gives
nothing where it has been stopped. -/
structure VerifyWalks (Env Tree : Type) where
  findTacticCandidate : SourceDocument → List Tree → (line column : Nat) → Option TacticCandidate
  collectAxioms : Env → (declName : String) → UInt64 → Option (List String)

def resolveVerificationTarget (doc : SourceDocument) (candidates : List DeclarationCandidate) :
    DeclarationVerificationTarget → DeclarationTargetResult
  | .name name => declarationTargetByName candidates name
  | .span span => declarationTargetByPosition doc candidates span.startLine span.startColumn

def similarDeclarationLimit : Nat := 5

def hasSubstring (text needle : String) : Bool := !needle.isEmpty && containsSubstr text needle

def endsWith (text suffix : String) : Bool := suffix.toList.isSuffixOf text.toList

def lastComponent (text : String) : String :=
  String.ofList (((text.toList.splitOn '.').getLast?).getD text.toList)

def similarDeclarationsByName (candidates : List DeclarationCandidate) (name : String) :
    List DeclarationTargetInfo :=
  let requested := name.toLower
  let needle := lastComponent requested
  if needle.isEmpty then []
  else
    let matched := dedupByDeclarationName <| candidates.filter fun candidate =>
      let short := candidate.info.shortName.toLower
      let full := candidate.info.declarationName.toLower
      short == needle || endsWith full ("." ++ requested) || endsWith requested ("." ++ short) ||
        hasSubstring short needle || hasSubstring needle short
    (matched.map (·.info)).take similarDeclarationLimit

def similarDeclarations (candidates : List DeclarationCandidate) :
    DeclarationVerificationTarget → List DeclarationTargetInfo
  | .name name => similarDeclarationsByName candidates name
  | .span _ => []

def diagnosticIndicatesResourceLimit (failure : ElabFailure) : Bool :=
  failure.diagnostics.any fun diagnostic =>
    let msg := diagnostic.message
    containsSubstr msg "deep recursion" || containsSubstr msg "maximum recursion depth" ||
      containsSubstr msg "(interrupted)" || containsSubstr msg "out of memory" ||
      containsSubstr msg "excessive memory"

/-- The loop of `collectAxiomNames`: a name that does not fit is left out. -/
def axiomNamesFrom (perFieldBytes : Nat) :
    List String → List String → Nat → Bool → List String × Bool
  | [], out, _, truncated => (out, truncated)
  | rendered :: rest, out, spent, truncated =>
    if spent + byteLength rendered > perFieldBytes then
      axiomNamesFrom perFieldBytes rest out spent true
    else
      axiomNamesFrom perFieldBytes rest (out ++ [rendered]) (spent + byteLength rendered) truncated

variable {Env Tree Chain : Type}

def collectAxiomNames (walks : VerifyWalks Env Tree) (env : Env) (declName : String)
    (heartbeats : UInt64) (perFieldBytes : Nat) : Option (List String × Bool) :=
  (walks.collectAxioms env declName heartbeats).map fun names =>
    axiomNamesFrom perFieldBytes names [] 0 false

def verificationFacts (walks : VerifyWalks Env Tree) (request : DeclarationVerificationRequest)
    (state : SnapshotState Env Tree Chain) (fileLabel : String)
    (target? : Option DeclarationTargetInfo) (candidate? : Option TacticCandidate)
    (candidates : List DeclarationTargetInfo) (heartbeats : UInt64) :
    DeclarationVerificationFacts × Bool :=
  let perField := request.budgets.perFieldBytes
  let failure := failureFromMessages state.messages perField.toUSize.toNat fileLabel
  let bodyText :=
    match target? with
    | some target => (state.document.extractFileSpan? target.bodySpan).getD ""
    | none => ""
  let degraded := candidate?.any tacticCandidateDegraded
  let unresolvedGoals :=
    if degraded then []
    else
      match candidate? with
      | none => []
      | some candidate =>
        let (goals, _, _) := renderGoals perField.toUSize candidate.goalsAfter 0
        renderedGoalInfos goals perField
  let (axioms, axiomsAvailable, axiomsTruncated) :=
    match target?, request.reportAxioms != 0, degraded with
    | some target, true, false =>
      match collectAxiomNames walks state.env target.declarationName heartbeats perField with
      | some (names, truncated) => (names, true, truncated)
      | none => ([], false, false)
    | _, _, _ => ([], false, false)
  ({ target := target?
     diagnostics := failure
     unresolvedGoals
     containsSorry := containsSubstr bodyText "sorry"
     containsAdmit := containsSubstr bodyText "admit"
     containsSorryAx := containsSubstr request.source "sorryAx"
     axioms
     axiomsTruncated
     candidates
     axiomsAvailable
     outputTruncated := truncationFlag failure }, degraded)

def verificationStatus (policy : Nat) (degraded : Bool) (facts : DeclarationVerificationFacts) :
    DeclarationVerificationStatus :=
  if diagnosticMentionsHeartbeat facts.diagnostics then .timeout
  else if degraded then .budgetExceeded
  else if diagnosticHasError facts.diagnostics then .rejected
  else if !facts.unresolvedGoals.isEmpty then .rejected
  else if policy == 0 then .accepted
  else if facts.containsSorry || facts.containsAdmit || facts.containsSorryAx then .rejected
  else .accepted

/-- The verdict on one target of an elaborated source. -/
def verifyTarget (walks : VerifyWalks Env Tree) (request : DeclarationVerificationRequest)
    (state : SnapshotState Env Tree Chain) (fileLabel : String) (heartbeats : UInt64) :
    DeclarationVerificationStatus × DeclarationVerificationFacts :=
  match resolveVerificationTarget state.document state.candidates request.target with
  | .target info =>
    let candidate? := walks.findTacticCandidate state.document state.trees
      info.bodySpan.startLine info.bodySpan.startColumn
    let (facts, degraded) := verificationFacts walks request state fileLabel (some info)
      candidate? [] heartbeats
    (verificationStatus request.sorryPolicy degraded facts, facts)
  | .notFound =>
    let similar := similarDeclarations state.candidates request.target
    let (facts, _) := verificationFacts walks request state fileLabel none none similar heartbeats
    let status :=
      if !state.missing.isEmpty then .needsBuild
      else if diagnosticMentionsHeartbeat facts.diagnostics then .timeout
      else if diagnosticIndicatesResourceLimit facts.diagnostics then .budgetExceeded
      else .notFound
    (status, facts)
  | .ambiguous candidates =>
    let (facts, _) := verificationFacts walks request state fileLabel none none candidates
      heartbeats
    (.ambiguous, facts)

def unavailableVerificationFacts : DeclarationVerificationFacts where
  target := none
  diagnostics := emptyFailure
  unresolvedGoals := []
  containsSorry := false
  containsAdmit := false
  containsSorryAx := false
  axioms := []
  axiomsTruncated := false
  outputTruncated := false
  candidates := []
  axiomsAvailable := false

def verificationTargetBytes : DeclarationVerificationTarget → Nat
  | .name name => byteLength name
  | .span span => spanBytes span

def verificationFactsBytes (facts : DeclarationVerificationFacts) : Nat :=
  optionBytes declarationTargetInfoBytes facts.target + failureBytes facts.diagnostics +
    sumBytes renderedBytes facts.unresolvedGoals + sumBytes byteLength facts.axioms +
    sumBytes declarationTargetInfoBytes facts.candidates

def verificationBatchRowBytes (row : DeclarationVerificationBatchRow) : Nat :=
  byteLength row.id + verificationTargetBytes row.target + verificationFactsBytes row.facts

/-- The single request that a row of a batch stands for. -/
def DeclarationVerificationBatchRequest.single (request : DeclarationVerificationBatchRequest)
    (target : DeclarationVerificationTarget) : DeclarationVerificationRequest where
  source := request.source
  target := target
  sorryPolicy := request.sorryPolicy
  reportAxioms := request.reportAxioms
  budgets := request.budgets

def verifyDeclarationRow (walks : VerifyWalks Env Tree)
    (request : DeclarationVerificationBatchRequest) (state : SnapshotState Env Tree Chain)
    (fileLabel : String) (heartbeats : UInt64) (item : DeclarationVerificationBatchItem) :
    DeclarationVerificationBatchRow :=
  let (status, facts) := verifyTarget walks (request.single item.target) state fileLabel heartbeats
  ⟨item.id, item.target, status, facts⟩

def verificationBudgetExceededRow (item : DeclarationVerificationBatchItem) :
    DeclarationVerificationBatchRow where
  id := item.id
  target := item.target
  status := .budgetExceeded
  facts := { unavailableVerificationFacts with outputTruncated := true }

def verifyRowsFrom (rowOf : DeclarationVerificationBatchItem → DeclarationVerificationBatchRow)
    (budgets : ModuleQueryOutputBudgets) :
    List DeclarationVerificationBatchItem → Nat → List DeclarationVerificationBatchRow
  | [], _ => []
  | item :: rest, spent =>
    if spent ≥ budgets.totalBytes then
      verificationBudgetExceededRow item :: verifyRowsFrom rowOf budgets rest spent
    else
      let row := rowOf item
      let bytes := verificationBatchRowBytes row
      if bytes > budgets.perFieldBytes || spent + bytes > budgets.totalBytes then
        verificationBudgetExceededRow item :: verifyRowsFrom rowOf budgets rest spent
      else row :: verifyRowsFrom rowOf budgets rest (spent + bytes)

def verifyDeclarationRows (walks : VerifyWalks Env Tree)
    (request : DeclarationVerificationBatchRequest) (state : SnapshotState Env Tree Chain)
    (fileLabel : String) (heartbeats : UInt64) : List DeclarationVerificationBatchRow :=
  verifyRowsFrom (verifyDeclarationRow walks request state fileLabel heartbeats) request.budgets
    request.targets 0

structure ShimCall (Env : Type) where
  env : Env
  namespaceContext : String
  fileLabel : String
  heartbeats : UInt64
  diagBytes : USize

def ShimCall.input (call : ShimCall Env) (source : String) : ModuleInput Env :=
  ⟨call.env, source, call.namespaceContext, call.fileLabel, call.heartbeats⟩

def oneShotPolicy (source fileLabel : String) : ModuleQueryCachePolicy :=
  ⟨fileLabel, source, 1, 0, 1⟩

/-- A build that does not enter the cache, and may continue the newest snapshot of its file. -/
def buildOneShot (fe : Frontend Env Tree Chain) (moment : Moment Env) (call : ShimCall Env)
    (source : String) (cache : Cache Env Tree Chain) :
    Except ElabFailure (Snapshot Env Tree Chain) :=
  buildModuleSnapshot fe moment (call.input source) call.diagBytes
    (oneShotPolicy source call.fileLabel) (newestSameFileSnapshot? call.fileLabel cache.entries)

def verifyDeclaration (fe : Frontend Env Tree Chain) (walks : VerifyWalks Env Tree)
    (moment : Moment Env) (call : ShimCall Env) (request : DeclarationVerificationRequest)
    (cache : Cache Env Tree Chain) : DeclarationVerificationOutcome :=
  match buildOneShot fe moment call request.source cache with
  | .error failure => .headerParseFailed failure
  | .ok snapshot =>
    let (status, facts) := verifyTarget walks request snapshot.state call.fileLabel
      call.heartbeats
    if snapshot.state.missing.isEmpty then .ok status facts snapshot.state.imports
    else .missingImports status facts snapshot.state.imports snapshot.state.missing

def verifyDeclarationBatch (fe : Frontend Env Tree Chain) (walks : VerifyWalks Env Tree)
    (moment : Moment Env) (call : ShimCall Env) (request : DeclarationVerificationBatchRequest)
    (cache : Cache Env Tree Chain) : DeclarationVerificationBatchOutcome :=
  match buildOneShot fe moment call request.source cache with
  | .error failure => .headerParseFailed failure
  | .ok snapshot =>
    let rows := verifyDeclarationRows walks request snapshot.state call.fileLabel call.heartbeats
    if snapshot.state.missing.isEmpty then .ok rows snapshot.state.imports
    else .missingImports rows snapshot.state.imports snapshot.state.missing

theorem serializeFrom_complete {byteLimit : Nat} {fallbackLabel : String}
    {msgs : List Elaboration.Message} {out : List Elaboration.Diagnostic} {bytes : Nat}
    (complete : (serializeFrom byteLimit fallbackLabel msgs out bytes).2 = .complete) :
    (serializeFrom byteLimit fallbackLabel msgs out bytes).1 =
      out ++ msgs.map (·.diagnostic fallbackLabel) := by
  induction msgs generalizing out bytes with
  | nil => simp [serializeFrom]
  | cons m rest ih =>
    unfold serializeFrom at complete ⊢
    split
    · rename_i full
      rw [if_pos full] at complete
      cases complete
    · rename_i going
      rw [if_neg going] at complete
      rw [ih complete]
      simp

theorem failure_complete {msgs : List Elaboration.Message} {diagBytes : Nat} {fileLabel : String}
    (whole : truncationFlag (failureFromMessages msgs diagBytes fileLabel) = false) :
    (failureFromMessages msgs diagBytes fileLabel).diagnostics =
      msgs.map (·.diagnostic fileLabel) := by
  have complete : (serializeMessages msgs diagBytes fileLabel).2 = .complete := by
    cases flag : (serializeMessages msgs diagBytes fileLabel).2 with
    | complete => rfl
    | truncated =>
      have cut : (failureFromMessages msgs diagBytes fileLabel).truncated = .truncated := flag
      rw [truncationFlag, cut] at whole
      cases whole
  have all := serializeFrom_complete complete
  rwa [List.nil_append] at all

def mentionsHeartbeat (text : String) : Bool :=
  containsSubstr text "heartbeat" || containsSubstr text "Heartbeats" ||
    containsSubstr text "maximum number of heartbeats"

section Whole

variable {msgs : List Elaboration.Message} {diagBytes : Nat} {fileLabel : String}

theorem hasError_whole
    (whole : truncationFlag (failureFromMessages msgs diagBytes fileLabel) = false) :
    diagnosticHasError (failureFromMessages msgs diagBytes fileLabel) = hasErrors msgs := by
  unfold diagnosticHasError hasErrors
  rw [failure_complete whole, List.any_map]
  rfl

theorem mentionsHeartbeat_whole
    (whole : truncationFlag (failureFromMessages msgs diagBytes fileLabel) = false) :
    diagnosticMentionsHeartbeat (failureFromMessages msgs diagBytes fileLabel) =
      msgs.any fun m => mentionsHeartbeat m.body := by
  unfold diagnosticMentionsHeartbeat
  rw [failure_complete whole, List.any_map]
  rfl

end Whole

theorem renderGoals_eq_nil (byteLimit : USize) (goals : List Goal) (bytes : USize) :
    (renderGoals byteLimit goals bytes).1 = [] ↔ goals = [] := by
  cases goals with
  | nil => simp [renderGoals]
  | cons goal rest =>
    unfold renderGoals
    dsimp only
    split <;> simp

theorem unresolved_eq_nil (perField : Nat) (goals : List Goal) :
    renderedGoalInfos (renderGoals perField.toUSize goals 0).1 perField = [] ↔ goals = [] := by
  unfold renderedGoalInfos
  rw [List.map_eq_nil_iff, renderGoals_eq_nil]

variable {walks : VerifyWalks Env Tree} {request : DeclarationVerificationRequest}
  {state : SnapshotState Env Tree Chain} {fileLabel : String} {heartbeats : UInt64}

def bodyText (state : SnapshotState Env Tree Chain) (info : DeclarationTargetInfo) : String :=
  (state.document.extractFileSpan? info.bodySpan).getD ""

/-- The body of the declaration and the source are free of the words that a policy denies. -/
def SorryFree (request : DeclarationVerificationRequest) (state : SnapshotState Env Tree Chain)
    (info : DeclarationTargetInfo) : Prop :=
  containsSubstr (bodyText state info) "sorry" = false ∧
    containsSubstr (bodyText state info) "admit" = false ∧
    containsSubstr request.source "sorryAx" = false

structure Verified (walks : VerifyWalks Env Tree) (request : DeclarationVerificationRequest)
    (state : SnapshotState Env Tree Chain) (info : DeclarationTargetInfo) : Prop where
  resolved : resolveVerificationTarget state.document state.candidates request.target =
    .target info
  noError : hasErrors state.messages = false
  inTime : ∀ m ∈ state.messages, mentionsHeartbeat m.body = false
  closed : ∀ candidate, walks.findTacticCandidate state.document state.trees
    info.bodySpan.startLine info.bodySpan.startColumn = some candidate →
      tacticCandidateDegraded candidate = false ∧ candidate.goalsAfter = []
  policy : request.sorryPolicy ≠ 0 → SorryFree request state info

theorem verificationFacts_diagnostics (target? : Option DeclarationTargetInfo)
    (candidate? : Option TacticCandidate) (candidates : List DeclarationTargetInfo) :
    (verificationFacts walks request state fileLabel target? candidate? candidates
        heartbeats).1.diagnostics =
      failureFromMessages state.messages request.budgets.perFieldBytes.toUSize.toNat fileLabel ∧
    (verificationFacts walks request state fileLabel target? candidate? candidates
        heartbeats).1.outputTruncated =
      truncationFlag (failureFromMessages state.messages
        request.budgets.perFieldBytes.toUSize.toNat fileLabel) := ⟨rfl, rfl⟩

theorem verifyTarget_truncated : (verifyTarget walks request state fileLabel
      heartbeats).2.outputTruncated =
    truncationFlag (failureFromMessages state.messages
      request.budgets.perFieldBytes.toUSize.toNat fileLabel) := by
  unfold verifyTarget
  cases resolveVerificationTarget state.document state.candidates request.target <;> rfl

theorem verifyTarget_diagnostics : (verifyTarget walks request state fileLabel
      heartbeats).2.diagnostics =
    failureFromMessages state.messages request.budgets.perFieldBytes.toUSize.toNat fileLabel := by
  unfold verifyTarget
  cases resolveVerificationTarget state.document state.candidates request.target <;> rfl

theorem verificationStatus_accepted {policy : Nat} {degraded : Bool}
    {facts : DeclarationVerificationFacts} :
    verificationStatus policy degraded facts = .accepted ↔
      diagnosticMentionsHeartbeat facts.diagnostics = false ∧ degraded = false ∧
        diagnosticHasError facts.diagnostics = false ∧ facts.unresolvedGoals = [] ∧
        (policy ≠ 0 → facts.containsSorry = false ∧ facts.containsAdmit = false ∧
          facts.containsSorryAx = false) := by
  unfold verificationStatus
  grind [List.isEmpty_iff]

theorem closed_iff (target? : Option DeclarationTargetInfo) (candidate? : Option TacticCandidate)
    (candidates : List DeclarationTargetInfo) :
    ((verificationFacts walks request state fileLabel target? candidate? candidates
        heartbeats).2 = false ∧
      (verificationFacts walks request state fileLabel target? candidate? candidates
        heartbeats).1.unresolvedGoals = []) ↔
    ∀ candidate, candidate? = some candidate →
      tacticCandidateDegraded candidate = false ∧ candidate.goalsAfter = [] := by
  cases candidate? with
  | none => exact ⟨fun _ candidate none => (by cases none), fun _ => ⟨rfl, rfl⟩⟩
  | some candidate =>
    unfold verificationFacts
    dsimp only [Option.any_some]
    cases degraded : tacticCandidateDegraded candidate with
    | true =>
      refine ⟨fun ⟨impossible, _⟩ => (by cases impossible), fun all => ?_⟩
      have intact := (all candidate rfl).1
      rw [degraded] at intact
      cases intact
    | false =>
      rw [if_neg Bool.false_ne_true, unresolved_eq_nil]
      constructor
      · rintro ⟨-, none⟩ other same
        cases same
        exact ⟨degraded, none⟩
      · intro all
        exact ⟨rfl, (all candidate rfl).2⟩

/-- With all messages in the answer, a declaration is accepted exactly when the elaboration has
left nothing against it: an axiom that it uses is not asked for. -/
theorem verifyTarget_accepted_iff
    (whole : (verifyTarget walks request state fileLabel heartbeats).2.outputTruncated = false) :
    (verifyTarget walks request state fileLabel heartbeats).1 = .accepted ↔
      ∃ info, Verified walks request state info := by
  rw [verifyTarget_truncated] at whole
  unfold verifyTarget
  cases resolved : resolveVerificationTarget state.document state.candidates request.target with
  | notFound =>
    refine ⟨fun accepted => ?_, fun ⟨info, verified⟩ => ?_⟩
    · dsimp only at accepted
      split at accepted
      · cases accepted
      · split at accepted
        · cases accepted
        · split at accepted <;> cases accepted
    · rw [verified.resolved] at resolved
      cases resolved
  | ambiguous candidates =>
    refine ⟨(fun accepted => by cases accepted), fun ⟨info, verified⟩ => ?_⟩
    rw [verified.resolved] at resolved
    cases resolved
  | target info =>
    dsimp only
    rw [verificationStatus_accepted, (verificationFacts_diagnostics _ _ _).1,
      mentionsHeartbeat_whole whole, hasError_whole whole, List.any_eq_false]
    have closed := @closed_iff _ _ _ walks request state fileLabel heartbeats (some info)
      (walks.findTacticCandidate state.document state.trees info.bodySpan.startLine
        info.bodySpan.startColumn) []
    constructor
    · rintro ⟨inTime, intact, noError, noGoals, policy⟩
      exact ⟨info, resolved, noError, fun m member => Bool.eq_false_iff.mpr (inTime m member),
        closed.mp ⟨intact, noGoals⟩, policy⟩
    · rintro ⟨other, verified⟩
      obtain rfl : info = other := by
        have same := verified.resolved
        rw [resolved] at same
        exact DeclarationTargetResult.target.inj same
      obtain ⟨intact, noGoals⟩ := closed.mpr verified.closed
      exact ⟨fun m member => Bool.eq_false_iff.mp (verified.inTime m member), intact,
        verified.noError, noGoals, verified.policy⟩

section Rows

open Metering

variable (rowOf : DeclarationVerificationBatchItem → DeclarationVerificationBatchRow)
  (budgets : ModuleQueryOutputBudgets)

def rowCost (item : DeclarationVerificationBatchItem) : Nat :=
  verificationBatchRowBytes (rowOf item)

def rowFits (item : DeclarationVerificationBatchItem) : Bool :=
  rowCost rowOf item ≤ budgets.perFieldBytes

def meteredTargets (spent : Nat) (items : List DeclarationVerificationBatchItem) :
    List (Mark × DeclarationVerificationBatchItem) :=
  greedy (rowCost rowOf) budgets.totalBytes (rowFits rowOf budgets) spent items

def markedRow : Mark × DeclarationVerificationBatchItem → DeclarationVerificationBatchRow
  | (.reported, item) => rowOf item
  | (.exceeded, item) | (.skipped, item) => verificationBudgetExceededRow item

/-- A row is the verdict on its target alone if it fits behind the rows answered before it, and a
refusal otherwise. -/
def rowAfter (spent : Nat) (item : DeclarationVerificationBatchItem) :
    DeclarationVerificationBatchRow :=
  if spent < budgets.totalBytes ∧ rowCost rowOf item ≤ budgets.perFieldBytes ∧
      spent + rowCost rowOf item ≤ budgets.totalBytes then rowOf item
  else verificationBudgetExceededRow item

/-- The row holds no verdict: its target did not fit. -/
def DeclarationVerificationBatchRow.Refused (row : DeclarationVerificationBatchRow) : Prop :=
  row = verificationBudgetExceededRow ⟨row.id, row.target⟩

instance (row : DeclarationVerificationBatchRow) : Decidable row.Refused :=
  inferInstanceAs (Decidable (row = verificationBudgetExceededRow ⟨row.id, row.target⟩))

def answeredBytes (rows : List DeclarationVerificationBatchRow) : Nat :=
  ((rows.filter fun row => !decide row.Refused).map verificationBatchRowBytes).sum

structure RowsBudgeted (items : List DeclarationVerificationBatchItem)
    (rows : List DeclarationVerificationBatchRow) : Prop where
  length : rows.length = items.length
  within : answeredBytes rows ≤ budgets.totalBytes
  decided : ∀ before item after, items = before ++ item :: after →
    rows[before.length]? =
      some (rowAfter rowOf budgets (answeredBytes (rows.take before.length)) item)

variable {rowOf budgets}

theorem answeredBytes_cons (row : DeclarationVerificationBatchRow)
    (rows : List DeclarationVerificationBatchRow) :
    answeredBytes (row :: rows) =
      (if row.Refused then 0 else verificationBatchRowBytes row) + answeredBytes rows := by
  unfold answeredBytes
  by_cases refused : row.Refused
  · simp [refused]
  · simp [refused]

theorem verifyDeclarationRow_not_refused (request : DeclarationVerificationBatchRequest)
    (item : DeclarationVerificationBatchItem) :
    ¬(verifyDeclarationRow walks request state fileLabel heartbeats item).Refused := by
  intro refused
  have cut : (verifyTarget walks (request.single item.target) state fileLabel
      heartbeats).2.outputTruncated = true :=
    congrArg (·.facts.outputTruncated) refused
  have whole : truncationFlag (verifyTarget walks (request.single item.target) state fileLabel
      heartbeats).2.diagnostics = false :=
    congrArg (truncationFlag ·.facts.diagnostics) refused
  rw [verifyTarget_diagnostics] at whole
  rw [verifyTarget_truncated, whole] at cut
  cases cut

theorem verifyRowsFrom_eq (items : List DeclarationVerificationBatchItem) (spent : Nat) :
    verifyRowsFrom rowOf budgets items spent =
      (meteredTargets rowOf budgets spent items).map (markedRow rowOf) := by
  unfold meteredTargets
  induction items generalizing spent with
  | nil => rfl
  | cons item rest ih =>
    have cost : verificationBatchRowBytes (rowOf item) = rowCost rowOf item := rfl
    unfold verifyRowsFrom greedy judge charge
    simp only [cost]
    by_cases full : spent ≥ budgets.totalBytes
    · simp [full, ih, markedRow]
    · by_cases small : rowCost rowOf item ≤ budgets.perFieldBytes
      · by_cases fits : spent + rowCost rowOf item ≤ budgets.totalBytes
        · simp [full, ih, markedRow, rowFits, small, fits, Nat.not_lt_of_le]
        · have beyond : spent + rowCost rowOf item > budgets.totalBytes := Nat.lt_of_not_le fits
          simp [full, ih, markedRow, rowFits, small, fits, beyond]
      · have large : rowCost rowOf item > budgets.perFieldBytes := Nat.lt_of_not_le small
        simp [full, ih, markedRow, rowFits, small, large]

theorem markedRow_judge (spent : Nat) (item : DeclarationVerificationBatchItem) :
    markedRow rowOf (judge (rowCost rowOf) budgets.totalBytes (rowFits rowOf budgets) spent item,
      item) = rowAfter rowOf budgets spent item := by
  have both : ((decide (rowCost rowOf item ≤ budgets.perFieldBytes) &&
      decide (spent + rowCost rowOf item ≤ budgets.totalBytes)) = true) ↔
      rowCost rowOf item ≤ budgets.perFieldBytes ∧
        spent + rowCost rowOf item ≤ budgets.totalBytes := by simp
  unfold judge rowAfter rowFits
  by_cases full : spent ≥ budgets.totalBytes
  · rw [if_pos full, if_neg fun room => Nat.not_le_of_lt room.1 full]
    rfl
  · rw [if_neg full]
    by_cases fits : rowCost rowOf item ≤ budgets.perFieldBytes ∧
        spent + rowCost rowOf item ≤ budgets.totalBytes
    · rw [if_pos (both.mpr fits), if_pos ⟨Nat.lt_of_not_ge full, fits⟩]
      rfl
    · rw [if_neg fun all => fits (both.mp all), if_neg fun all => fits all.2]
      rfl

theorem answeredBytes_markedRow (verdicts : ∀ item, ¬(rowOf item).Refused)
    (metered : List (Mark × DeclarationVerificationBatchItem)) :
    answeredBytes (metered.map (markedRow rowOf)) = reportedCost (rowCost rowOf) metered := by
  induction metered with
  | nil => rfl
  | cons entry rest ih =>
    obtain ⟨mark, item⟩ := entry
    rw [List.map_cons, answeredBytes_cons, ih, reportedCost_cons]
    cases mark with
    | reported =>
      rw [markedRow, if_neg (verdicts item)]
      rfl
    | exceeded =>
      have refused : (verificationBudgetExceededRow item).Refused := rfl
      rw [markedRow, if_pos refused]
      rfl
    | skipped =>
      have refused : (verificationBudgetExceededRow item).Refused := rfl
      rw [markedRow, if_pos refused]
      rfl

theorem verifyRowsFrom_budgeted (verdicts : ∀ item, ¬(rowOf item).Refused)
    (items : List DeclarationVerificationBatchItem) :
    RowsBudgeted rowOf budgets items (verifyRowsFrom rowOf budgets items 0) := by
  have width : ∀ targets, (meteredTargets rowOf budgets 0 targets).length = targets.length := by
    intro targets
    rw [← List.length_map Prod.snd, meteredTargets, greedy_entries]
  rw [verifyRowsFrom_eq]
  constructor
  · rw [List.length_map, width]
  · have fits := @greedy_reported_le _ (rowCost rowOf) budgets.totalBytes 0
      (rowFits rowOf budgets) (Nat.zero_le _) items
    rw [answeredBytes_markedRow verdicts]
    rwa [Nat.zero_add] at fits
  · rintro before item after rfl
    have first : (meteredTargets rowOf budgets 0 (before ++ item :: after)).take before.length =
        meteredTargets rowOf budgets 0 before := by
      conv_lhs => rw [meteredTargets, greedy_append, ← width before]
      exact List.take_left
    have marked := @greedy_mark _ (rowCost rowOf) budgets.totalBytes 0 (rowFits rowOf budgets)
      before after item
    rw [← List.map_take, first, answeredBytes_markedRow verdicts, List.getElem?_map]
    unfold meteredTargets
    rw [marked, Option.map_some, markedRow_judge, Nat.zero_add]

end Rows

end InfoTree

end LeanRs
