import LeanRs.Shims.ShimRuns

/-! What the verdicts of a process say, after any run of it: an accepted declaration has an
elaboration behind it that nothing speaks against, and a batch says what single requests say. -/
namespace LeanRs

open Elaboration

namespace InfoTree

variable {Env Tree Chain : Type}

def DeclarationVerificationOutcome.verdict? : DeclarationVerificationOutcome →
    Option (DeclarationVerificationStatus × DeclarationVerificationFacts)
  | .ok status facts _ | .missingImports status facts _ _ => some (status, facts)
  | .headerParseFailed _ => none

def DeclarationVerificationBatchOutcome.rows? : DeclarationVerificationBatchOutcome →
    Option (List DeclarationVerificationBatchRow)
  | .ok results _ | .missingImports results _ _ => some results
  | .headerParseFailed _ => none

def Left (shim : Shim Env Tree Chain) (cache : Cache Env Tree Chain) : Prop :=
  ∃ actions, (∀ action ∈ actions, action.Points) ∧ (serveAll shim emptyCache actions).2 = cache

variable {shim : Shim Env Tree Chain} {moment : Moment Env} {call : ShimCall Env}
  {cache : Cache Env Tree Chain}

theorem Left.linked (left : Left shim cache) : LinkedCache shim.fe cache := by
  obtain ⟨actions, points, rfl⟩ := left
  exact serveAll_linked points emptyCache_linked

theorem verdictFrom_verdict? (verify : VerifyWalks Env Tree)
    (request : DeclarationVerificationRequest) (state : SnapshotState Env Tree Chain) :
    (verdictFrom verify call request (.ok state)).verdict? =
      some (verifyTarget verify request state call.fileLabel call.heartbeats) := by
  unfold verdictFrom
  dsimp only
  split <;> rfl

/-- After any run, a declaration whose answer holds all messages is accepted exactly when its
source, elaborated from nothing, leaves nothing against it. -/
theorem accepted_after_every_run (shim : Shim Env Tree Chain) (exact : shim.fe.ReusesExactly)
    {cache : Cache Env Tree Chain} (left : Left shim cache) {moment : Moment Env}
    (points : moment.Points) (call : ShimCall Env) (request : DeclarationVerificationRequest)
    {status : DeclarationVerificationStatus} {facts : DeclarationVerificationFacts}
    (answered : (verifyDeclaration shim.fe shim.verify moment call request cache).verdict? =
      some (status, facts))
    (whole : facts.outputTruncated = false) :
    status = .accepted ↔ ∃ state info,
      freshState shim.fe (call.input request.source) call.diagBytes = .ok state ∧
        Verified shim.verify request state info := by
  rw [verifyDeclaration_fresh exact points left.linked] at answered
  cases fresh : freshState shim.fe (call.input request.source) call.diagBytes with
  | error failure =>
    rw [fresh] at answered
    cases answered
  | ok state =>
    rw [fresh, verdictFrom_verdict?] at answered
    have same := Option.some.inj answered
    have verdict := @verifyTarget_accepted_iff _ _ _ shim.verify request state call.fileLabel
      call.heartbeats (by rw [same]; exact whole)
    rw [same] at verdict
    rw [verdict]
    constructor
    · rintro ⟨info, verified⟩
      exact ⟨state, info, rfl, verified⟩
    · rintro ⟨other, info, equal, verified⟩
      cases equal
      exact ⟨info, verified⟩

def quietSpan : BodySpan := ⟨⟨1, 1, 1, 20⟩, by decide, by decide, by decide⟩

/-- A frontend that reports nothing, for a source with one theorem; the theorem rests on another
that is not proved. -/
def quietShim : Shim Unit Unit Nat :=
  { echoShim with
    fe :=
      { echoFrontend with
        processCommandsIncrementally := fun _ _ st old? =>
          (⟨[], [()], st.env, 1⟩, old?.getD 0 + 1)
        declarationCandidates := fun _ _ =>
          .ok [⟨⟨"f", "f", "", "theorem", quietSpan.toModuleSourceSpan,
            quietSpan.toModuleSourceSpan, quietSpan.toModuleSourceSpan⟩,
            quietSpan.toModuleSourceSpan, quietSpan⟩] }
    verify := ⟨fun _ _ _ _ => none, fun _ _ _ => some ["sorryAx"]⟩ }

theorem quietShim_exact : quietShim.fe.ReusesExactly := fun _ _ _ _ _ _ _ _ => rfl

def quietRequest : DeclarationVerificationRequest :=
  ⟨"theorem f : P := by g", .name "f", 1, 1, ⟨4096, 65536⟩⟩

/-- A query for another text of the file, filed under a key of its own. -/
def quietRun : List (ShimAction Unit) := [.query (momentAt 0) echoQuery echoPolicy]

/-- The run, another text under the key that is taken, and a declaration that is not there. -/
def longerRun : List (ShimAction Unit) :=
  quietRun ++ [.query (momentAt 10) ⟨{ echoQuery.input with source := "another" },
      echoQuery.selectors, echoQuery.budgets, echoQuery.diagBytes⟩ echoPolicy,
    .verify (momentAt 20) echoCall { quietRequest with target := .name "g" }]

def leftBy (run : List (ShimAction Unit)) : Cache Unit Unit Nat :=
  (serveAll quietShim emptyCache run).2

theorem quietRun_left : Left quietShim (leftBy quietRun) := by
  refine ⟨quietRun, ?_, rfl⟩
  intro action member
  rw [List.mem_singleton.mp member]
  exact momentAt_points 0

theorem longerRun_left : Left quietShim (leftBy longerRun) := by
  refine ⟨longerRun, ?_, rfl⟩
  intro action member
  simp only [longerRun, quietRun, List.singleton_append, List.mem_cons, List.not_mem_nil,
    or_false] at member
  obtain rfl | rfl | rfl := member
  all_goals exact momentAt_points _

/-- The builds that the elaboration behind a verdict has continued, its own one included. -/
def buildsBehind (cache : Cache Unit Unit Nat) : Option Nat :=
  match buildOneShot quietShim.fe (momentAt 30) echoCall quietRequest.source cache with
  | .ok snapshot => snapshot.state.incremental?
  | .error _ => none

example : buildsBehind emptyCache = some 1 ∧ buildsBehind (leftBy quietRun) = some 2 ∧
    buildsBehind (leftBy longerRun) = some 2 := by decide +kernel

theorem quiet_declaration_verified : ∃ state info,
    freshState quietShim.fe (echoCall.input quietRequest.source) echoCall.diagBytes = .ok state ∧
      Verified quietShim.verify quietRequest state info := by
  have accepted : ((verifyDeclaration quietShim.fe quietShim.verify (momentAt 30) echoCall
      quietRequest (leftBy quietRun)).verdict?.map fun v => (v.1, v.2.outputTruncated)) =
        some (.accepted, false) := by decide +kernel
  obtain ⟨⟨status, facts⟩, answered, same⟩ := Option.map_eq_some_iff.mp accepted
  obtain ⟨rfl, whole⟩ := Prod.mk.inj same
  exact (accepted_after_every_run quietShim quietShim_exact quietRun_left (momentAt_points 30)
    echoCall quietRequest answered whole).mp rfl

def singleRow (shim : Shim Env Tree Chain) (moment : Moment Env) (call : ShimCall Env)
    (request : DeclarationVerificationBatchRequest) (cache : Cache Env Tree Chain)
    (item : DeclarationVerificationBatchItem) : Option DeclarationVerificationBatchRow :=
  (verifyDeclaration shim.fe shim.verify moment call (request.single item.target)
    cache).verdict?.map fun verdict => ⟨item.id, item.target, verdict.1, verdict.2⟩

/-- A batch after one run and single requests after another say the same: where the batch has rows
so has every single request, and each row of the batch is the single one's or, where the budget
does not reach, a refusal. -/
theorem batch_rows_are_single_verdicts (shim : Shim Env Tree Chain)
    (exact : shim.fe.ReusesExactly) {cache other : Cache Env Tree Chain} (left : Left shim cache)
    (elsewhere : Left shim other) {moment next : Moment Env} (points : moment.Points)
    (later : next.Points) (call : ShimCall Env) (request : DeclarationVerificationBatchRequest)
    {rows : List DeclarationVerificationBatchRow}
    (answered : (verifyDeclarationBatch shim.fe shim.verify moment call request cache).rows? =
      some rows) :
    ∃ rowOf, (∀ item, singleRow shim next call request other item = some (rowOf item)) ∧
      RowsBudgeted rowOf request.budgets request.targets rows := by
  rw [verifyDeclarationBatch_fresh exact points left.linked] at answered
  cases fresh : freshState shim.fe (call.input request.source) call.diagBytes with
  | error failure =>
    rw [fresh] at answered
    cases answered
  | ok state =>
    refine ⟨verifyDeclarationRow shim.verify request state call.fileLabel call.heartbeats, ?_, ?_⟩
    · intro item
      unfold singleRow
      rw [verifyDeclaration_fresh exact later elsewhere.linked]
      have source : (request.single item.target).source = request.source := rfl
      rw [source, fresh, verdictFrom_verdict?]
      rfl
    · rw [fresh] at answered
      have same : verifyDeclarationRows shim.verify request state call.fileLabel
          call.heartbeats = rows := by
        unfold verdictsFrom at answered
        dsimp only at answered
        split at answered
        · exact Option.some.inj answered
        · exact Option.some.inj answered
      rw [← same]
      exact verifyRowsFrom_budgeted (verifyDeclarationRow_not_refused request) request.targets

def quietBatch : DeclarationVerificationBatchRequest :=
  ⟨quietRequest.source, [⟨"a", .name "f"⟩, ⟨"b", .name "g"⟩], 1, 1, ⟨4096, 65536⟩⟩

theorem quiet_batch_rows : ∃ rows rowOf, (verifyDeclarationBatch quietShim.fe quietShim.verify
      (momentAt 30) echoCall quietBatch (leftBy quietRun)).rows? = some rows ∧
    (∀ item, singleRow quietShim (momentAt 30) echoCall quietBatch (leftBy longerRun) item =
      some (rowOf item)) ∧
    RowsBudgeted rowOf quietBatch.budgets quietBatch.targets rows := by
  have some' : (verifyDeclarationBatch quietShim.fe quietShim.verify (momentAt 30) echoCall
      quietBatch (leftBy quietRun)).rows?.isSome = true := by decide +kernel
  obtain ⟨rows, answered⟩ := Option.isSome_iff_exists.mp some'
  obtain ⟨rowOf, single, budgeted⟩ := batch_rows_are_single_verdicts quietShim quietShim_exact
    quietRun_left longerRun_left (momentAt_points 30) (momentAt_points 30) echoCall quietBatch
    answered
  exact ⟨rows, rowOf, answered, single, budgeted⟩

end InfoTree

end LeanRs
