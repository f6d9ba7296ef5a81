import LeanRs.Shims.SnapshotCache
import LeanRs.Shims.Verification

/-! Whole runs of the shim in one process, whose entry points share the snapshot cache: no answer
tells what has been asked before, and the cache stays within the limits of every query. -/
namespace LeanRs

namespace InfoTree

open Elaboration

variable {Env Tree Chain : Type}

inductive ProofEditTarget where
  | declaration (name : String) (position : ProofPositionSelector)

/-- The walks of a proof attempt: where the edit goes, and the tactic state at a cursor. -/
structure AttemptWalks (Tree : Type) where
  resolveEditTarget : Projected Tree → ProofEditTarget → Except String EditTarget
  proofState : Projected Tree → ModuleQueryOutputBudgets → (line column : Nat) →
    LeanRs.ProofStateResult

inductive ProofAttemptOutcome where
  | ok (result : ProofAttemptEnvelope) (imports : List String)
  | missingImports (result : ProofAttemptEnvelope) (imports missing : List String)
  | headerParseFailed (diagnostics : ElabFailure)

/-- What an attempt depends on, once the source has been elaborated. An overlay continues from
there. -/
def attemptContext (fe : Frontend Env Tree Chain) (walks : AttemptWalks Tree)
    (moment : Moment Env) (call : ShimCall Env) (edit : ProofEditTarget)
    (budgets : ModuleQueryOutputBudgets) (base : Snapshot Env Tree Chain) : AttemptContext where
  document := base.state.document
  fileLabel := call.fileLabel
  resolve := walks.resolveEditTarget (base.state.projected call.fileLabel) edit
  build overlay :=
    (buildModuleSnapshot fe moment (call.input overlay) call.diagBytes
      (oneShotPolicy overlay call.fileLabel) (some base)).map fun snapshot =>
        ⟨snapshot.state.messages,
          walks.proofState (snapshot.state.projected call.fileLabel) budgets⟩

def attemptProof (fe : Frontend Env Tree Chain) (walks : AttemptWalks Tree) (moment : Moment Env)
    (call : ShimCall Env) (source : String) (edit : ProofEditTarget)
    (request : ProofAttemptRequest) (cache : Cache Env Tree Chain) : ProofAttemptOutcome :=
  match buildOneShot fe moment call source cache with
  | .error failure => .headerParseFailed failure
  | .ok base =>
    let envelope := attemptEnvelope
      (attemptContext fe walks moment call edit request.budgets base) request
    if base.state.missing.isEmpty then .ok envelope base.state.imports
    else .missingImports envelope base.state.imports base.state.missing

structure Shim (Env Tree Chain : Type) where
  fe : Frontend Env Tree Chain
  walks : TreeWalks Tree
  verify : VerifyWalks Env Tree
  attempt : AttemptWalks Tree

inductive ShimAction (Env : Type) where
  | query (moment : Moment Env) (request : BatchRequest Env) (policyRaw : String)
  | plainQuery (request : BatchRequest Env)
  | verify (moment : Moment Env) (call : ShimCall Env) (request : DeclarationVerificationRequest)
  | verifyBatch (moment : Moment Env) (call : ShimCall Env)
    (request : DeclarationVerificationBatchRequest)
  | attempt (moment : Moment Env) (call : ShimCall Env) (source : String) (edit : ProofEditTarget)
    (request : ProofAttemptRequest)
  | clear

inductive ShimAnswer where
  | cached (outcome : ModuleQueryBatchCachedOutcome)
  | batch (outcome : ModuleQueryBatchOutcome)
  | verdict (outcome : DeclarationVerificationOutcome)
  | verdicts (outcome : DeclarationVerificationBatchOutcome)
  | attempt (outcome : ProofAttemptOutcome)
  | cleared (entriesCleared approxBytesCleared : UInt64)

def emptyCache : Cache Env Tree Chain := ⟨[], 0⟩

def serve (shim : Shim Env Tree Chain) (cache : Cache Env Tree Chain) :
    ShimAction Env → ShimAnswer × Cache Env Tree Chain
  | .query moment request policyRaw =>
    let (outcome, cache) := queryCached shim.fe shim.walks moment request policyRaw cache
    (.cached outcome, cache)
  | .plainQuery request => (.batch (processModuleQueryBatch shim.fe shim.walks request), cache)
  | .verify moment call request =>
    (.verdict (verifyDeclaration shim.fe shim.verify moment call request cache), cache)
  | .verifyBatch moment call request =>
    (.verdicts (verifyDeclarationBatch shim.fe shim.verify moment call request cache), cache)
  | .attempt moment call source edit request =>
    (.attempt (attemptProof shim.fe shim.attempt moment call source edit request cache), cache)
  | .clear =>
    (.cleared cache.entries.length.toUInt64 cache.approxBytes.toUInt64, emptyCache)

def serveAll (shim : Shim Env Tree Chain) :
    Cache Env Tree Chain → List (ShimAction Env) → List ShimAnswer × Cache Env Tree Chain
  | cache, [] => ([], cache)
  | cache, action :: rest =>
    let (answer, cache) := serve shim cache action
    let (answers, cache) := serveAll shim cache rest
    (answer :: answers, cache)

def ModuleQueryBatchCachedOutcome.plain : ModuleQueryBatchCachedOutcome → ModuleQueryBatchOutcome
  | .ok result imports _ => .ok result imports
  | .missingImports result imports missing _ => .missingImports result imports missing
  | .headerParseFailed diagnostics _ => .headerParseFailed diagnostics

def ShimAnswer.plain : ShimAnswer → ShimAnswer
  | .cached outcome => .batch outcome.plain
  | .cleared _ _ => .cleared 0 0
  | answer => answer

variable {fe : Frontend Env Tree Chain} {walks : TreeWalks Tree}

def answerFrom (walks : TreeWalks Tree) (request : BatchRequest Env) :
    Except ElabFailure (SnapshotState Env Tree Chain) → ModuleQueryBatchOutcome
  | .error failure => .headerParseFailed failure
  | .ok state =>
    wrapOutcome state.imports state.missing (runBatchSelectorsWithCandidates walks
      request.selectors (state.projected request.input.fileLabel) request.budgets)

theorem projectCachedSnapshot_plain (state : SnapshotState Env Tree Chain)
    (request : BatchRequest Env) (status : ModuleQueryCacheStatus) (cache : Cache Env Tree Chain) :
    (projectCachedSnapshot walks state request status cache).plain =
      answerFrom walks request (.ok state.settled) := by
  unfold projectCachedSnapshot wrapCachedOutcome answerFrom wrapOutcome
  dsimp only [SnapshotState.settled]
  split <;> rfl

theorem queryCached_plain (moment : Moment Env) (request : BatchRequest Env) (policyRaw : String)
    (cache : Cache Env Tree Chain) :
    (queryCached fe walks moment request policyRaw cache).1.plain =
      answerFrom walks request ((processModuleQueryBatchCached (buildModuleSnapshot fe moment
        request.input request.diagBytes) policyRaw moment.nowMs moment.laterMs
        cache).2.2.map (·.state.settled)) ∧
    (queryCached fe walks moment request policyRaw cache).2 =
      (processModuleQueryBatchCached (buildModuleSnapshot fe moment request.input
        request.diagBytes) policyRaw moment.nowMs moment.laterMs cache).1 := by
  unfold queryCached
  obtain ⟨cache, status, result⟩ := processModuleQueryBatchCached (buildModuleSnapshot fe moment
    request.input request.diagBytes) policyRaw moment.nowMs moment.laterMs cache
  cases result with
  | error failure => exact ⟨rfl, rfl⟩
  | ok snapshot => exact ⟨projectCachedSnapshot_plain _ _ _ _, rfl⟩

theorem freshState_ok {input : ModuleInput Env} {diagBytes : USize} (other : USize)
    {state : SnapshotState Env Tree Chain} (built : freshState fe input diagBytes = .ok state) :
    freshState fe input other = .ok state := by
  unfold freshState buildModuleSnapshot at built ⊢
  dsimp only [Option.bind_none] at built ⊢
  by_cases bad : hasErrors (fe.parseHeader input.source input.fileLabel).messages
  · rw [if_pos bad] at built
    cases built
  · rw [if_neg bad] at built ⊢
    exact built

/-- Every snapshot in the cache may be continued. -/
def LinkedCache (fe : Frontend Env Tree Chain) (cache : Cache Env Tree Chain) : Prop :=
  ∀ e ∈ cache.entries, e.state.Linked fe

/-- Every snapshot in the cache is what a build from nothing keeps, for an input that has been
asked for under its key. -/
structure Faithful (fe : Frontend Env Tree Chain) (asked : String → ModuleInput Env → Prop)
    (cache : Cache Env Tree Chain) : Prop where
  linked : LinkedCache fe cache
  fresh : ∀ e ∈ cache.entries, ∃ input diagBytes, asked e.key input ∧
    freshState fe input diagBytes = .ok e.state.settled

variable {asked : String → ModuleInput Env → Prop} {cache : Cache Env Tree Chain}
  {moment : Moment Env}

theorem LinkedCache.handed (linked : LinkedCache fe cache) (fileIdentity : String) :
    Handed fe (newestSameFileSnapshot? fileIdentity cache.entries) :=
  fun old found => linked old (newestSameFileSnapshot?_mem found)

theorem LinkedCache.prune (linked : LinkedCache fe cache) (policy : ModuleQueryCachePolicy)
    (nowMs : Nat) : LinkedCache fe (pruneCache policy nowMs cache).1 :=
  fun e member => linked e ((pruneCache_sublist policy nowMs cache).subset member)

theorem LinkedCache.upsert {snapshot : Snapshot Env Tree Chain} {bytes : Nat}
    (linked : LinkedCache fe cache) (new : snapshot.state.Linked fe) :
    LinkedCache fe ⟨upsertSnapshot snapshot cache.entries, bytes⟩ := by
  intro e member
  obtain old | rfl := mem_upsertSnapshot member
  · exact linked e old
  · exact new

theorem Faithful.sublist {entries : List (Snapshot Env Tree Chain)} {bytes : Nat}
    (faithful : Faithful fe asked cache) (part : entries.Sublist cache.entries) :
    Faithful fe asked ⟨entries, bytes⟩ where
  linked := fun e member => faithful.linked e (part.subset member)
  fresh := fun e member => faithful.fresh e (part.subset member)

theorem Faithful.prune (faithful : Faithful fe asked cache) (policy : ModuleQueryCachePolicy)
    (nowMs : Nat) : Faithful fe asked (pruneCache policy nowMs cache).1 :=
  faithful.sublist (pruneCache_sublist policy nowMs cache)

theorem Faithful.upsert {snapshot : Snapshot Env Tree Chain} {bytes : Nat}
    (faithful : Faithful fe asked cache) (linked : snapshot.state.Linked fe)
    (fresh : ∃ input diagBytes, asked snapshot.key input ∧
      freshState fe input diagBytes = .ok snapshot.state.settled) :
    Faithful fe asked ⟨upsertSnapshot snapshot cache.entries, bytes⟩ where
  linked := faithful.linked.upsert linked
  fresh := fun e member => by
    obtain old | rfl := mem_upsertSnapshot member
    · exact faithful.fresh e old
    · exact fresh

/-- Two requests that are filed under one key ask for the same elaboration. -/
def Separates (asked : String → ModuleInput Env → Prop) : Prop :=
  ∀ key first second, asked key first → asked key second → first = second

variable {request : BatchRequest Env} {policyRaw : String}

theorem query_step (walks : TreeWalks Tree) (exact : fe.ReusesExactly) (points : moment.Points)
    (separates : Separates asked) (here : asked (parseCachePolicy policyRaw).key request.input)
    (faithful : Faithful fe asked cache) :
    (queryCached fe walks moment request policyRaw cache).1.plain =
        answerFrom walks request (freshState fe request.input request.diagBytes) ∧
      Faithful fe asked (queryCached fe walks moment request policyRaw cache).2 := by
  obtain ⟨answered, left⟩ := @queryCached_plain _ _ _ fe walks moment request policyRaw cache
  rw [answered, left]
  have pruned := faithful.prune (parseCachePolicy policyRaw) moment.nowMs
  have handed := pruned.linked.handed (parseCachePolicy policyRaw).fileIdentity
  have fresh := @build_fresh _ _ _ fe moment request.input _ request.diagBytes
    (parseCachePolicy policyRaw) exact points handed
  have queried := processModuleQueryBatchCached_cases (buildModuleSnapshot fe moment request.input
    request.diagBytes) policyRaw moment.nowMs moment.laterMs cache
  generalize processModuleQueryBatchCached (buildModuleSnapshot fe moment request.input
    request.diagBytes) policyRaw moment.nowMs moment.laterMs cache = outcome at queried ⊢
  generalize (pruneCache (parseCachePolicy policyRaw) moment.nowMs cache).1 = cache1 at *
  cases queried with
  | hit found member key =>
    obtain ⟨input, diagBytes, asks, kept⟩ := pruned.fresh found member
    rw [key] at asks
    obtain rfl := separates _ _ _ asks here
    refine ⟨?_, pruned.upsert (pruned.linked found member) ⟨_, diagBytes, ?_, kept⟩⟩
    · rw [freshState_ok request.diagBytes kept]
      rfl
    · rw [key]
      exact here
  | failed absent failure status missed failing =>
    rw [failing] at fresh
    exact ⟨by rw [← fresh], pruned⟩
  | oversized absent snapshot status missed built large =>
    rw [built] at fresh
    exact ⟨by rw [← fresh], pruned.prune _ _⟩
  | filed absent snapshot status missed built small =>
    rw [built] at fresh
    refine ⟨by rw [← fresh], (pruned.upsert (build_linked points handed built) ⟨request.input,
      request.diagBytes, ?_, fresh.symm⟩).prune _ _⟩
    rw [(build_cases built).1.key]
    exact here

theorem query_linked (walks : TreeWalks Tree) (points : moment.Points)
    (linked : LinkedCache fe cache) :
    LinkedCache fe (queryCached fe walks moment request policyRaw cache).2 := by
  rw [(queryCached_plain moment request policyRaw cache).2]
  have pruned := linked.prune (parseCachePolicy policyRaw) moment.nowMs
  have handed := pruned.handed (parseCachePolicy policyRaw).fileIdentity
  have queried := processModuleQueryBatchCached_cases (buildModuleSnapshot fe moment request.input
    request.diagBytes) policyRaw moment.nowMs moment.laterMs cache
  generalize processModuleQueryBatchCached (buildModuleSnapshot fe moment request.input
    request.diagBytes) policyRaw moment.nowMs moment.laterMs cache = outcome at queried ⊢
  generalize (pruneCache (parseCachePolicy policyRaw) moment.nowMs cache).1 = cache1 at *
  cases queried with
  | hit found member key => exact pruned.upsert (pruned found member)
  | failed absent failure status missed failing => exact pruned
  | oversized absent snapshot status missed built large => exact pruned.prune _ _
  | filed absent snapshot status missed built small =>
    exact (pruned.upsert (build_linked points handed built)).prune _ _

section OneShot

variable {call : ShimCall Env} {source : String}

theorem buildOneShot_fresh (exact : fe.ReusesExactly) (points : moment.Points)
    (linked : LinkedCache fe cache) :
    (buildOneShot fe moment call source cache).map (·.state.settled) =
      freshState fe (call.input source) call.diagBytes :=
  build_fresh exact points (linked.handed call.fileLabel)

def verdictFrom (verify : VerifyWalks Env Tree) (call : ShimCall Env)
    (request : DeclarationVerificationRequest) :
    Except ElabFailure (SnapshotState Env Tree Chain) → DeclarationVerificationOutcome
  | .error failure => .headerParseFailed failure
  | .ok state =>
    let (status, facts) := verifyTarget verify request state call.fileLabel call.heartbeats
    if state.missing.isEmpty then .ok status facts state.imports
    else .missingImports status facts state.imports state.missing

def verdictsFrom (verify : VerifyWalks Env Tree) (call : ShimCall Env)
    (request : DeclarationVerificationBatchRequest) :
    Except ElabFailure (SnapshotState Env Tree Chain) → DeclarationVerificationBatchOutcome
  | .error failure => .headerParseFailed failure
  | .ok state =>
    let rows := verifyDeclarationRows verify request state call.fileLabel call.heartbeats
    if state.missing.isEmpty then .ok rows state.imports
    else .missingImports rows state.imports state.missing

def freshContext (fe : Frontend Env Tree Chain) (walks : AttemptWalks Tree) (call : ShimCall Env)
    (edit : ProofEditTarget) (budgets : ModuleQueryOutputBudgets)
    (base : SnapshotState Env Tree Chain) : AttemptContext where
  document := base.document
  fileLabel := call.fileLabel
  resolve := walks.resolveEditTarget (base.projected call.fileLabel) edit
  build overlay := (freshState fe (call.input overlay) call.diagBytes).map fun state =>
    ⟨state.messages, walks.proofState (state.projected call.fileLabel) budgets⟩

def attemptFrom (fe : Frontend Env Tree Chain) (walks : AttemptWalks Tree) (call : ShimCall Env)
    (edit : ProofEditTarget) (request : ProofAttemptRequest) :
    Except ElabFailure (SnapshotState Env Tree Chain) → ProofAttemptOutcome
  | .error failure => .headerParseFailed failure
  | .ok base =>
    let envelope := attemptEnvelope (freshContext fe walks call edit request.budgets base) request
    if base.missing.isEmpty then .ok envelope base.imports
    else .missingImports envelope base.imports base.missing

theorem verifyDeclaration_fresh (exact : fe.ReusesExactly) (points : moment.Points)
    (linked : LinkedCache fe cache) (verify : VerifyWalks Env Tree)
    (request : DeclarationVerificationRequest) :
    verifyDeclaration fe verify moment call request cache =
      verdictFrom verify call request
        (freshState fe (call.input request.source) call.diagBytes) := by
  rw [← buildOneShot_fresh exact points linked]
  unfold verifyDeclaration
  cases buildOneShot fe moment call request.source cache <;> rfl

theorem verifyDeclarationBatch_fresh (exact : fe.ReusesExactly) (points : moment.Points)
    (linked : LinkedCache fe cache) (verify : VerifyWalks Env Tree)
    (request : DeclarationVerificationBatchRequest) :
    verifyDeclarationBatch fe verify moment call request cache =
      verdictsFrom verify call request
        (freshState fe (call.input request.source) call.diagBytes) := by
  rw [← buildOneShot_fresh exact points linked]
  unfold verifyDeclarationBatch
  cases buildOneShot fe moment call request.source cache <;> rfl

theorem attemptContext_fresh (exact : fe.ReusesExactly) (points : moment.Points)
    (walks : AttemptWalks Tree) (edit : ProofEditTarget) (budgets : ModuleQueryOutputBudgets)
    {base : Snapshot Env Tree Chain} (linked : base.state.Linked fe) :
    attemptContext fe walks moment call edit budgets base =
      freshContext fe walks call edit budgets base.state.settled := by
  have handed : Handed fe (some base) := fun old same => Option.some.inj same ▸ linked
  unfold attemptContext freshContext
  congr 1
  funext overlay
  rw [← build_fresh exact points handed]
  cases buildModuleSnapshot fe moment (call.input overlay) call.diagBytes
    (oneShotPolicy overlay call.fileLabel) (some base) <;> rfl

theorem attemptProof_fresh (exact : fe.ReusesExactly) (points : moment.Points)
    (linked : LinkedCache fe cache) (walks : AttemptWalks Tree) (edit : ProofEditTarget)
    (request : ProofAttemptRequest) :
    attemptProof fe walks moment call source edit request cache =
      attemptFrom fe walks call edit request
        (freshState fe (call.input source) call.diagBytes) := by
  rw [← buildOneShot_fresh exact points linked]
  unfold attemptProof
  cases built : buildOneShot fe moment call source cache with
  | error failure => rfl
  | ok base =>
    have continued := build_linked points (linked.handed call.fileLabel) built
    dsimp only
    rw [attemptContext_fresh exact points walks edit request.budgets continued]
    rfl

end OneShot

def ShimAction.Points : ShimAction Env → Prop
  | .query moment _ _ | .verify moment _ _ | .verifyBatch moment _ _
  | .attempt moment _ _ _ _ => moment.Points
  | .plainQuery _ | .clear => True

/-- The inputs that the actions of a run ask the cache for, with their keys. -/
def Asked (actions : List (ShimAction Env)) (key : String) (input : ModuleInput Env) : Prop :=
  ∃ moment request policyRaw, ShimAction.query moment request policyRaw ∈ actions ∧
    (parseCachePolicy policyRaw).key = key ∧ request.input = input

variable {shim : Shim Env Tree Chain}

theorem emptyCache_linked : LinkedCache fe (emptyCache : Cache Env Tree Chain) :=
  fun e member => by cases member

theorem serve_linked {action : ShimAction Env} (points : action.Points)
    (linked : LinkedCache shim.fe cache) : LinkedCache shim.fe (serve shim cache action).2 := by
  cases action with
  | query moment request policyRaw => exact query_linked shim.walks points linked
  | plainQuery request => exact linked
  | verify moment call request => exact linked
  | verifyBatch moment call request => exact linked
  | attempt moment call source edit request => exact linked
  | clear => exact emptyCache_linked

theorem serveAll_linked {actions : List (ShimAction Env)}
    (points : ∀ action ∈ actions, action.Points) (linked : LinkedCache shim.fe cache) :
    LinkedCache shim.fe (serveAll shim cache actions).2 := by
  induction actions generalizing cache with
  | nil => exact linked
  | cons action rest ih =>
    exact ih (fun a member => points a (List.mem_cons_of_mem action member))
      (serve_linked (points action List.mem_cons_self) linked)

theorem emptyCache_faithful : Faithful fe asked (emptyCache : Cache Env Tree Chain) where
  linked := emptyCache_linked
  fresh := fun e member => by cases member

theorem serve_step (exact : shim.fe.ReusesExactly) (separates : Separates asked)
    {action : ShimAction Env} (points : action.Points)
    (here : ∀ moment request policyRaw, action = .query moment request policyRaw →
      asked (parseCachePolicy policyRaw).key request.input)
    {first second : Cache Env Tree Chain} (faithful : Faithful shim.fe asked first)
    (other : Faithful shim.fe asked second) :
    (serve shim first action).1.plain = (serve shim second action).1.plain ∧
      Faithful shim.fe asked (serve shim first action).2 := by
  cases action with
  | query moment request policyRaw =>
    have asks := here _ _ _ rfl
    obtain ⟨answered, kept⟩ := query_step shim.walks exact points separates asks faithful
    obtain ⟨same, -⟩ := query_step shim.walks exact points separates asks other
    exact ⟨congrArg ShimAnswer.batch (answered.trans same.symm), kept⟩
  | plainQuery request => exact ⟨rfl, faithful⟩
  | verify moment call request =>
    refine ⟨congrArg ShimAnswer.verdict ?_, faithful⟩
    rw [verifyDeclaration_fresh exact points faithful.linked,
      verifyDeclaration_fresh exact points other.linked]
  | verifyBatch moment call request =>
    refine ⟨congrArg ShimAnswer.verdicts ?_, faithful⟩
    rw [verifyDeclarationBatch_fresh exact points faithful.linked,
      verifyDeclarationBatch_fresh exact points other.linked]
  | attempt moment call source edit request =>
    refine ⟨congrArg ShimAnswer.attempt ?_, faithful⟩
    rw [attemptProof_fresh exact points faithful.linked,
      attemptProof_fresh exact points other.linked]
  | clear => exact ⟨rfl, emptyCache_faithful⟩

theorem serveAll_transparent (exact : shim.fe.ReusesExactly) (separates : Separates asked)
    {actions : List (ShimAction Env)} (points : ∀ action ∈ actions, action.Points)
    (here : ∀ key input, Asked actions key input → asked key input)
    (faithful : Faithful shim.fe asked cache) :
    (serveAll shim cache actions).1.map ShimAnswer.plain =
        actions.map (fun action => (serve shim emptyCache action).1.plain) ∧
      Faithful shim.fe asked (serveAll shim cache actions).2 := by
  induction actions generalizing cache with
  | nil => exact ⟨rfl, faithful⟩
  | cons action rest ih =>
    obtain ⟨same, kept⟩ := serve_step exact separates (points action List.mem_cons_self)
      (fun moment request policyRaw equal => here _ _ ⟨moment, request, policyRaw,
        equal ▸ List.mem_cons_self, rfl, rfl⟩) faithful emptyCache_faithful
    obtain ⟨later, faithful⟩ := ih
      (fun a member => points a (List.mem_cons_of_mem action member))
      (fun key input ⟨moment, request, policyRaw, member, asks⟩ => here key input
        ⟨moment, request, policyRaw, List.mem_cons_of_mem action member, asks⟩) kept
    refine ⟨?_, faithful⟩
    rw [serveAll, List.map_cons, List.map_cons, later, same]

/-- Over every run of the process, each entry point answers as the first call would: neither a
snapshot in the cache nor a chain that has been continued shows, as long as a key stands for one
input. -/
theorem cache_is_transparent (shim : Shim Env Tree Chain) (exact : shim.fe.ReusesExactly)
    (actions : List (ShimAction Env)) (points : ∀ action ∈ actions, action.Points)
    (separates : Separates (Asked actions)) :
    (serveAll shim emptyCache actions).1.map ShimAnswer.plain =
      actions.map fun action => (serve shim emptyCache action).1.plain :=
  (serveAll_transparent exact separates points (fun _ _ asks => asks) emptyCache_faithful).1

/-- An elaborator that reports each body as an error, and counts how often it has been continued. -/
def echoFrontend : Frontend Unit Unit Nat where
  parseHeader _ _ := ⟨[], false, 0, []⟩
  moduleNames _ := []
  processHeader _ _ _ := .error "no header to import"
  processCommandsIncrementally body label st old? :=
    (⟨[⟨.error, body, ⟨1, 0, none, none⟩, label⟩], [()], st.env, 1⟩, old?.getD 0 + 1)
  declarationCandidates _ _ := .ok []

theorem echoFrontend_exact : echoFrontend.ReusesExactly := fun _ _ _ _ _ _ _ _ => rfl

def echoShim : Shim Unit Unit Nat where
  fe := echoFrontend
  walks :=
    { runProofState := fun _ _ _ _ _ _ _ => .error "no tactic"
      runProofStateInDeclaration := fun _ _ _ _ _ _ _ _ => .error "no tactic"
      runTypeAtWith := fun _ _ _ _ _ => .ok .noTerm
      runReferences := fun _ _ _ => .ok ⟨[], false⟩ }
  verify := ⟨fun _ _ _ _ => none, fun _ _ _ => none⟩
  attempt := ⟨fun _ _ => .error "no declaration", fun _ _ _ _ => .unavailable⟩

def momentAt (nowMs : Nat) : Moment Unit := ⟨nowMs, nowMs + 1, nowMs + 2, fun _ _ => true⟩

theorem momentAt_points (nowMs : Nat) : (momentAt nowMs).Points := fun _ _ _ => rfl

def echoQuery : BatchRequest Unit :=
  ⟨⟨(), "example", "", "A.lean", 200000⟩, [.diagnostics "d", .typeAt "t" 1 1], ⟨4096, 65536⟩, 4096⟩

def echoPolicy : String := "A.lean\nkey\n8\n60000\n1048576"

def echoCall : ShimCall Unit := ⟨(), "", "A.lean", 200000, 4096⟩

/-- A query, a verdict that continues its snapshot, and the query again. -/
def echoRun : List (ShimAction Unit) :=
  [.query (momentAt 0) echoQuery echoPolicy,
    .verify (momentAt 10) echoCall ⟨"example", .name "f", 1, 0, ⟨4096, 65536⟩⟩,
    .query (momentAt 20) echoQuery echoPolicy]

theorem echoRun_points : ∀ action ∈ echoRun, action.Points := by
  intro action member
  simp only [echoRun, List.mem_cons, List.not_mem_nil, or_false] at member
  obtain rfl | rfl | rfl := member
  all_goals exact momentAt_points _

theorem echoRun_separates : Separates (Asked echoRun) := by
  have only : ∀ key input, Asked echoRun key input → input = echoQuery.input := by
    rintro key input ⟨moment, request, policyRaw, member, -, rfl⟩
    simp only [echoRun, List.mem_cons, List.not_mem_nil, or_false] at member
    obtain same | same | same := member
    all_goals cases same
    all_goals rfl
  intro key first second asks again
  rw [only key first asks, only key second again]

theorem second_query_tells_nothing :
    (serveAll echoShim emptyCache echoRun).1.map ShimAnswer.plain =
      echoRun.map fun action => (serve echoShim emptyCache action).1.plain :=
  cache_is_transparent echoShim echoFrontend_exact echoRun echoRun_points echoRun_separates

/-- What the frontend makes of an input before anything is projected. -/
structure Elaborates (fe : Frontend Env Tree Chain) (input : ModuleInput Env) (commandEnv : Env)
    (initialMessages : List Elaboration.Message) : Prop where
  parses : hasErrors (fe.parseHeader input.source input.fileLabel).messages = false
  complete : fe.missing input (fe.parseHeader input.source input.fileLabel) = []
  opens : fe.commandEnv input (fe.parseHeader input.source input.fileLabel) =
    .ok (commandEnv, initialMessages)
  clean : hasErrors initialMessages = false

def bodyCandidates (fe : Frontend Env Tree Chain) (input : ModuleInput Env) (commandEnv : Env)
    (initialMessages : List Elaboration.Message) : Except String (List DeclarationCandidate) :=
  let header := fe.parseHeader input.source input.fileLabel
  fe.declarationCandidates (input.document header)
    (fe.processCommandsIncrementally (input.bodySource header) input.fileLabel
      (input.commandState commandEnv initialMessages) none).1.trees

/-- The header is imported without an error, and the body is elaborated. -/
def Finishes (fe : Frontend Env Tree Chain) (input : ModuleInput Env) : Prop :=
  ∃ commandEnv initialMessages candidates, Elaborates fe input commandEnv initialMessages ∧
    bodyCandidates fe input commandEnv initialMessages = .ok candidates

/-- The import of the header throws, or what follows the elaboration of the body does. -/
inductive Throws (fe : Frontend Env Tree Chain) (input : ModuleInput Env) (ex : String) : Prop where
  | opening (parses : hasErrors (fe.parseHeader input.source input.fileLabel).messages = false)
    (complete : fe.missing input (fe.parseHeader input.source input.fileLabel) = [])
    (opens : fe.commandEnv input (fe.parseHeader input.source input.fileLabel) = .error ex)
  | body (commandEnv : Env) (initialMessages : List Elaboration.Message)
    (elaborates : Elaborates fe input commandEnv initialMessages)
    (throws : bodyCandidates fe input commandEnv initialMessages = .error ex)

theorem plain_of_finishes (finishes : Finishes fe request.input) :
    processModuleQueryBatch fe walks request =
      answerFrom walks request (freshState fe request.input request.diagBytes) := by
  obtain ⟨commandEnv, initialMessages, candidates, ⟨parses, complete, opens, clean⟩, found⟩ :=
    finishes
  unfold bodyCandidates at found
  unfold processModuleQueryBatch freshState buildModuleSnapshot
  dsimp only at found ⊢
  generalize fe.parseHeader request.input.source request.input.fileLabel = header at *
  simp only [parses, complete, opens, clean, Option.bind_none, List.isEmpty_nil, Bool.not_true,
    Bool.false_eq_true, if_false, Bool.and_true, found]
  rfl

theorem plain_of_throws {ex : String} (throws : Throws fe request.input ex) :
    processModuleQueryBatch fe walks request =
        .ok (batchEnvelopeFromFailure request.selectors
          (singleErrorFailure ex request.input.fileLabel))
          (fe.parseHeader request.input.source request.input.fileLabel).imports ∧
      freshState fe request.input request.diagBytes =
        .error (singleErrorFailure ex request.input.fileLabel) := by
  unfold processModuleQueryBatch freshState buildModuleSnapshot
  cases throws with
  | opening parses complete opens =>
    dsimp only
    generalize fe.parseHeader request.input.source request.input.fileLabel = header at *
    simp only [parses, complete, opens, List.isEmpty_nil, Bool.not_true, Bool.false_eq_true,
      if_false, wrapOutcome, if_true]
    exact ⟨trivial, rfl⟩
  | body commandEnv initialMessages elaborates throws =>
    obtain ⟨parses, complete, opens, clean⟩ := elaborates
    unfold bodyCandidates at throws
    dsimp only at throws ⊢
    generalize fe.parseHeader request.input.source request.input.fileLabel = header at *
    simp only [parses, complete, opens, clean, Option.bind_none, List.isEmpty_nil, Bool.not_true,
      Bool.false_eq_true, if_false, Bool.and_true, throws, wrapOutcome, if_true]
    exact ⟨trivial, rfl⟩

/-- After every run, a query through the cache is answered as the plain one where the elaboration
finishes; where it throws the two never agree. -/
theorem cached_agrees_with_plain (shim : Shim Env Tree Chain) (exact : shim.fe.ReusesExactly)
    (before : List (ShimAction Env)) (moment : Moment Env) (request : BatchRequest Env)
    (policyRaw : String)
    (points : ∀ action ∈ before ++ [.query moment request policyRaw], action.Points)
    (separates : Separates (Asked (before ++ [.query moment request policyRaw]))) :
    (Finishes shim.fe request.input →
      (queryCached shim.fe shim.walks moment request policyRaw
        (serveAll shim emptyCache before).2).1.plain =
        processModuleQueryBatch shim.fe shim.walks request) ∧
    ∀ ex, Throws shim.fe request.input ex →
      (queryCached shim.fe shim.walks moment request policyRaw
        (serveAll shim emptyCache before).2).1.plain =
        .headerParseFailed (singleErrorFailure ex request.input.fileLabel) ∧
      processModuleQueryBatch shim.fe shim.walks request =
        .ok (batchEnvelopeFromFailure request.selectors
          (singleErrorFailure ex request.input.fileLabel))
          (shim.fe.parseHeader request.input.source request.input.fileLabel).imports := by
  have last : ShimAction.query moment request policyRaw ∈
      before ++ [.query moment request policyRaw] := by simp
  obtain ⟨-, faithful⟩ := serveAll_transparent exact separates
    (fun action member => points action (List.mem_append_left _ member))
    (fun key input ⟨m, r, p, member, asks⟩ => ⟨m, r, p, List.mem_append_left _ member, asks⟩)
    (@emptyCache_faithful _ _ _ shim.fe (Asked (before ++ [.query moment request policyRaw])))
  obtain ⟨answered, -⟩ := query_step shim.walks exact (points _ last) separates
    ⟨moment, request, policyRaw, last, rfl, rfl⟩ faithful
  rw [answered]
  refine ⟨fun finishes => (plain_of_finishes finishes).symm, fun ex throws => ?_⟩
  obtain ⟨plain, fresh⟩ := @plain_of_throws _ _ _ shim.fe shim.walks request ex throws
  rw [fresh]
  exact ⟨rfl, plain⟩

/-- The same frontend, where the walk for the declarations throws. -/
def brokenShim : Shim Unit Unit Nat :=
  { echoShim with fe := { echoFrontend with declarationCandidates := fun _ _ => .error "broken" } }

theorem second_query_as_plain :
    (queryCached echoShim.fe echoShim.walks (momentAt 20) echoQuery echoPolicy
      (serveAll echoShim emptyCache (echoRun.take 2)).2).1.plain =
      processModuleQueryBatch echoShim.fe echoShim.walks echoQuery ∧
    (queryCached brokenShim.fe brokenShim.walks (momentAt 20) echoQuery echoPolicy
      (serveAll brokenShim emptyCache (echoRun.take 2)).2).1.plain =
      .headerParseFailed (singleErrorFailure "broken" "A.lean") :=
  ⟨(cached_agrees_with_plain echoShim echoFrontend_exact (echoRun.take 2) (momentAt 20) echoQuery
      echoPolicy echoRun_points echoRun_separates).1 ⟨(), [], [], ⟨rfl, rfl, rfl, rfl⟩, rfl⟩,
    ((cached_agrees_with_plain brokenShim (fun _ _ _ _ _ _ _ _ => rfl) (echoRun.take 2)
      (momentAt 20) echoQuery echoPolicy echoRun_points echoRun_separates).2 "broken"
      (.body () [] ⟨rfl, rfl, rfl, rfl⟩ rfl)).1⟩

/-- The clock that the actions find: it never goes back. -/
def Clocked : Nat → List (ShimAction Env) → Prop
  | _, [] => True
  | clock, .query moment _ _ :: rest =>
    clock ≤ moment.nowMs ∧ moment.nowMs ≤ moment.builtMs ∧ moment.builtMs ≤ moment.laterMs ∧
      Clocked moment.laterMs rest
  | clock, _ :: rest => Clocked clock rest

def clockAfter : Nat → List (ShimAction Env) → Nat
  | clock, [] => clock
  | _, .query moment _ _ :: rest => clockAfter moment.laterMs rest
  | clock, _ :: rest => clockAfter clock rest

theorem clocked_append {clock : Nat} {first second : List (ShimAction Env)} :
    Clocked clock (first ++ second) ↔ Clocked clock first ∧
      Clocked (clockAfter clock first) second := by
  induction first generalizing clock with
  | nil => simp [Clocked, clockAfter]
  | cons action rest ih => cases action <;> simp [Clocked, clockAfter, ih, and_assoc]

section Bounds

variable {clock : Nat}

theorem query_tidy (tidy : Tidy clock cache) (since : clock ≤ moment.nowMs)
    (building : moment.nowMs ≤ moment.builtMs) (filing : moment.builtMs ≤ moment.laterMs) :
    Tidy moment.laterMs (queryCached fe walks moment request policyRaw cache).2 ∧
      WithinLimits (parseCachePolicy policyRaw)
        (queryCached fe walks moment request policyRaw cache).2 := by
  rw [(queryCached_plain moment request policyRaw cache).2]
  refine (processModuleQueryBatchCached_cases _ policyRaw moment.nowMs moment.laterMs cache).tidy
    ((tidy.later since).prune _ _) (pruneCache_within _ _ _) (Nat.le_trans building filing) ?_
  intro old? snapshot built
  rw [(build_cases built).1.lastUsedMs]
  exact filing

theorem serveAll_tidy (shim : Shim Env Tree Chain) {actions : List (ShimAction Env)}
    (clocked : Clocked clock actions) (tidy : Tidy clock cache) :
    Tidy (clockAfter clock actions) (serveAll shim cache actions).2 := by
  induction actions generalizing clock cache with
  | nil => exact tidy
  | cons action rest ih =>
    cases action with
    | query moment request policyRaw =>
      obtain ⟨since, building, filing, clocked⟩ := clocked
      exact ih clocked (query_tidy tidy since building filing).1
    | clear => exact ih clocked ⟨rfl, List.nodup_nil, fun e member => by cases member⟩
    | plainQuery request => exact ih clocked tidy
    | verify moment call request => exact ih clocked tidy
    | verifyBatch moment call request => exact ih clocked tidy
    | attempt moment call source edit request => exact ih clocked tidy

theorem query_again {snapshot : Snapshot Env Tree Chain} (tidy : Tidy clock cache)
    (since : clock ≤ moment.nowMs) (building : moment.nowMs ≤ moment.builtMs)
    (filing : moment.builtMs ≤ moment.laterMs)
    (filed : (processModuleQueryBatchCached (buildModuleSnapshot fe moment request.input
      request.diagBytes) policyRaw moment.nowMs moment.laterMs cache).2.2 = .ok snapshot)
    (small : snapshot.approxBytes ≤ (parseCachePolicy policyRaw).maxBytes.toNat)
    (fresh : isFresh moment.laterMs (parseCachePolicy policyRaw).ttlMillis.toNat snapshot = true)
    (next : Moment Env) (again : BatchRequest Env)
    (soon : isFresh next.nowMs (parseCachePolicy policyRaw).ttlMillis.toNat snapshot = true) :
    (processModuleQueryBatchCached (buildModuleSnapshot fe next again.input again.diagBytes)
      policyRaw next.nowMs next.laterMs (queryCached fe walks moment request policyRaw
        cache).2).2 = (.hit, .ok { snapshot with lastUsedMs := next.nowMs }) := by
  obtain ⟨tidyAfter, within⟩ := @query_tidy _ _ _ fe walks cache moment request policyRaw clock tidy
    since building filing
  rw [(queryCached_plain moment request policyRaw cache).2] at tidyAfter within ⊢
  have queried := processModuleQueryBatchCached_cases (buildModuleSnapshot fe moment request.input
    request.diagBytes) policyRaw moment.nowMs moment.laterMs cache
  have pruned := (tidy.later since).prune (parseCachePolicy policyRaw) moment.nowMs
  generalize processModuleQueryBatchCached (buildModuleSnapshot fe moment request.input
    request.diagBytes) policyRaw moment.nowMs moment.laterMs cache = outcome at *
  generalize (pruneCache (parseCachePolicy policyRaw) moment.nowMs cache).1 = cache1 at *
  suffices there : snapshot ∈ outcome.1.entries ∧
      snapshot.key = (parseCachePolicy policyRaw).key from
    processModuleQueryBatchCached_hit tidyAfter.distinct within there.1 there.2 soon
  cases queried with
  | hit found member key =>
    cases filed
    exact ⟨List.mem_append_right _ (List.mem_singleton_self _), key⟩
  | failed absent failure status missed failing => cases filed
  | oversized absent built status missed building large =>
    cases filed
    exact absurd small (Nat.not_le_of_gt large)
  | filed absent built status missed build fits =>
    cases filed
    obtain ⟨⟨-, key, dated⟩, -⟩ := build_cases build
    exact ⟨filed_stays pruned (dated ▸ building) small fresh, key⟩

end Bounds

structure KeepsCache (fe : Frontend Env Tree Chain) (walks : TreeWalks Tree) (moment : Moment Env)
    (request : BatchRequest Env) (policyRaw : String) (cache : Cache Env Tree Chain) : Prop where
  /-- The counts are right, and no key is there twice. -/
  tidy : Tidy moment.laterMs (queryCached fe walks moment request policyRaw cache).2
  within : WithinLimits (parseCachePolicy policyRaw)
    (queryCached fe walks moment request policyRaw cache).2
  /-- What goes before its time has not been used later than anything that stays. -/
  recent : ∀ gone ∈ cache.entries, gone.key ≠ (parseCachePolicy policyRaw).key →
    isFresh moment.laterMs (parseCachePolicy policyRaw).ttlMillis.toNat gone = true →
    gone ∉ (queryCached fe walks moment request policyRaw cache).2.entries →
    ∀ kept ∈ (queryCached fe walks moment request policyRaw cache).2.entries,
      gone.lastUsedMs ≤ kept.lastUsedMs
  /-- The answer's own snapshot, unless it is too large, answers again in its time. -/
  again : ∀ snapshot, (processModuleQueryBatchCached (buildModuleSnapshot fe moment request.input
      request.diagBytes) policyRaw moment.nowMs moment.laterMs cache).2.2 = .ok snapshot →
    snapshot.approxBytes ≤ (parseCachePolicy policyRaw).maxBytes.toNat →
    isFresh moment.laterMs (parseCachePolicy policyRaw).ttlMillis.toNat snapshot = true →
    ∀ (next : Moment Env) (later : BatchRequest Env),
      isFresh next.nowMs (parseCachePolicy policyRaw).ttlMillis.toNat snapshot = true →
      (processModuleQueryBatchCached (buildModuleSnapshot fe next later.input later.diagBytes)
        policyRaw next.nowMs next.laterMs (queryCached fe walks moment request policyRaw
          cache).2).2 = (.hit, .ok { snapshot with lastUsedMs := next.nowMs })

/-- After every run whose clock does not go back, a query keeps the cache in order. -/
theorem every_query_keeps_cache (shim : Shim Env Tree Chain) (before : List (ShimAction Env))
    (moment : Moment Env) (request : BatchRequest Env) (policyRaw : String)
    (clocked : Clocked 0 (before ++ [.query moment request policyRaw])) :
    KeepsCache shim.fe shim.walks moment request policyRaw (serveAll shim emptyCache before).2 := by
  obtain ⟨earlier, since, building, filing, -⟩ := clocked_append.mp clocked
  have tidy : Tidy (clockAfter 0 before) (serveAll shim emptyCache before).2 :=
    serveAll_tidy shim earlier ⟨rfl, List.nodup_nil, fun e member => by cases member⟩
  generalize (serveAll shim emptyCache before).2 = cache at tidy
  refine ⟨(query_tidy tidy since building filing).1, (query_tidy tidy since building filing).2,
    ?_, ?_⟩
  · intro gone member other fresh leaves kept stays
    rw [(queryCached_plain moment request policyRaw cache).2] at leaves stays
    refine processModuleQueryBatchCached_recent (tidy.later since)
      (Nat.le_trans building filing) ?_ stays member other fresh leaves
    intro old? snapshot built
    obtain ⟨⟨-, key, dated⟩, -⟩ := build_cases built
    exact ⟨key, dated ▸ building⟩
  · intro snapshot filed small fresh next later soon
    exact query_again tidy since building filing filed small fresh next later soon

theorem second_query_keeps_cache : KeepsCache echoFrontend echoShim.walks (momentAt 20) echoQuery
    echoPolicy (serveAll echoShim emptyCache (echoRun.take 2)).2 :=
  every_query_keeps_cache echoShim (echoRun.take 2) (momentAt 20) echoQuery echoPolicy
    (by simp [echoRun, Clocked, momentAt])

end InfoTree

end LeanRs
