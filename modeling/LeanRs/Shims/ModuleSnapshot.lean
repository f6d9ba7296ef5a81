import LeanRs.Shims.CachePolicy
import LeanRs.Shims.Rendering
import LeanRs.Shims.Selection

/-! What the shim keeps of an elaborated source file, and what a build of it may take over from an
older one. The parser and the elaborator of Lean are given. -/
namespace LeanRs

open Elaboration
open String (Pos.Raw)

namespace InfoTree

structure ParsedHeader where
  imports : List String
  isModule : Bool
  /-- Where the body of the source starts. -/
  pos : Pos.Raw
  messages : List Elaboration.Message

def hasErrors (messages : List Elaboration.Message) : Bool :=
  messages.any fun m => m.severity == Severity.error

structure CommandState (Env : Type) where
  env : Env
  messages : List Elaboration.Message
  heartbeats : UInt64
  currNamespace : Option String

/-- What the elaboration of all commands leaves; of the syntax only the number of commands. -/
structure Elaborated (Env Tree : Type) where
  messages : List Elaboration.Message
  trees : List Tree
  env : Env
  commands : Nat

/-- Lean's own part. An environment is an object; a chain is the state that an elaboration hands
to a later one. The nodes of the info trees are read by `declarationCandidates` alone here. What
`processHeader` imports does not change: the files that it reads stay as they are over a run. -/
structure Frontend (Env Tree Chain : Type) where
  parseHeader : (source fileLabel : String) → ParsedHeader
  moduleNames : Env → List String
  processHeader : (source fileLabel : String) → UInt64 →
    Except String (Env × List Elaboration.Message)
  processCommandsIncrementally : (bodySource fileLabel : String) → CommandState Env →
    Option Chain → Elaborated Env Tree × Chain
  declarationCandidates : SourceDocument → List Tree → Except String (List DeclarationCandidate)

structure ModuleInput (Env : Type) where
  env : Env
  source : String
  namespaceContext : String
  fileLabel : String
  heartbeats : UInt64

variable {Env Tree Chain : Type}

namespace ModuleInput

variable (input : ModuleInput Env) (header : ParsedHeader)

def headerSource : String := Pos.Raw.extract input.source 0 header.pos

def bodySource : String := Pos.Raw.extract input.source header.pos input.source.rawEndPos

def document : SourceDocument :=
  .fromSources input.source (input.bodySource header) (countNewlines (input.headerSource header))

def commandState (commandEnv : Env) (initialMessages : List Elaboration.Message) :
    CommandState Env where
  env := commandEnv
  messages := initialMessages
  heartbeats := input.heartbeats
  currNamespace := if input.namespaceContext.isEmpty then none else some input.namespaceContext

end ModuleInput

namespace Frontend

variable (fe : Frontend Env Tree Chain)

def missing (input : ModuleInput Env) (header : ParsedHeader) : List String :=
  header.imports.filter fun name => !(fe.moduleNames input.env).contains name

/-- The environment that the body is elaborated on: a source of the module system imports its own
header again. -/
def commandEnv (input : ModuleInput Env) (header : ParsedHeader) :
    Except String (Env × List Elaboration.Message) :=
  if header.isModule && (fe.missing input header).isEmpty then
    fe.processHeader input.source input.fileLabel input.heartbeats
  else .ok (input.env, header.messages)

end Frontend

structure SnapshotState (Env Tree Chain : Type) where
  document : SourceDocument
  messages : List Elaboration.Message
  trees : List Tree
  candidates : List DeclarationCandidate
  imports : List String
  missing : List String
  env : Env
  baseEnv : Env
  heartbeats : UInt64
  namespaceContext : String
  incremental? : Option Chain

abbrev Snapshot (Env Tree Chain : Type) := ModuleSnapshot (SnapshotState Env Tree Chain)

def approxSnapshotBytes (source : String) (trees : List Tree)
    (candidates : List DeclarationCandidate) : Nat :=
  byteLength source * 8 + trees.length * 4096 + candidates.length * 256 + 65536

def incrementalCommandApproxBytes : Nat := 2048

/-- What a call finds outside of its arguments: the clock, and which environments are one object in
memory. -/
structure Moment (Env : Type) where
  nowMs : Nat
  builtMs : Nat
  laterMs : Nat
  ptrEq : Env → Env → Bool

def reusableIncrementalState? (ptrEq : Env → Env → Bool) (old : SnapshotState Env Tree Chain)
    (baseEnv : Env) (heartbeats : UInt64) (namespaceContext : String) : Option Chain :=
  let sameEnv := ptrEq old.baseEnv baseEnv
  if sameEnv && old.heartbeats == heartbeats && old.namespaceContext == namespaceContext then
    old.incremental?
  else none

def buildModuleSnapshot (fe : Frontend Env Tree Chain) (moment : Moment Env)
    (input : ModuleInput Env) (diagBytes : USize) (policy : ModuleQueryCachePolicy)
    (old? : Option (Snapshot Env Tree Chain)) :
    Except ElabFailure (Snapshot Env Tree Chain) :=
  let header := fe.parseHeader input.source input.fileLabel
  if hasErrors header.messages then
    .error (failureFromMessages header.messages diagBytes.toNat input.fileLabel)
  else
    let missing := fe.missing input header
    match fe.commandEnv input header with
    | .error ex => .error (singleErrorFailure ex input.fileLabel)
    | .ok (commandEnv, initialMessages) =>
      let commandState := input.commandState commandEnv initialMessages
      let document := input.document header
      if !missing.isEmpty then
        -- an incomplete import closure: the body is not elaborated
        .ok {
          fileIdentity := policy.fileIdentity
          key := policy.key
          state := {
            document
            messages := commandState.messages
            trees := []
            candidates := []
            imports := header.imports
            missing
            env := commandState.env
            baseEnv := commandEnv
            heartbeats := input.heartbeats
            namespaceContext := input.namespaceContext
            incremental? := none }
          approxBytes := approxSnapshotBytes input.source ([] : List Tree) []
          lastUsedMs := moment.builtMs }
      else
        let reusable? := old?.bind fun old =>
          reusableIncrementalState? moment.ptrEq old.state commandEnv input.heartbeats
            input.namespaceContext
        let (st, chain) := fe.processCommandsIncrementally (input.bodySource header)
          input.fileLabel commandState reusable?
        match fe.declarationCandidates document st.trees with
        | .error ex => .error (singleErrorFailure ex input.fileLabel)
        | .ok candidates =>
          .ok {
            fileIdentity := policy.fileIdentity
            key := policy.key
            state := {
              document
              messages := st.messages
              trees := st.trees
              candidates
              imports := header.imports
              missing
              env := st.env
              baseEnv := commandEnv
              heartbeats := input.heartbeats
              namespaceContext := input.namespaceContext
              incremental? := some chain }
            approxBytes := approxSnapshotBytes input.source st.trees candidates +
              st.commands * incrementalCommandApproxBytes
            lastUsedMs := moment.builtMs }

/-- The chains that elaborations on one environment hand on, with one limit and one namespace. -/
inductive Frontend.Chained (fe : Frontend Env Tree Chain) (base : Env) (heartbeats : UInt64)
    (currNamespace : Option String) : Chain → Prop where
  | first (body label : String) (messages : List Elaboration.Message) :
    fe.Chained base heartbeats currNamespace
      (fe.processCommandsIncrementally body label ⟨base, messages, heartbeats, currNamespace⟩
        none).2
  | later (body label : String) (messages : List Elaboration.Message) {chain : Chain}
    (before : fe.Chained base heartbeats currNamespace chain) :
    fe.Chained base heartbeats currNamespace
      (fe.processCommandsIncrementally body label ⟨base, messages, heartbeats, currNamespace⟩
        (some chain)).2

/-- The elaborator may be handed the chain of an earlier elaboration from the same state: it gives
what it gives without. -/
def Frontend.ReusesExactly (fe : Frontend Env Tree Chain) : Prop :=
  ∀ base heartbeats currNamespace chain, fe.Chained base heartbeats currNamespace chain →
    ∀ body label messages,
      (fe.processCommandsIncrementally body label ⟨base, messages, heartbeats, currNamespace⟩
        (some chain)).1 =
      (fe.processCommandsIncrementally body label ⟨base, messages, heartbeats, currNamespace⟩
        none).1

/-- Objects at one place are equal. -/
def Moment.Points (moment : Moment Env) : Prop := ∀ a b, moment.ptrEq a b = true → a = b

def scopeOf (namespaceContext : String) : Option String :=
  if namespaceContext.isEmpty then none else some namespaceContext

/-- A snapshot's chain comes from its own environment, limit and namespace. -/
def SnapshotState.Linked (fe : Frontend Env Tree Chain) (state : SnapshotState Env Tree Chain) :
    Prop :=
  ∀ chain, state.incremental? = some chain →
    fe.Chained state.baseEnv state.heartbeats (scopeOf state.namespaceContext) chain

def SnapshotState.settled (state : SnapshotState Env Tree Chain) : SnapshotState Env Tree Chain :=
  { state with incremental? := none }

variable {fe : Frontend Env Tree Chain} {moment : Moment Env}

theorem reusable_chained {old : SnapshotState Env Tree Chain} {baseEnv : Env}
    {heartbeats : UInt64} {namespaceContext : String} {chain : Chain} (points : moment.Points)
    (linked : old.Linked fe)
    (reusable : reusableIncrementalState? moment.ptrEq old baseEnv heartbeats namespaceContext =
      some chain) :
    fe.Chained baseEnv heartbeats (scopeOf namespaceContext) chain := by
  unfold reusableIncrementalState? at reusable
  dsimp only at reusable
  split at reusable
  · rename_i same
    simp only [Bool.and_eq_true, beq_iff_eq] at same
    obtain ⟨⟨pointer, limits⟩, scopes⟩ := same
    rw [← points _ _ pointer, ← limits, ← scopes]
    exact linked chain reusable
  · cases reusable

variable {input : ModuleInput Env}

theorem ModuleInput.commandState_eq (commandEnv : Env)
    (initialMessages : List Elaboration.Message) :
    input.commandState commandEnv initialMessages =
      ⟨commandEnv, initialMessages, input.heartbeats, scopeOf input.namespaceContext⟩ := rfl

def Handed (fe : Frontend Env Tree Chain) (old? : Option (Snapshot Env Tree Chain)) : Prop :=
  ∀ old, old? = some old → old.state.Linked fe

section Build

variable {old? : Option (Snapshot Env Tree Chain)} {commandEnv : Env}

theorem reusable?_chained (points : moment.Points) (handed : Handed fe old?) {chain : Chain}
    (reusable : (old?.bind fun old => reusableIncrementalState? moment.ptrEq old.state commandEnv
      input.heartbeats input.namespaceContext) = some chain) :
    fe.Chained commandEnv input.heartbeats (scopeOf input.namespaceContext) chain := by
  obtain ⟨old, found, reusable⟩ := Option.bind_eq_some_iff.mp reusable
  exact reusable_chained points (handed old found) reusable

def freshState (fe : Frontend Env Tree Chain) (input : ModuleInput Env) (diagBytes : USize) :
    Except ElabFailure (SnapshotState Env Tree Chain) :=
  (buildModuleSnapshot fe ⟨0, 0, 0, fun _ _ => false⟩ input diagBytes (fallbackPolicy "") none).map
    (·.state.settled)

variable {diagBytes : USize} {policy : ModuleQueryCachePolicy}

theorem build_fresh (exact : fe.ReusesExactly) (points : moment.Points)
    (handed : Handed fe old?) :
    (buildModuleSnapshot fe moment input diagBytes policy old?).map (·.state.settled) =
      freshState fe input diagBytes := by
  unfold freshState buildModuleSnapshot
  dsimp only [Option.bind_none]
  generalize fe.parseHeader input.source input.fileLabel = header
  by_cases bad : hasErrors header.messages
  · rw [if_pos bad, if_pos bad]
  · rw [if_neg bad, if_neg bad]
    cases fe.commandEnv input header with
    | error ex => rfl
    | ok opened =>
      obtain ⟨commandEnv, initialMessages⟩ := opened
      dsimp only
      by_cases incomplete : !(fe.missing input header).isEmpty
      · rw [if_pos incomplete, if_pos incomplete]
        rfl
      · rw [if_neg incomplete, if_neg incomplete]
        cases reusable : old?.bind fun old => reusableIncrementalState? moment.ptrEq old.state
            commandEnv input.heartbeats input.namespaceContext with
        | none =>
          cases fe.declarationCandidates (input.document header)
            (fe.processCommandsIncrementally (input.bodySource header) input.fileLabel
              (input.commandState commandEnv initialMessages) none).1.trees <;> rfl
        | some chain =>
          have same := exact _ _ _ chain (reusable?_chained points handed reusable)
            (input.bodySource header) input.fileLabel initialMessages
          rw [← input.commandState_eq commandEnv initialMessages] at same
          rw [same]
          cases fe.declarationCandidates (input.document header)
            (fe.processCommandsIncrementally (input.bodySource header) input.fileLabel
              (input.commandState commandEnv initialMessages) none).1.trees <;> rfl

structure Filed (moment : Moment Env) (policy : ModuleQueryCachePolicy)
    (snapshot : Snapshot Env Tree Chain) : Prop where
  fileIdentity : snapshot.fileIdentity = policy.fileIdentity
  key : snapshot.key = policy.key
  lastUsedMs : snapshot.lastUsedMs = moment.builtMs

theorem build_cases {snapshot : Snapshot Env Tree Chain}
    (built : buildModuleSnapshot fe moment input diagBytes policy old? = .ok snapshot) :
    Filed moment policy snapshot ∧ (snapshot.state.incremental? = none ∨
      ∃ body label initialMessages, snapshot.state.incremental? =
        some (fe.processCommandsIncrementally body label
          ⟨snapshot.state.baseEnv, initialMessages, snapshot.state.heartbeats,
            scopeOf snapshot.state.namespaceContext⟩
          (old?.bind fun old => reusableIncrementalState? moment.ptrEq old.state
            snapshot.state.baseEnv snapshot.state.heartbeats
            snapshot.state.namespaceContext)).2) := by
  unfold buildModuleSnapshot at built
  dsimp only at built
  generalize fe.parseHeader input.source input.fileLabel = header at built
  by_cases bad : hasErrors header.messages
  · rw [if_pos bad] at built
    cases built
  · rw [if_neg bad] at built
    cases opened : fe.commandEnv input header with
    | error ex =>
      rw [opened] at built
      cases built
    | ok opening =>
      obtain ⟨commandEnv, initialMessages⟩ := opening
      rw [opened] at built
      dsimp only at built
      by_cases incomplete : !(fe.missing input header).isEmpty
      · rw [if_pos incomplete] at built
        cases built
        exact ⟨⟨rfl, rfl, rfl⟩, .inl rfl⟩
      · rw [if_neg incomplete] at built
        split at built
        · cases built
        · cases built
          exact ⟨⟨rfl, rfl, rfl⟩, .inr ⟨_, _, _, rfl⟩⟩

theorem build_linked (points : moment.Points) (handed : Handed fe old?)
    {snapshot : Snapshot Env Tree Chain}
    (built : buildModuleSnapshot fe moment input diagBytes policy old? = .ok snapshot) :
    snapshot.state.Linked fe := by
  intro chain same
  obtain ⟨-, none | ⟨body, label, initialMessages, elaborated⟩⟩ := build_cases built
  · rw [none] at same
    cases same
  · rw [elaborated] at same
    obtain rfl := Option.some.inj same
    cases reusable : old?.bind fun old => reusableIncrementalState? moment.ptrEq old.state
        snapshot.state.baseEnv snapshot.state.heartbeats snapshot.state.namespaceContext with
    | none => exact .first _ _ _
    | some earlier =>
      obtain ⟨old, found, reusable⟩ := Option.bind_eq_some_iff.mp reusable
      exact .later _ _ _ (reusable_chained points (handed old found) reusable)

end Build

end InfoTree

end LeanRs
