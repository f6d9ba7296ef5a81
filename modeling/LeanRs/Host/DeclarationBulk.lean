import Mathlib.Data.List.Forall2
import LeanRs.General.Memo
import LeanRs.Shims.Environment

/-! Queries for many declarations at once: the loops of the shim, the shortcuts of the host, and the
loop over the query for one declaration. -/
namespace LeanRs

namespace Shim

variable {α : Type}

def bulkLoop (one : String → α) : List String → List (String × α) → List α → List α
  | [], _, out => out
  | name :: rest, cache, out =>
    bulkLoop one rest (Memo.fetch one cache name).2 (out ++ [(Memo.fetch one cache name).1])

def bulk (one : String → α) (names : List String) : List α :=
  match names with
  | [] => []
  | first :: _ =>
    if names.all (· == first) then List.replicate names.length (one first)
    else bulkLoop one names [] []

/-- The same loop with a report after each name; a status other than success ends it. -/
def bulkProgressLoop (one : String → α) (reportProgress? : Nat → Nat → Option UInt8) (total : Nat) :
    List String → List (String × α) → List α → Nat → Except UInt8 (List α)
  | [], _, out, _ => .ok out
  | name :: rest, cache, out, idx =>
    match reportProgress? (idx + 1) total with
    | some status => .error status
    | none =>
      bulkProgressLoop one reportProgress? total rest (Memo.fetch one cache name).2
        (out ++ [(Memo.fetch one cache name).1]) (idx + 1)

def bulkProgress (one : String → α) (reportProgress? : Nat → Nat → Option UInt8)
    (names : List String) : Except UInt8 (List α) :=
  bulkProgressLoop one reportProgress? names.length names [] [] 0

variable {Name : Type} [DecidableEq Name] [LeanName Name] (env : Environment Name)

def nameFromString (s : String) : Name := LeanName.toName s

def envDeclarationTypeBulk : List String → List (Option (Expr Name)) :=
  bulk fun name => envDeclarationType env (LeanName.toName name)

def envDeclarationTypeBulkProgress (reportProgress? : Nat → Nat → Option UInt8) :
    List String → Except UInt8 (List (Option (Expr Name))) :=
  bulkProgress (fun name => envDeclarationType env (LeanName.toName name)) reportProgress?

def envDeclarationKindBulk : List String → List String :=
  bulk fun name => envDeclarationKind env (LeanName.toName name)

def envDeclarationKindBulkProgress (reportProgress? : Nat → Nat → Option UInt8) :
    List String → Except UInt8 (List String) :=
  bulkProgress (fun name => envDeclarationKind env (LeanName.toName name)) reportProgress?

def envDeclarationNameBulk (_env : Environment Name) : List String → List String :=
  bulk fun name => LeanName.toString (LeanName.toName name : Name)

def envDeclarationNameBulkProgress (_env : Environment Name)
    (reportProgress? : Nat → Nat → Option UInt8) : List String → Except UInt8 (List String) :=
  bulkProgress (fun name => LeanName.toString (LeanName.toName name : Name)) reportProgress?

end Shim

/-- What a token answers when it is asked for the first, the second, … time. -/
structure LeanCancellationToken where
  isCancelled : Nat → Bool

def checkCancellation (token : Option LeanCancellationToken) (time : Nat) : Except String Unit :=
  match token with
  | none => .ok ()
  | some token => if token.isCancelled time then .error "cancelled" else .ok ()

/-- `register` is whether a handle is left for the callback, `report` whether the sink returns from
an event. -/
structure LeanProgressSink where
  register : Except String Unit
  report : Nat → Nat → Except String Unit

def reportProgress (sink : Option LeanProgressSink) (current total : Nat) : Except String Unit :=
  match sink with
  | none => .ok ()
  | some sink => sink.report current total

namespace ProgressBridge

def panicStatus : UInt8 := 4

/-- A sink that does not return leaves its message behind. -/
def tick (sink : LeanProgressSink) (current total : Nat) : Option UInt8 :=
  match sink.report current total with
  | .ok () => none
  | .error _ => some panicStatus

def decode {α : Type} (result : Except UInt8 α) : Except String α :=
  match result with
  | .ok value => .ok value
  | .error _ => .error "progress callback panicked without recording a callback error"

end ProgressBridge

/-- An array of strings as Lean hands it out: pointers, and the string behind each. -/
structure StringArray (strings : List String) where
  pointers : List Nat
  heap : Nat → String
  holds : pointers.map heap = strings

def decodeStringsCached {strings : List String} (raw : StringArray strings) : List String :=
  match raw.pointers with
  | [] => []
  | firstKey :: _ =>
    if raw.pointers.all (· == firstKey) then
      List.replicate raw.pointers.length (raw.heap firstKey)
    else raw.pointers.map raw.heap

def allEqualName (names : List String) : Option String :=
  match names with
  | [] => none
  | first :: _ => if names.all (· == first) then some first else none

section Session

variable {Name α : Type} [DecidableEq Name] [LeanName Name]

/-- A query for one declaration by its handle, the exports for many, and what the host makes of
their answers. It takes `fallback` where an export has answered nothing. -/
structure BulkQuery (Name α : Type) where
  one : Environment Name → Name → α
  bulkShim : Environment Name → List String → List α
  progressShim : Environment Name → (Nat → Nat → Option UInt8) → List String →
    Except UInt8 (List α)
  decode : List α → List α
  fallback : α

def typeQuery : BulkQuery Name (Option (Expr Name)) where
  one := envDeclarationType
  bulkShim := Shim.envDeclarationTypeBulk
  progressShim := Shim.envDeclarationTypeBulkProgress
  decode := id
  fallback := none

/-- `handOut` is how Lean lays the strings of an array out in memory. -/
def kindQuery (handOut : (strings : List String) → StringArray strings) :
    BulkQuery Name String where
  one := envDeclarationKind
  bulkShim := Shim.envDeclarationKindBulk
  progressShim := Shim.envDeclarationKindBulkProgress
  decode strings := decodeStringsCached (handOut strings)
  fallback := ""

def nameQuery (handOut : (strings : List String) → StringArray strings) :
    BulkQuery Name String where
  one := envDeclarationName
  bulkShim := Shim.envDeclarationNameBulk
  progressShim := Shim.envDeclarationNameBulkProgress
  decode strings := decodeStringsCached (handOut strings)
  fallback := ""

variable (query : BulkQuery Name α) (env : Environment Name)

/-- Three checks of the token: on entry, before the name is made and after it. -/
def declarationQuery (name : String) (cancellation : Option LeanCancellationToken) (time : Nat) :
    Except String α := do
  checkCancellation cancellation time
  checkCancellation cancellation (time + 1)
  let handle : Name := Shim.nameFromString name
  checkCancellation cancellation (time + 2)
  return query.one env handle

def itemLoop (cancellation : Option LeanCancellationToken) (progress : Option LeanProgressSink)
    (total : Nat) : List String → Nat → List α → Except String (List α)
  | [], _, out => .ok out
  | name :: rest, idx, out => do
    checkCancellation cancellation (4 * idx + 1)
    let value ← declarationQuery query env name cancellation (4 * idx + 2)
    reportProgress progress (idx + 1) total
    itemLoop cancellation progress total rest (idx + 1) (out ++ [value])

def declarationBulk (names : List String) (cancellation : Option LeanCancellationToken)
    (progress : Option LeanProgressSink) : Except String (List α) :=
  if names.isEmpty then .ok []
  else do
    checkCancellation cancellation 0
    match cancellation, progress with
    | some token, progress => itemLoop query env (some token) progress names.length names 0 []
    | none, none =>
      match allEqualName names with
      | some name =>
        let result := query.decode (query.bulkShim env [name])
        return List.replicate names.length (result.getLast?.getD query.fallback)
      | none => return query.decode (query.bulkShim env names)
    | none, some sink =>
      sink.register
      let raw ← ProgressBridge.decode
        (query.progressShim env (ProgressBridge.tick sink) names)
      return query.decode raw

end Session

namespace Shim

variable {α : Type} {one : String → α}

theorem map_of_all_equal {names : List String} {first : String}
    (same : names.all (· == first) = true) :
    names.map one = List.replicate names.length (one first) := by
  rw [List.eq_replicate_iff]
  refine ⟨List.length_map _, fun value member => ?_⟩
  obtain ⟨name, listed, rfl⟩ := List.mem_map.mp member
  rw [beq_iff_eq.mp (List.all_eq_true.mp same name listed)]

theorem bulkLoop_eq {names : List String} {cache : List (String × α)} (sound : Memo.Sound one cache)
    (out : List α) : bulkLoop one names cache out = out ++ names.map one := by
  induction names generalizing cache out with
  | nil => exact (List.append_nil out).symm
  | cons name rest ih =>
    obtain ⟨value, kept⟩ := sound.fetch name
    unfold bulkLoop
    rw [ih kept, value, List.append_assoc]
    rfl

theorem bulk_eq (names : List String) : bulk one names = names.map one := by
  unfold bulk
  split
  · rfl
  · split
    · rename_i same
      exact (map_of_all_equal same).symm
    · exact bulkLoop_eq Memo.sound_nil []

theorem bulkProgressLoop_eq {reportProgress? : Nat → Nat → Option UInt8} {total : Nat}
    (quiet : ∀ current, reportProgress? current total = none) {names : List String}
    {cache : List (String × α)} (sound : Memo.Sound one cache) (out : List α) (idx : Nat) :
    bulkProgressLoop one reportProgress? total names cache out idx =
      .ok (out ++ names.map one) := by
  induction names generalizing cache out idx with
  | nil => rw [List.map_nil, List.append_nil, bulkProgressLoop]
  | cons name rest ih =>
    obtain ⟨value, kept⟩ := sound.fetch name
    unfold bulkProgressLoop
    rw [quiet]
    dsimp only
    rw [ih kept, value, List.append_assoc]
    rfl

theorem bulkProgress_eq {reportProgress? : Nat → Nat → Option UInt8}
    (quiet : ∀ current total, reportProgress? current total = none) (names : List String) :
    bulkProgress one reportProgress? names = .ok (names.map one) :=
  bulkProgressLoop_eq (fun current => quiet current names.length) Memo.sound_nil [] 0

end Shim

theorem decodeStringsCached_eq {strings : List String} (raw : StringArray strings) :
    decodeStringsCached raw = strings := by
  obtain ⟨pointers, heap, rfl⟩ := raw
  unfold decodeStringsCached
  dsimp only
  cases pointers with
  | nil => rfl
  | cons firstKey rest =>
    dsimp only
    split
    · rename_i same
      refine (List.eq_replicate_iff.mpr ⟨List.length_map _, fun value member => ?_⟩).symm
      obtain ⟨key, listed, rfl⟩ := List.mem_map.mp member
      rw [beq_iff_eq.mp (List.all_eq_true.mp same key listed)]
    · rfl

def LeanProgressSink.NeverStops (sink : LeanProgressSink) : Prop :=
  sink.register = .ok () ∧ ∀ current total, sink.report current total = .ok ()

def LeanCancellationToken.NeverCancelled (token : LeanCancellationToken) : Prop :=
  ∀ time, token.isCancelled time = false

section Session

variable {Name α : Type} [LeanName Name]

/-- The exports answer every name as the query for one declaration does, and decoding keeps that. -/
structure BulkQuery.Lawful (query : BulkQuery Name α) (env : Environment Name) : Prop where
  bulkShim : ∀ names, query.bulkShim env names =
    names.map fun name => query.one env (LeanName.toName name)
  progressShim : ∀ reportProgress?, (∀ current total, reportProgress? current total = none) →
    ∀ names, query.progressShim env reportProgress? names =
      .ok (names.map fun name => query.one env (LeanName.toName name))
  decode : ∀ values, query.decode values = values

theorem typeQuery_lawful [DecidableEq Name] (env : Environment Name) : typeQuery.Lawful env where
  bulkShim := Shim.bulk_eq
  progressShim _ quiet := Shim.bulkProgress_eq quiet
  decode _ := rfl

variable (handOut : (strings : List String) → StringArray strings)

theorem kindQuery_lawful [DecidableEq Name] (env : Environment Name) :
    (kindQuery handOut).Lawful env where
  bulkShim := Shim.bulk_eq
  progressShim _ quiet := Shim.bulkProgress_eq quiet
  decode values := decodeStringsCached_eq (handOut values)

theorem nameQuery_lawful (env : Environment Name) : (nameQuery handOut).Lawful env where
  bulkShim := Shim.bulk_eq
  progressShim _ quiet := Shim.bulkProgress_eq quiet
  decode values := decodeStringsCached_eq (handOut values)

/-! The queries of the host when nothing stops them. -/

section Undisturbed

variable {query : BulkQuery Name α} {env : Environment Name}
  {cancellation : Option LeanCancellationToken} {progress : Option LeanProgressSink}

def answers (query : BulkQuery Name α) (env : Environment Name) (names : List String) : List α :=
  names.map fun name => query.one env (LeanName.toName name)

theorem declarationQuery_ok (live : ∀ time, checkCancellation cancellation time = .ok ())
    (name : String) (time : Nat) : declarationQuery query env name cancellation time =
      .ok (query.one env (LeanName.toName name)) := by
  unfold declarationQuery
  rw [live, live, live]
  rfl

theorem itemLoop_ok (live : ∀ time, checkCancellation cancellation time = .ok ())
    (quiet : ∀ current total, reportProgress progress current total = .ok ()) (total : Nat)
    (names : List String) (idx : Nat) (out : List α) :
    itemLoop query env cancellation progress total names idx out =
      .ok (out ++ answers query env names) := by
  induction names generalizing idx out with
  | nil =>
    unfold answers
    rw [List.map_nil, List.append_nil, itemLoop]
  | cons name rest ih =>
    unfold itemLoop
    rw [live, declarationQuery_ok live]
    change (reportProgress progress (idx + 1) total >>= fun _ => _) = _
    rw [quiet]
    change itemLoop query env cancellation progress total rest (idx + 1) _ = _
    rw [ih, List.append_assoc]
    rfl

theorem allEqualName_some {names : List String} {name : String}
    (found : allEqualName names = some name) :
    names.all (· == name) = true := by
  unfold allEqualName at found
  split at found
  · cases found
  · split at found
    · rename_i same
      cases found
      exact same
    · cases found

theorem declarationBulk_plain (lawful : query.Lawful env) (names : List String) :
    declarationBulk query env names none none = .ok (answers query env names) := by
  unfold declarationBulk
  cases names with
  | nil => rfl
  | cons first rest =>
    rw [List.isEmpty_cons, if_neg Bool.false_ne_true]
    change (match allEqualName (first :: rest) with
      | some name => _
      | none => _) = _
    cases equal : allEqualName (first :: rest) with
    | none =>
      dsimp only
      rw [lawful.decode, lawful.bulkShim]
      rfl
    | some name =>
      dsimp only
      rw [lawful.decode, lawful.bulkShim]
      have same : answers query env (first :: rest) = _ :=
        Shim.map_of_all_equal (allEqualName_some equal)
      exact congrArg Except.ok same.symm

theorem declarationBulk_sink (lawful : query.Lawful env) {sink : LeanProgressSink}
    (quiet : sink.NeverStops) (names : List String) :
    declarationBulk query env names none (some sink) = .ok (answers query env names) := by
  have ticks : ∀ current total, ProgressBridge.tick sink current total = none := by
    intro current total
    unfold ProgressBridge.tick
    rw [quiet.2]
  unfold declarationBulk
  cases names with
  | nil => rfl
  | cons first rest =>
    rw [List.isEmpty_cons, if_neg Bool.false_ne_true]
    change (sink.register >>= fun _ => _) = _
    rw [quiet.1]
    change (ProgressBridge.decode (query.progressShim env _ _) >>= fun raw => _) = _
    rw [lawful.progressShim _ ticks]
    change Except.ok (query.decode _) = _
    rw [lawful.decode]
    rfl

theorem declarationBulk_token {token : LeanCancellationToken} (live : token.NeverCancelled)
    (quiet : ∀ current total, reportProgress progress current total = .ok ())
    (names : List String) :
    declarationBulk query env names (some token) progress = .ok (answers query env names) := by
  have checks : ∀ time, checkCancellation (some token) time = .ok () := by
    intro time
    unfold checkCancellation
    dsimp only
    rw [live time]
    rfl
  unfold declarationBulk
  cases names with
  | nil => rfl
  | cons first rest =>
    rw [List.isEmpty_cons, if_neg Bool.false_ne_true, checks]
    exact itemLoop_ok checks quiet _ _ 0 []

end Undisturbed

/-- Every way to ask for many names gives, in order, what the query for each name gives. -/
structure BulkAgrees (query : BulkQuery Name α) (env : Environment Name) (names : List String)
    (sink : LeanProgressSink) (token : LeanCancellationToken) (results : List α) : Prop where
  length : results.length = names.length
  singular : List.Forall₂ (fun name result => declarationQuery query env name none 0 = .ok result)
    names results
  plain : declarationBulk query env names none none = .ok results
  withSink : declarationBulk query env names none (some sink) = .ok results
  withToken : declarationBulk query env names (some token) none = .ok results
  withBoth : declarationBulk query env names (some token) (some sink) = .ok results

theorem bulkAgrees_of_lawful {query : BulkQuery Name α} {env : Environment Name}
    (lawful : query.Lawful env) (names : List String) {sink : LeanProgressSink}
    {token : LeanCancellationToken} (quiet : sink.NeverStops) (live : token.NeverCancelled) :
    BulkAgrees query env names sink token (answers query env names) where
  length := List.length_map _
  singular := by
    unfold answers
    rw [List.forall₂_map_right_iff, List.forall₂_same]
    exact fun name _ => declarationQuery_ok (fun _ => rfl) name 0
  plain := declarationBulk_plain lawful names
  withSink := declarationBulk_sink lawful quiet names
  withToken := declarationBulk_token live (fun _ _ => rfl) names
  withBoth :=
    have reports : ∀ current total, reportProgress (some sink) current total = .ok () := quiet.2
    declarationBulk_token live reports names

/-- Bulk queries for types, kinds and display names are the query for one name, mapped. -/
theorem declaration_bulk_exact [DecidableEq Name] (env : Environment Name) (names : List String)
    {sink : LeanProgressSink} {token : LeanCancellationToken} (quiet : sink.NeverStops)
    (live : token.NeverCancelled) :
    (∃ types, BulkAgrees typeQuery env names sink token types) ∧
      (∃ kinds, BulkAgrees (kindQuery handOut) env names sink token kinds) ∧
      ∃ displayNames, BulkAgrees (nameQuery handOut) env names sink token displayNames :=
  ⟨⟨_, bulkAgrees_of_lawful (typeQuery_lawful env) names quiet live⟩,
    ⟨_, bulkAgrees_of_lawful (kindQuery_lawful handOut env) names quiet live⟩,
    ⟨_, bulkAgrees_of_lawful (nameQuery_lawful handOut env) names quiet live⟩⟩

end Session

def ownCells (strings : List String) : StringArray strings where
  pointers := List.range strings.length
  heap i := strings[i]?.getD ""
  holds := by
    apply List.ext_getElem
    · rw [List.length_map, List.length_range]
    · intro i _ h
      rw [List.getElem_map, List.getElem_range, List.getElem?_eq_getElem h, Option.getD_some]

theorem repeated_names_agree :
    (∃ types, BulkAgrees typeQuery oneAxiom ["t", "t", "u"] ⟨.ok (), fun _ _ => .ok ()⟩
        ⟨fun _ => false⟩ types) ∧
      (∃ kinds, BulkAgrees (kindQuery ownCells) oneAxiom ["t", "t", "u"]
        ⟨.ok (), fun _ _ => .ok ()⟩ ⟨fun _ => false⟩ kinds) ∧
      ∃ displayNames, BulkAgrees (nameQuery ownCells) oneAxiom ["t", "t", "u"]
        ⟨.ok (), fun _ _ => .ok ()⟩ ⟨fun _ => false⟩ displayNames :=
  declaration_bulk_exact ownCells oneAxiom ["t", "t", "u"] ⟨rfl, fun _ _ => rfl⟩ fun _ => rfl

end LeanRs
