import Mathlib.Data.String.Basic
import LeanRs.General.QuickSort
import LeanRs.General.Text
import LeanRs.Shims.ByteBound
import LeanRs.Shims.Environment
import Mathlib.Algebra.Order.Ring.Int

/-! The search for declarations: the shim filters, scores and ranks the constants of an environment,
and the host decodes the rows that are left. -/
namespace LeanRs

inductive DeclarationNameMatch where
  | contains
  | suffix
  deriving DecidableEq

inductive DeclarationSearchScope where
  | namespace
  | module
  deriving DecidableEq

structure DeclarationSearchBias where
  scope : DeclarationSearchScope
  scopePrefix : String
  strict : Bool
  weight : Int32

structure LeanDeclarationFilter where
  includePrivate : Bool
  includeGenerated : Bool
  includeInternal : Bool

structure DeclarationSearchRequest where
  nameFragment : Option String
  nameMatch : DeclarationNameMatch
  kind : Option String
  requiredConstants : List String
  conclusionHead : Option String
  scopeBiases : List DeclarationSearchBias
  limit : Nat
  filter : LeanDeclarationFilter
  includeSource : Bool

namespace Shim

structure DeclarationFilter where
  includePrivate : Nat
  includeGenerated : Nat
  includeInternal : Nat

structure DeclarationSearchBias where
  scope : Nat
  scopePrefix : String
  isStrict : Nat
  weight : String

structure DeclarationSearchRequest where
  nameFragment : Option String
  nameMatch : Nat
  kind : Option String
  requiredConstants : List String
  conclusionHead : Option String
  scopeBiases : List DeclarationSearchBias
  limit : Nat
  filter : DeclarationFilter
  includeSource : Nat

structure DeclarationFlags where
  isPrivate : Nat
  isGenerated : Nat
  isInternal : Nat

structure DeclarationSearchRow where
  name : String
  kind : String
  module : Option String
  source : Option SourceRange
  matchReason : String
  score : String
  rank : Nat
  flags : DeclarationFlags

structure DeclarationSearchPruning where
  stage : String
  reason : String
  count : Nat

structure DeclarationSearchFacts where
  declarationsScanned : Nat
  afterNameFilter : Nat
  afterKindFilter : Nat
  afterRequiredConstantsFilter : Nat
  afterConclusionFilter : Nat
  afterScopeFilter : Nat
  sourceLookups : Nat
  broadPruning : List DeclarationSearchPruning
  truncated : Nat

structure DeclarationSearchResult where
  declarations : List DeclarationSearchRow
  truncated : Nat
  facts : DeclarationSearchFacts

section

variable {Name : Type} [LeanName Name]

open LeanName hiding toString

def isGeneratedName (name : Name) : Bool :=
  (hasMacroScopes name || hasNum name) && !isPrivateName name

def isInternalName (name : Name) : Bool :=
  isInternalDetail name && !isPrivateName name && !isGeneratedName name

def keepDeclaration (filter : DeclarationFilter) (name : Name) : Bool :=
  (filter.includePrivate != 0 || !isPrivateName name) &&
    (filter.includeGenerated != 0 || !isGeneratedName name) &&
    (filter.includeInternal != 0 || !isInternalName name)

structure DeclarationSearchCandidate (Name : Type) where
  name : Name
  nameString : String
  kind : String
  moduleName : Option String
  matchReason : String
  score : Int
  flags : DeclarationFlags

def clampSearchLimit (limit : Nat) : Nat := max 1 (min limit 100)

def isBoundaryPrefix (pref value : String) : Bool :=
  value == pref || value.startsWith (pref ++ ".")

def requiredConstantsPresent [DecidableEq Name] (required : List String) (type : Expr Name) :
    Bool :=
  required.all fun name => type.usedConstants.contains (toName name)

def matchesNameFragment (request : DeclarationSearchRequest) (name : String) : Bool :=
  match request.nameFragment with
  | none => true
  | some fragment =>
    if fragment.isEmpty then true
    else
      let haystack := name.toLower
      let needle := fragment.toLower
      if request.nameMatch == 1 then haystack.endsWith needle else haystack.contains needle

def biasMatches (bias : DeclarationSearchBias) (name : String) (moduleName : Option String) :
    Bool :=
  if bias.scope == 1 then
    moduleName.any fun moduleName => isBoundaryPrefix bias.scopePrefix moduleName
  else isBoundaryPrefix bias.scopePrefix name

def matchesStrictScope (request : DeclarationSearchRequest) (name : String)
    (moduleName : Option String) : Bool :=
  request.scopeBiases.all fun bias =>
    if bias.isStrict == 0 then true else biasMatches bias name moduleName

def toInt? (text : String) : Option Int := Text.toInt? text.toList

def scopeBiasScore (request : DeclarationSearchRequest) (name : String)
    (moduleName : Option String) : Int :=
  request.scopeBiases.foldl (fun score bias =>
    if biasMatches bias name moduleName then score + (toInt? bias.weight).getD 0 else score) 0

def isBroadDeclarationSearch (request : DeclarationSearchRequest) : Bool :=
  request.nameFragment.all String.isEmpty && request.requiredConstants.isEmpty &&
    request.conclusionHead.isNone && request.scopeBiases.all fun bias => bias.isStrict == 0

def searchMatchReason (request : DeclarationSearchRequest) : String :=
  let reasons :=
    (if request.nameFragment.any fun fragment => !fragment.isEmpty then ["name"] else []) ++
    (if request.kind.isSome then ["kind"] else []) ++
    (if !request.requiredConstants.isEmpty then ["required_constants"] else []) ++
    (if request.conclusionHead.isSome then ["conclusion_head"] else []) ++
    (if request.scopeBiases.any fun bias => bias.isStrict != 0 then ["strict_scope"] else [])
  if reasons.isEmpty then "broad" else String.intercalate "," reasons

def declarationSearchBaseScore (request : DeclarationSearchRequest) (name kind : String)
    (moduleName : Option String) : Int :=
  let score : Int := 0
  let score := if request.nameFragment.any fun fragment =>
    !fragment.isEmpty && name.toLower == fragment.toLower then score + 100 else score
  let score := if request.nameFragment.any fun fragment =>
    !fragment.isEmpty && name.toLower.endsWith fragment.toLower then score + 40 else score
  let score := if request.kind == some kind then score + 20 else score
  let score := if !request.requiredConstants.isEmpty then score + 30 else score
  let score := if request.conclusionHead.isSome then score + 30 else score
  score + scopeBiasScore request name moduleName

def candidateLess (a b : DeclarationSearchCandidate Name) : Bool :=
  a.score > b.score || (a.score == b.score && a.nameString < b.nameString)

structure Scan (Name : Type) where
  scanned : Nat
  afterName : Nat
  afterKind : Nat
  afterRequired : Nat
  afterConclusion : Nat
  afterScope : Nat
  candidates : List (DeclarationSearchCandidate Name)

def Scan.start : Scan Name := ⟨0, 0, 0, 0, 0, 0, []⟩

def scanConstant [DecidableEq Name] (env : Environment Name) (request : DeclarationSearchRequest)
    (scan : Scan Name) (entry : Name × ConstantInfo Name) : Scan Name :=
  let (name, info) := entry
  let conclusionHead : Option Name := request.conclusionHead.map toName
  let scan := { scan with scanned := scan.scanned + 1 }
  if !keepDeclaration request.filter name then scan
  else
    let nameString := LeanName.toString name
    if !matchesNameFragment request nameString then scan
    else
      let scan := { scan with afterName := scan.afterName + 1 }
      let kind := declarationKindOf info
      if request.kind.any (· != kind) then scan
      else
        let scan := { scan with afterKind := scan.afterKind + 1 }
        if !requiredConstantsPresent request.requiredConstants info.type then scan
        else
          let scan := { scan with afterRequired := scan.afterRequired + 1 }
          if conclusionHead.any fun wanted => info.type.conclusionHead? != some wanted then scan
          else
            let scan := { scan with afterConclusion := scan.afterConclusion + 1 }
            let moduleName := (env.declarationModule? name).map LeanName.toString
            if !matchesStrictScope request nameString moduleName then scan
            else
              let scan := { scan with afterScope := scan.afterScope + 1 }
              let flags : DeclarationFlags :=
                { isPrivate := if isPrivateName name then 1 else 0
                  isGenerated := if isGeneratedName name then 1 else 0
                  isInternal := if isInternalName name then 1 else 0 }
              { scan with
                candidates := scan.candidates ++
                  [{ name
                     nameString
                     kind
                     moduleName
                     matchReason := searchMatchReason request
                     score := declarationSearchBaseScore request nameString kind moduleName
                     flags }] }

def searchRow (candidate : DeclarationSearchCandidate Name) (source : Option SourceRange)
    (idx : Nat) : DeclarationSearchRow where
  name := candidate.nameString
  kind := candidate.kind
  module := candidate.moduleName
  source
  matchReason := candidate.matchReason
  score := candidate.score.repr
  rank := idx + 1
  flags := candidate.flags

def rowSource (request : DeclarationSearchRequest)
    (sourceRange : Name → Except String (Option SourceRange)) (name : Name) :
    Except String (Option SourceRange) :=
  if request.includeSource != 0 then sourceRange name else pure none

/-- The rows of the selected candidates, from the index of the first on. -/
def searchRows (request : DeclarationSearchRequest)
    (sourceRange : Name → Except String (Option SourceRange)) :
    Nat → List (DeclarationSearchCandidate Name) → Except String (List DeclarationSearchRow)
  | _, [] => .ok []
  | idx, candidate :: rest => do
    let source ← rowSource request sourceRange candidate.name
    let rows ← searchRows request sourceRange (idx + 1) rest
    return searchRow candidate source idx :: rows

def envSearchDeclarations [DecidableEq Name] (env : Environment Name)
    (findFile? : List String → Name → Except String (Option String))
    (request : DeclarationSearchRequest) (sourceRoots : List String) :
    Except String DeclarationSearchResult := do
  let limit := clampSearchLimit request.limit
  let scan := env.constants.foldl (scanConstant env request) Scan.start
  let ranked := (QuickSort.qsort scan.candidates.toArray candidateLess).toList
  let truncated : Bool := ranked.length > limit
  let selected := ranked.take (min ranked.length limit)
  let rows ← searchRows request
    (fun name => envDeclarationSourceRange env findFile? name sourceRoots) 0 selected
  let broadPruning :=
    if isBroadDeclarationSearch request && truncated then
      [⟨"limit", "broad_search_limit", ranked.length - selected.length⟩]
    else []
  return { declarations := rows
           truncated := if truncated then 1 else 0
           facts :=
             { declarationsScanned := scan.scanned
               afterNameFilter := scan.afterName
               afterKindFilter := scan.afterKind
               afterRequiredConstantsFilter := scan.afterRequired
               afterConclusionFilter := scan.afterConclusion
               afterScopeFilter := scan.afterScope
               sourceLookups := if request.includeSource != 0 then selected.length else 0
               broadPruning
               truncated := if truncated then 1 else 0 } }

end

end Shim

def DeclarationNameMatch.intoLeanObj : DeclarationNameMatch → Nat
  | .contains => 0
  | .suffix => 1

def DeclarationSearchScope.intoLeanObj : DeclarationSearchScope → Nat
  | .namespace => 0
  | .module => 1

def DeclarationSearchBias.intoLeanObj (bias : DeclarationSearchBias) :
    Shim.DeclarationSearchBias where
  scope := bias.scope.intoLeanObj
  scopePrefix := bias.scopePrefix
  isStrict := natOfBool bias.strict
  weight := bias.weight.toInt.repr

def DeclarationSearchRequest.intoLeanObj (request : DeclarationSearchRequest) :
    Shim.DeclarationSearchRequest where
  nameFragment := request.nameFragment
  nameMatch := request.nameMatch.intoLeanObj
  kind := request.kind
  requiredConstants := request.requiredConstants
  conclusionHead := request.conclusionHead
  scopeBiases := request.scopeBiases.map fun bias => bias.intoLeanObj
  limit := request.limit
  filter :=
    ⟨natOfBool request.filter.includePrivate, natOfBool request.filter.includeGenerated,
      natOfBool request.filter.includeInternal⟩
  includeSource := natOfBool request.includeSource

structure LeanSourceRange where
  file : String
  startLine : Nat
  startColumn : Nat
  endLine : Nat
  endColumn : Nat

structure DeclarationFlags where
  isPrivate : Bool
  isGenerated : Bool
  isInternal : Bool

structure DeclarationSearchRow where
  name : String
  kind : String
  module : Option String
  source : Option LeanSourceRange
  matchReason : String
  score : Int32
  rank : Nat
  flags : DeclarationFlags

structure DeclarationSearchPruning where
  stage : String
  reason : String
  count : Nat

structure DeclarationSearchFacts where
  declarationsScanned : Nat
  afterNameFilter : Nat
  afterKindFilter : Nat
  afterRequiredConstantsFilter : Nat
  afterConclusionFilter : Nat
  afterScopeFilter : Nat
  sourceLookups : Nat
  broadPruning : List DeclarationSearchPruning
  truncated : Bool

structure DeclarationSearchResult where
  declarations : List DeclarationSearchRow
  truncated : Bool
  facts : DeclarationSearchFacts

namespace DeclarationDecode

/-- Numbers from `2 ^ 63` on are not scalars. -/
def natToUsize (n : Nat) : Except String Nat :=
  if n < 2 ^ 63 then .ok n
  else .error "expected Lean Nat (scalar-fitting), found object with tag 250"

def natToU32 (n : Nat) : Except String Nat :=
  if n < 2 ^ 63 then if n < 2 ^ 32 then .ok n else .error "Lean value does not fit Rust u32"
  else .error "expected Lean u32, found object with tag 250"

def boolFromNat (n : Nat) : Except String Bool := do
  return (← natToUsize n) != 0

def parseI32 (text : String) : Option Int32 :=
  match Text.signed? text.toList with
  | none => none
  | some i => if -2 ^ 31 ≤ i ∧ i < 2 ^ 31 then some (Int32.ofInt i) else none

def sourceRange (range : SourceRange) : Except String LeanSourceRange := do
  return { file := range.file
           startLine := ← natToU32 range.startLine
           startColumn := ← natToU32 range.startColumn
           endLine := ← natToU32 range.endLine
           endColumn := ← natToU32 range.endColumn }

def source (range : Option SourceRange) : Except String (Option LeanSourceRange) :=
  match range with
  | none => .ok none
  | some range => do return some (← sourceRange range)

def flags (flags : Shim.DeclarationFlags) : Except String DeclarationFlags := do
  return { isPrivate := ← boolFromNat flags.isPrivate
           isGenerated := ← boolFromNat flags.isGenerated
           isInternal := ← boolFromNat flags.isInternal }

def score (text : String) : Except String Int32 :=
  match parseI32 text with
  | some value => .ok value
  | none => .error "score does not fit i32"

def row (row : Shim.DeclarationSearchRow) : Except String DeclarationSearchRow := do
  return { name := row.name
           kind := row.kind
           module := row.module
           source := ← source row.source
           matchReason := row.matchReason
           score := ← score row.score
           rank := ← natToUsize row.rank
           flags := ← flags row.flags }

def pruning (pruning : Shim.DeclarationSearchPruning) : Except String DeclarationSearchPruning := do
  return { stage := pruning.stage, reason := pruning.reason, count := ← natToUsize pruning.count }

def facts (facts : Shim.DeclarationSearchFacts) : Except String DeclarationSearchFacts := do
  return { declarationsScanned := ← natToUsize facts.declarationsScanned
           afterNameFilter := ← natToUsize facts.afterNameFilter
           afterKindFilter := ← natToUsize facts.afterKindFilter
           afterRequiredConstantsFilter := ← natToUsize facts.afterRequiredConstantsFilter
           afterConclusionFilter := ← natToUsize facts.afterConclusionFilter
           afterScopeFilter := ← natToUsize facts.afterScopeFilter
           sourceLookups := ← natToUsize facts.sourceLookups
           broadPruning := ← facts.broadPruning.mapM pruning
           truncated := ← boolFromNat facts.truncated }

def result (result : Shim.DeclarationSearchResult) : Except String DeclarationSearchResult := do
  return { declarations := ← result.declarations.mapM row
           truncated := ← boolFromNat result.truncated
           facts := ← facts result.facts }

end DeclarationDecode

def searchDeclarations {Name : Type} [DecidableEq Name] [LeanName Name] (env : Environment Name)
    (findFile? : List String → Name → Except String (Option String)) (sourceRoots : List String)
    (search : DeclarationSearchRequest) : Except String DeclarationSearchResult := do
  let sourceRoots := if search.includeSource then sourceRoots else []
  DeclarationDecode.result
    (← Shim.envSearchDeclarations env findFile? search.intoLeanObj sourceRoots)

end LeanRs
