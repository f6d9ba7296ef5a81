import LeanRs.General.Fallible
import LeanRs.Shims.DeclarationSearch

/-! What a search for declarations is meant to find, and that the scan, the ranking and the decoder
find it. -/
namespace LeanRs

open LeanName hiding toString

variable {Name : Type} [LeanName Name] [DecidableEq Name]

def LeanDeclarationFilter.keeps (filter : LeanDeclarationFilter) (name : Name) : Bool :=
  (filter.includePrivate || !isPrivateName name) &&
    (filter.includeGenerated || !Shim.isGeneratedName name) &&
    (filter.includeInternal || !Shim.isInternalName name)

namespace DeclarationSearchRequest

variable (env : Environment Name) (request : DeclarationSearchRequest)
  (entry : Name × ConstantInfo Name)

def moduleOf : Option String := (env.declarationModule? entry.1).map LeanName.toString

def hasFragment (name : String) : Bool :=
  match request.nameFragment with
  | none => true
  | some fragment => fragment.isEmpty ||
    match request.nameMatch with
    | .contains => name.toLower.contains fragment.toLower
    | .suffix => name.toLower.endsWith fragment.toLower

def wantsName : Bool :=
  request.filter.keeps entry.1 && request.hasFragment (LeanName.toString entry.1)

def wantsKind : Bool := request.kind.all (· == declarationKindOf entry.2)

def wantsConstants : Bool :=
  request.requiredConstants.all fun name => entry.2.type.usedConstants.contains (toName name)

def wantsConclusion : Bool :=
  request.conclusionHead.all fun head => entry.2.type.conclusionHead? == some (toName head)

def covers (bias : DeclarationSearchBias) : Bool :=
  match bias.scope with
  | .namespace => Shim.isBoundaryPrefix bias.scopePrefix (LeanName.toString entry.1)
  | .module => (moduleOf env entry).any (Shim.isBoundaryPrefix bias.scopePrefix)

def wantsScope : Bool := request.scopeBiases.all fun bias => !bias.strict || covers env entry bias

def baseScore : Int :=
  let fragment (test : String → String → Bool) : Bool := request.nameFragment.any fun fragment =>
    !fragment.isEmpty && test (LeanName.toString entry.1).toLower fragment.toLower
  (if fragment (· == ·) then 100 else 0) +
    (if fragment fun name needle => name.endsWith needle then 40 else 0) +
    (if request.kind == some (declarationKindOf entry.2) then 20 else 0) +
    (if !request.requiredConstants.isEmpty then 30 else 0) +
    (if request.conclusionHead.isSome then 30 else 0)

def exactScore : Int :=
  baseScore request entry +
    ((request.scopeBiases.filter (covers env entry)).map (·.weight.toInt)).sum

variable (constants : List (Name × ConstantInfo Name))

/-! The constants that are left after each filter. -/

def named : List (Name × ConstantInfo Name) := constants.filter (wantsName request)

def ofKind : List (Name × ConstantInfo Name) := (named request constants).filter (wantsKind request)

def mentioning : List (Name × ConstantInfo Name) :=
  (ofKind request constants).filter (wantsConstants request)

def concluding : List (Name × ConstantInfo Name) :=
  (mentioning request constants).filter (wantsConclusion request)

def matching : List (Name × ConstantInfo Name) :=
  (concluding request constants).filter (wantsScope env request)

def candidate : Shim.DeclarationSearchCandidate Name where
  name := entry.1
  nameString := LeanName.toString entry.1
  kind := declarationKindOf entry.2
  moduleName := moduleOf env entry
  matchReason := Shim.searchMatchReason request.intoLeanObj
  score := exactScore env request entry
  flags :=
    { isPrivate := natOfBool (isPrivateName entry.1)
      isGenerated := natOfBool (Shim.isGeneratedName entry.1)
      isInternal := natOfBool (Shim.isInternalName entry.1) }

def scanOf : Shim.Scan Name where
  scanned := constants.length
  afterName := (named request constants).length
  afterKind := (ofKind request constants).length
  afterRequired := (mentioning request constants).length
  afterConclusion := (concluding request constants).length
  afterScope := (matching env request constants).length
  candidates := (matching env request constants).map (candidate env request)

omit [DecidableEq Name] in
theorem keeps_intoLeanObj (name : Name) :
    Shim.keepDeclaration request.intoLeanObj.filter name = request.filter.keeps name := by
  have flag : ∀ b : Bool, (natOfBool b != 0) = b := by decide
  unfold Shim.keepDeclaration LeanDeclarationFilter.keeps
  dsimp only [intoLeanObj]
  rw [flag, flag, flag]

theorem hasFragment_intoLeanObj (name : String) :
    Shim.matchesNameFragment request.intoLeanObj name = request.hasFragment name := by
  have suffix : (DeclarationNameMatch.contains.intoLeanObj == 1) = false ∧
      (DeclarationNameMatch.suffix.intoLeanObj == 1) = true := by decide
  unfold Shim.matchesNameFragment hasFragment
  rw [show request.intoLeanObj.nameFragment = request.nameFragment from rfl,
    show request.intoLeanObj.nameMatch = request.nameMatch.intoLeanObj from rfl]
  cases wanted : request.nameFragment with
  | none => rfl
  | some fragment =>
    cases empty : fragment.isEmpty <;> cases order : request.nameMatch <;>
      simp only [empty, suffix, if_true, Bool.false_or, Bool.true_or, Bool.false_eq_true, if_false]

omit [LeanName Name] [DecidableEq Name] in
theorem wantsKind_intoLeanObj :
    (request.intoLeanObj.kind.any fun kind => kind != declarationKindOf entry.2) =
      !wantsKind request entry := by
  unfold wantsKind
  dsimp only [intoLeanObj]
  cases request.kind with
  | none => rfl
  | some kind => rfl

theorem wantsConclusion_intoLeanObj :
    ((request.intoLeanObj.conclusionHead.map toName).any fun wanted =>
      entry.2.type.conclusionHead? != some wanted) = !wantsConclusion request entry := by
  unfold wantsConclusion
  dsimp only [intoLeanObj]
  cases request.conclusionHead with
  | none => rfl
  | some head => rfl

omit [DecidableEq Name] in
theorem covers_intoLeanObj (bias : DeclarationSearchBias) :
    Shim.biasMatches bias.intoLeanObj (LeanName.toString entry.1) (moduleOf env entry) =
      covers env entry bias := by
  cases order : bias.scope <;>
    simp [Shim.biasMatches, covers, DeclarationSearchBias.intoLeanObj, order,
      DeclarationSearchScope.intoLeanObj]

omit [DecidableEq Name] in
theorem wantsScope_intoLeanObj :
    Shim.matchesStrictScope request.intoLeanObj (LeanName.toString entry.1) (moduleOf env entry) =
      wantsScope env request entry := by
  unfold Shim.matchesStrictScope wantsScope
  dsimp only [intoLeanObj]
  rw [List.all_map]
  congr 1
  funext bias
  dsimp only [Function.comp]
  rw [covers_intoLeanObj]
  cases strict : bias.strict with
  | false => simp [DeclarationSearchBias.intoLeanObj, strict, natOfBool]
  | true => simp [DeclarationSearchBias.intoLeanObj, strict, natOfBool]

omit [DecidableEq Name] in
theorem scopeBiasScore_intoLeanObj :
    Shim.scopeBiasScore request.intoLeanObj (LeanName.toString entry.1) (moduleOf env entry) =
      ((request.scopeBiases.filter (covers env entry)).map (·.weight.toInt)).sum := by
  have weight (bias : DeclarationSearchBias) :
      Shim.toInt? bias.intoLeanObj.weight = some bias.weight.toInt :=
    Text.toInt?_repr bias.weight.toInt
  unfold Shim.scopeBiasScore
  have biases : request.intoLeanObj.scopeBiases =
      request.scopeBiases.map fun bias => bias.intoLeanObj := rfl
  rw [biases, List.foldl_map, ← Int.zero_add (List.sum _)]
  simp only [weight, covers_intoLeanObj, Option.getD_some]
  generalize (0 : Int) = score
  induction request.scopeBiases generalizing score with
  | nil => exact (Int.add_zero score).symm
  | cons bias rest ih =>
    rw [List.foldl_cons, List.filter_cons, ih]
    cases covers env entry bias with
    | false => rfl
    | true =>
      rw [if_pos rfl, if_pos rfl, List.map_cons, List.sum_cons, Int.add_assoc]

omit [LeanName Name] [DecidableEq Name] in
theorem add_if (c : Bool) (score points : Int) :
    (if c = true then score + points else score) = score + if c = true then points else 0 := by
  cases c with
  | false => exact (Int.add_zero score).symm
  | true => rfl

omit [DecidableEq Name] in
theorem exactScore_intoLeanObj :
    Shim.declarationSearchBaseScore request.intoLeanObj (LeanName.toString entry.1)
      (declarationKindOf entry.2) (moduleOf env entry) = exactScore env request entry := by
  unfold Shim.declarationSearchBaseScore exactScore baseScore
  rw [scopeBiasScore_intoLeanObj]
  simp only [add_if, Int.zero_add]
  rfl

theorem scanConstant_of :
    Shim.scanConstant env request.intoLeanObj (scanOf env request constants) entry =
      scanOf env request (constants ++ [entry]) := by
  have name : wantsName request entry = (request.filter.keeps entry.1 &&
    request.hasFragment (LeanName.toString entry.1)) := rfl
  have required : Shim.requiredConstantsPresent request.intoLeanObj.requiredConstants entry.2.type =
      wantsConstants request entry := rfl
  have scope := wantsScope_intoLeanObj env request entry
  have score := exactScore_intoLeanObj env request entry
  unfold moduleOf at scope score
  unfold Shim.scanConstant
  dsimp only
  rw [keeps_intoLeanObj, hasFragment_intoLeanObj, wantsKind_intoLeanObj, required,
    wantsConclusion_intoLeanObj, scope, score]
  unfold scanOf matching concluding mentioning ofKind named
  simp only [List.filter_append, List.filter_cons, List.filter_nil]
  cases kept : request.filter.keeps entry.1 with
  | false => simp [name, kept]
  | true =>
    cases fragment : request.hasFragment (LeanName.toString entry.1) with
    | false => simp [name, kept, fragment]
    | true =>
      cases kind : wantsKind request entry with
      | false => simp [name, kept, fragment, kind]
      | true =>
        cases constant : wantsConstants request entry with
        | false => simp [name, kept, fragment, kind, constant]
        | true =>
          cases conclusion : wantsConclusion request entry with
          | false => simp [name, kept, fragment, kind, constant, conclusion]
          | true =>
            cases inScope : wantsScope env request entry with
            | false => simp [name, kept, fragment, kind, constant, conclusion, inScope]
            | true =>
              simp [name, kept, fragment, kind, constant, conclusion, inScope, candidate, moduleOf,
                natOfBool]

theorem foldl_scanConstant (rest : List (Name × ConstantInfo Name)) :
    rest.foldl (Shim.scanConstant env request.intoLeanObj) (scanOf env request constants) =
      scanOf env request (constants ++ rest) := by
  induction rest generalizing constants with
  | nil => rw [List.append_nil, List.foldl_nil]
  | cons entry rest ih =>
    rw [List.foldl_cons, scanConstant_of, ih, List.append_assoc]
    rfl

theorem scan_eq :
    env.constants.foldl (Shim.scanConstant env request.intoLeanObj) Shim.Scan.start =
      scanOf env request env.constants :=
  foldl_scanConstant env request [] env.constants

end DeclarationSearchRequest

omit [LeanName Name] [DecidableEq Name] in
theorem candidateLess_eq_false {a b : Shim.DeclarationSearchCandidate Name} :
    Shim.candidateLess b a = false ↔
      b.score < a.score ∨ b.score = a.score ∧ a.nameString ≤ b.nameString := by
  unfold Shim.candidateLess
  rw [Bool.or_eq_false_iff, Bool.and_eq_false_iff, decide_eq_false_iff_not, decide_eq_false_iff_not,
    beq_eq_false_iff_ne, not_lt]
  constructor
  · rintro ⟨notAbove, other | later⟩
    · exact Or.inl (by omega)
    · by_cases same : b.score = a.score
      · exact Or.inr ⟨same, later⟩
      · exact Or.inl (by omega)
  · rintro (below | ⟨same, later⟩)
    · exact ⟨by omega, Or.inl (by omega)⟩
    · exact ⟨by omega, Or.inr later⟩

omit [LeanName Name] [DecidableEq Name] in
theorem candidateLess_strictWeak :
    QuickSort.StrictWeak (@Shim.candidateLess Name) where
  asymm a b less := by
    rw [candidateLess_eq_false]
    unfold Shim.candidateLess at less
    simp only [Bool.or_eq_true, Bool.and_eq_true, decide_eq_true_eq, beq_iff_eq] at less
    obtain above | ⟨same, earlier⟩ := less
    · exact Or.inl above
    · exact Or.inr ⟨same.symm, le_of_lt earlier⟩
  trans a b c first second := by
    rw [candidateLess_eq_false] at first second ⊢
    obtain below | ⟨same, later⟩ := first
    · obtain below' | ⟨same', -⟩ := second
      · exact Or.inl (by omega)
      · exact Or.inl (by omega)
    · obtain below' | ⟨same', later'⟩ := second
      · exact Or.inl (by omega)
      · exact Or.inr ⟨by omega, le_trans later later'⟩

structure Ranked (env : Environment Name) (request : DeclarationSearchRequest)
    (ranked : List (Name × ConstantInfo Name)) : Prop where
  perm : ranked.Perm (request.matching env env.constants)
  ordered : ranked.Pairwise fun a b =>
    request.exactScore env b < request.exactScore env a ∨
      request.exactScore env a = request.exactScore env b ∧
        (LeanName.toString a.1 : String) ≤ LeanName.toString b.1

theorem exists_ranked (env : Environment Name) (request : DeclarationSearchRequest) :
    ∃ ranked, Ranked env request ranked ∧
      (QuickSort.qsort (request.scanOf env env.constants).candidates.toArray
        Shim.candidateLess).toList = ranked.map (request.candidate env) := by
  obtain ⟨perm, sorted⟩ := QuickSort.qsort_sorted candidateLess_strictWeak
    (request.scanOf env env.constants).candidates.toArray
  obtain ⟨ranked, perm', mapped⟩ := QuickSort.exists_perm_of_map perm
  rw [← mapped, List.pairwise_map] at sorted
  refine ⟨ranked, ⟨perm', sorted.imp ?_⟩, mapped.symm⟩
  intro a b before
  obtain below | ⟨same, later⟩ := candidateLess_eq_false.mp before
  · exact Or.inl below
  · exact Or.inr ⟨same.symm, later⟩

/-- Where the host is told that a constant is declared. -/
def hostSource (env : Environment Name)
    (findFile? : List String → Name → Except String (Option String)) (sourceRoots : List String)
    (name : Name) : Except String (Option LeanSourceRange) := do
  DeclarationDecode.source (← envDeclarationSourceRange env findFile? name sourceRoots)

section Rows

variable (env : Environment Name) (findFile? : List String → Name → Except String (Option String))
  (sourceRoots : List String) (request : DeclarationSearchRequest)

structure RowFor (entry : (Name × ConstantInfo Name) × Nat) (row : DeclarationSearchRow) :
    Prop where
  name : row.name = LeanName.toString entry.1.1
  kind : row.kind = declarationKindOf entry.1.2
  module : row.module = DeclarationSearchRequest.moduleOf env entry.1
  source : if request.includeSource then
    hostSource env findFile? sourceRoots entry.1.1 = .ok row.source else row.source = none
  matchReason : row.matchReason = Shim.searchMatchReason request.intoLeanObj
  score : row.score.toInt = request.exactScore env entry.1
  rank : row.rank = entry.2
  flags : row.flags = ⟨isPrivateName entry.1.1, Shim.isGeneratedName entry.1.1,
    Shim.isInternalName entry.1.1⟩

/-- The score is an `i32`, and a source that is asked for can be looked up and decoded. -/
structure Reportable (entry : Name × ConstantInfo Name) : Prop where
  score : -2 ^ 31 ≤ request.exactScore env entry ∧ request.exactScore env entry < 2 ^ 31
  source : request.includeSource = true →
    ∃ source, hostSource env findFile? sourceRoots entry.1 = .ok source

theorem reportable_iff (entry : Name × ConstantInfo Name) (rank : Nat) :
    Reportable env findFile? sourceRoots request entry ↔
      ∃ row, RowFor env findFile? sourceRoots request (entry, rank) row := by
  constructor
  · rintro ⟨⟨low, high⟩, looked⟩
    obtain ⟨source, found⟩ : ∃ source, if request.includeSource then
        hostSource env findFile? sourceRoots entry.1 = .ok source else source = none := by
      cases included : request.includeSource with
      | false => exact ⟨none, rfl⟩
      | true => exact looked included
    exact ⟨⟨_, _, _, source, _, Int32.ofInt (request.exactScore env entry), _, _⟩, rfl, rfl, rfl,
      found, rfl, Int32.toInt_ofInt_of_le low high, rfl, rfl⟩
  · rintro ⟨row, report⟩
    refine ⟨?_, fun included => ?_⟩
    · have score := report.score
      dsimp only at score
      rw [← score]
      exact ⟨row.score.le_toInt, row.score.toInt_lt⟩
    · have source := report.source
      rw [if_pos included] at source
      exact ⟨row.source, source⟩

end Rows

namespace DeclarationDecode

theorem natToUsize_ok {n m : Nat} (small : n < 2 ^ 63) : natToUsize n = .ok m ↔ m = n := by
  unfold natToUsize
  rw [if_pos small]
  constructor
  · intro same
    cases same
    rfl
  · rintro rfl
    rfl

theorem boolFromNat_ok (b c : Bool) : boolFromNat (natOfBool b) = .ok c ↔ c = b := by
  cases b <;> cases c <;> decide

theorem score_ok (i : Int) (value : Int32) : score i.repr = .ok value ↔ value.toInt = i := by
  unfold score parseI32
  rw [Text.signed?_repr]
  dsimp only
  constructor
  · intro parsed
    split at parsed
    · rename_i some
      split at some
      · rename_i range
        cases some
        cases parsed
        exact Int32.toInt_ofInt_of_le range.1 range.2
      · cases some
    · cases parsed
  · rintro rfl
    rw [if_pos ⟨value.le_toInt, value.toInt_lt⟩]
    dsimp only
    rw [Int32.ofInt_toInt]

end DeclarationDecode

section Rows

open Fallible

variable {env : Environment Name} {findFile? : List String → Name → Except String (Option String)}
  {sourceRoots : List String} {request : DeclarationSearchRequest}

theorem source_ok (name : Name) (source : Option LeanSourceRange) :
    (∃ range, Shim.rowSource request.intoLeanObj
        (fun name => envDeclarationSourceRange env findFile? name sourceRoots) name = .ok range ∧
        DeclarationDecode.source range = .ok source) ↔
      if request.includeSource then hostSource env findFile? sourceRoots name = .ok source
      else source = none := by
  unfold Shim.rowSource
  rw [show request.intoLeanObj.includeSource = natOfBool request.includeSource from rfl]
  cases request.includeSource with
  | false =>
    constructor
    · rintro ⟨range, found, decoded⟩
      cases found
      cases decoded
      rfl
    · intro none
      cases none
      exact ⟨none, rfl, rfl⟩
  | true => exact bind_ok.symm

theorem row_ok {entry : Name × ConstantInfo Name} {idx : Nat} (small : idx + 1 < 2 ^ 63)
    (row : DeclarationSearchRow) :
    (∃ range, Shim.rowSource request.intoLeanObj
        (fun name => envDeclarationSourceRange env findFile? name sourceRoots) entry.1 =
          .ok range ∧
        DeclarationDecode.row (Shim.searchRow (request.candidate env entry) range idx) =
          .ok row) ↔
      RowFor env findFile? sourceRoots request (entry, idx + 1) row := by
  have flags (flags : DeclarationFlags) : DeclarationDecode.flags
      ⟨natOfBool (isPrivateName entry.1), natOfBool (Shim.isGeneratedName entry.1),
        natOfBool (Shim.isInternalName entry.1)⟩ = .ok flags ↔
      flags =
        ⟨isPrivateName entry.1, Shim.isGeneratedName entry.1, Shim.isInternalName entry.1⟩ := by
    generalize isPrivateName entry.1 = a
    generalize Shim.isGeneratedName entry.1 = b
    generalize Shim.isInternalName entry.1 = c
    have decoded : DeclarationDecode.flags ⟨natOfBool a, natOfBool b, natOfBool c⟩ =
        .ok ⟨a, b, c⟩ := by
      cases a <;> cases b <;> cases c <;> rfl
    rw [decoded]
    constructor
    · intro same
      cases same
      rfl
    · rintro rfl
      rfl
  unfold DeclarationDecode.row
  simp only [bind_ok]
  constructor
  · rintro ⟨range, found, source, decoded, score, parsed, rank, ranked, shown, flagged, same⟩
    cases same
    exact ⟨rfl, rfl, rfl, (source_ok _ _).mp ⟨range, found, decoded⟩, rfl,
      (DeclarationDecode.score_ok _ _).mp parsed, (DeclarationDecode.natToUsize_ok small).mp ranked,
      (flags _).mp flagged⟩
  · intro report
    obtain ⟨range, found, decoded⟩ := (source_ok _ _).mpr report.source
    refine ⟨range, found, row.source, decoded, row.score,
      (DeclarationDecode.score_ok _ _).mpr report.score, row.rank,
      (DeclarationDecode.natToUsize_ok small).mpr report.rank, row.flags,
      (flags _).mpr report.flags, ?_⟩
    obtain ⟨name, kind, module, source, matchReason, score, rank, flags⟩ := row
    obtain ⟨rfl, rfl, rfl, -, rfl, -, -, -⟩ := report
    rfl

theorem rows_ok {entries : List (Name × ConstantInfo Name)} {idx : Nat}
    (small : idx + entries.length < 2 ^ 63) (rows : List DeclarationSearchRow) :
    (∃ raw, Shim.searchRows request.intoLeanObj
        (fun name => envDeclarationSourceRange env findFile? name sourceRoots) idx
        (entries.map (request.candidate env)) = .ok raw ∧
        raw.mapM DeclarationDecode.row = .ok rows) ↔
      List.Forall₂ (RowFor env findFile? sourceRoots request) (entries.zipIdx (idx + 1)) rows := by
  induction entries generalizing idx rows with
  | nil =>
    rw [List.zipIdx_nil, List.forall₂_nil_left_iff]
    constructor
    · rintro ⟨raw, found, decoded⟩
      cases found
      cases decoded
      rfl
    · rintro rfl
      exact ⟨[], rfl, rfl⟩
  | cons entry rest ih =>
    rw [List.length_cons] at small
    rw [List.zipIdx_cons, List.forall₂_cons_left_iff, List.map_cons]
    unfold Shim.searchRows
    simp only [bind_ok]
    constructor
    · rintro ⟨raw, ⟨range, found, others, searched, same⟩, decoded⟩
      cases same
      obtain ⟨row, rowsRest, first, later, rfl⟩ := mapM_cons_ok.mp decoded
      exact ⟨row, rowsRest, (row_ok (by omega) row).mp ⟨range, found, first⟩,
        (ih (by omega) rowsRest).mp ⟨others, searched, later⟩, rfl⟩
    · rintro ⟨row, rowsRest, report, reports, rfl⟩
      obtain ⟨range, found, first⟩ := (row_ok (by omega) row).mpr report
      obtain ⟨others, searched, later⟩ := (ih (by omega) rowsRest).mpr reports
      exact ⟨_, ⟨range, found, others, searched, rfl⟩,
        mapM_cons_ok.mpr ⟨row, rowsRest, first, later, rfl⟩⟩

theorem exists_rows_iff {entries : List (Name × ConstantInfo Name)} {idx : Nat} :
    (∃ rows, List.Forall₂ (RowFor env findFile? sourceRoots request) (entries.zipIdx idx) rows) ↔
      ∀ entry ∈ entries, Reportable env findFile? sourceRoots request entry := by
  induction entries generalizing idx with
  | nil =>
    constructor
    · exact fun _ _ member => absurd member List.not_mem_nil
    · exact fun _ => ⟨[], List.Forall₂.nil⟩
  | cons entry rest ih =>
    rw [List.zipIdx_cons, List.forall_mem_cons, reportable_iff _ _ _ _ entry idx,
      ← @ih (idx + 1)]
    constructor
    · rintro ⟨rows, reports⟩
      obtain ⟨row, others, report, later, -⟩ := List.forall₂_cons_left_iff.mp reports
      exact ⟨⟨row, report⟩, others, later⟩
    · rintro ⟨⟨row, report⟩, others, later⟩
      exact ⟨row :: others, List.Forall₂.cons report later⟩

end Rows

namespace DeclarationDecode

open Fallible

structure SmallFacts (facts : Shim.DeclarationSearchFacts) : Prop where
  declarationsScanned : facts.declarationsScanned < 2 ^ 63
  afterNameFilter : facts.afterNameFilter < 2 ^ 63
  afterKindFilter : facts.afterKindFilter < 2 ^ 63
  afterRequiredConstantsFilter : facts.afterRequiredConstantsFilter < 2 ^ 63
  afterConclusionFilter : facts.afterConclusionFilter < 2 ^ 63
  afterScopeFilter : facts.afterScopeFilter < 2 ^ 63
  sourceLookups : facts.sourceLookups < 2 ^ 63
  broadPruning : ∀ pruning ∈ facts.broadPruning, pruning.count < 2 ^ 63

theorem natToUsize_small {n : Nat} (small : n < 2 ^ 63) : natToUsize n = .ok n :=
  (natToUsize_ok small).mpr rfl

theorem pruning_small {prunings : List Shim.DeclarationSearchPruning}
    (small : ∀ pruning ∈ prunings, pruning.count < 2 ^ 63) :
    prunings.mapM pruning =
      .ok (prunings.map fun pruning => ⟨pruning.stage, pruning.reason, pruning.count⟩) := by
  induction prunings with
  | nil => rfl
  | cons first rest ih =>
    obtain ⟨head, tail⟩ := List.forall_mem_cons.mp small
    rw [mapM_cons_ok]
    refine ⟨_, _, ?_, ih tail, rfl⟩
    unfold pruning
    rw [natToUsize_small head]
    rfl

theorem facts_small {raw : Shim.DeclarationSearchFacts} (small : SmallFacts raw) (truncated : Bool)
    (flag : raw.truncated = natOfBool truncated) :
    facts raw = .ok
      { declarationsScanned := raw.declarationsScanned
        afterNameFilter := raw.afterNameFilter
        afterKindFilter := raw.afterKindFilter
        afterRequiredConstantsFilter := raw.afterRequiredConstantsFilter
        afterConclusionFilter := raw.afterConclusionFilter
        afterScopeFilter := raw.afterScopeFilter
        sourceLookups := raw.sourceLookups
        broadPruning := raw.broadPruning.map fun pruning =>
          ⟨pruning.stage, pruning.reason, pruning.count⟩
        truncated } := by
  unfold facts
  rw [natToUsize_small small.declarationsScanned, natToUsize_small small.afterNameFilter,
    natToUsize_small small.afterKindFilter, natToUsize_small small.afterRequiredConstantsFilter,
    natToUsize_small small.afterConclusionFilter, natToUsize_small small.afterScopeFilter,
    natToUsize_small small.sourceLookups, pruning_small small.broadPruning, flag,
    (boolFromNat_ok truncated truncated).mpr rfl]
  rfl

end DeclarationDecode

section Result

variable (env : Environment Name) (findFile? : List String → Name → Except String (Option String))
  (sourceRoots : List String) (request : DeclarationSearchRequest)

/-- The result reports the best of the matching constants and counts what each filter left. -/
structure ExactResult (ranked : List (Name × ConstantInfo Name))
    (result : DeclarationSearchResult) : Prop where
  rows : List.Forall₂ (RowFor env findFile? sourceRoots request)
    ((ranked.take (Shim.clampSearchLimit request.limit)).zipIdx 1) result.declarations
  scanned : result.facts.declarationsScanned = env.constants.length
  afterName : result.facts.afterNameFilter = (request.named env.constants).length
  afterKind : result.facts.afterKindFilter = (request.ofKind env.constants).length
  afterRequiredConstants :
    result.facts.afterRequiredConstantsFilter = (request.mentioning env.constants).length
  afterConclusion : result.facts.afterConclusionFilter = (request.concluding env.constants).length
  afterScope : result.facts.afterScopeFilter = (request.matching env env.constants).length
  shrinking : result.facts.afterScopeFilter ≤ result.facts.afterConclusionFilter ∧
    result.facts.afterConclusionFilter ≤ result.facts.afterRequiredConstantsFilter ∧
    result.facts.afterRequiredConstantsFilter ≤ result.facts.afterKindFilter ∧
    result.facts.afterKindFilter ≤ result.facts.afterNameFilter ∧
    result.facts.afterNameFilter ≤ result.facts.declarationsScanned
  truncated : result.truncated = true ↔
    (request.matching env env.constants).length > Shim.clampSearchLimit request.limit
  factsTruncated : result.facts.truncated = result.truncated

theorem rowFor_roots (entry : (Name × ConstantInfo Name) × Nat) (row : DeclarationSearchRow) :
    RowFor env findFile? (if request.includeSource then sourceRoots else []) request entry row ↔
      RowFor env findFile? sourceRoots request entry row := by
  cases included : request.includeSource with
  | true => exact Iff.rfl
  | false =>
    constructor
    · intro report
      have source := report.source
      rw [included] at source
      exact { report with source := by rw [included]; exact source }
    · intro report
      have source := report.source
      rw [included] at source
      exact { report with source := by rw [included]; exact source }

/-- The result of a search whose ranking and rows are known. -/
def resultOf (ranked : List (Name × ConstantInfo Name)) (rows : List DeclarationSearchRow) :
    DeclarationSearchResult :=
  let limit := Shim.clampSearchLimit request.limit
  let selected := ranked.take (min ranked.length limit)
  let truncated : Bool := ranked.length > limit
  { declarations := rows
    truncated
    facts :=
      { declarationsScanned := env.constants.length
        afterNameFilter := (request.named env.constants).length
        afterKindFilter := (request.ofKind env.constants).length
        afterRequiredConstantsFilter := (request.mentioning env.constants).length
        afterConclusionFilter := (request.concluding env.constants).length
        afterScopeFilter := (request.matching env env.constants).length
        sourceLookups := if request.intoLeanObj.includeSource != 0 then selected.length else 0
        broadPruning :=
          if Shim.isBroadDeclarationSearch request.intoLeanObj && truncated then
            [⟨"limit", "broad_search_limit", ranked.length - selected.length⟩]
          else []
        truncated } }

variable {env findFile? sourceRoots request}

theorem matching_le :
    (request.matching env env.constants).length ≤ (request.concluding env.constants).length ∧
      (request.concluding env.constants).length ≤ (request.mentioning env.constants).length ∧
      (request.mentioning env.constants).length ≤ (request.ofKind env.constants).length ∧
      (request.ofKind env.constants).length ≤ (request.named env.constants).length ∧
      (request.named env.constants).length ≤ env.constants.length :=
  ⟨List.length_filter_le .., List.length_filter_le .., List.length_filter_le ..,
    List.length_filter_le .., List.length_filter_le ..⟩

theorem clampSearchLimit_le (limit : Nat) : Shim.clampSearchLimit limit ≤ 100 := by
  unfold Shim.clampSearchLimit
  omega

/-- What the shim says about a search whose ranking is known. -/
def shimFactsOf (env : Environment Name) (request : DeclarationSearchRequest)
    (ranked : List (Name × ConstantInfo Name)) : Shim.DeclarationSearchFacts :=
  let facts := (resultOf env request ranked []).facts
  { declarationsScanned := facts.declarationsScanned
    afterNameFilter := facts.afterNameFilter
    afterKindFilter := facts.afterKindFilter
    afterRequiredConstantsFilter := facts.afterRequiredConstantsFilter
    afterConclusionFilter := facts.afterConclusionFilter
    afterScopeFilter := facts.afterScopeFilter
    sourceLookups := facts.sourceLookups
    broadPruning := facts.broadPruning.map fun pruning =>
      ⟨pruning.stage, pruning.reason, pruning.count⟩
    truncated := natOfBool facts.truncated }

omit [LeanName Name] [DecidableEq Name] in
theorem take_clamp (ranked : List (Name × ConstantInfo Name)) (limit : Nat) :
    ranked.take (min ranked.length limit) = ranked.take limit := by
  rw [Nat.min_comm, ← List.take_take, List.take_length]

theorem envSearchDeclarations_eq {ranked : List (Name × ConstantInfo Name)}
    (sorted : (QuickSort.qsort (request.scanOf env env.constants).candidates.toArray
      Shim.candidateLess).toList = ranked.map (request.candidate env)) (roots : List String) :
    Shim.envSearchDeclarations env findFile? request.intoLeanObj roots =
      (Shim.searchRows request.intoLeanObj
        (fun name => envDeclarationSourceRange env findFile? name roots) 0
        ((ranked.take (Shim.clampSearchLimit request.limit)).map (request.candidate env)) >>=
        fun rows => pure ⟨rows,
          natOfBool (ranked.length > Shim.clampSearchLimit request.limit),
          shimFactsOf env request ranked⟩) := by
  unfold Shim.envSearchDeclarations
  rw [DeclarationSearchRequest.scan_eq]
  dsimp only
  rw [sorted, List.length_map, ← List.map_take, List.length_map]
  have limit : request.intoLeanObj.limit = request.limit := rfl
  rw [limit, take_clamp]
  congr 1
  funext rows
  congr 2
  unfold shimFactsOf resultOf DeclarationSearchRequest.scanOf
  dsimp only
  rw [take_clamp]
  by_cases broad : (Shim.isBroadDeclarationSearch request.intoLeanObj &&
      decide (ranked.length > Shim.clampSearchLimit request.limit)) = true
  · rw [if_pos broad, if_pos broad]
    rfl
  · rw [if_neg broad, if_neg broad]
    rfl

theorem facts_shimFactsOf {ranked : List (Name × ConstantInfo Name)}
    (isRanked : Ranked env request ranked) :
    DeclarationDecode.facts (shimFactsOf env request ranked) =
      .ok (resultOf env request ranked []).facts := by
  obtain ⟨scope, conclusion, constants, kind, name⟩ := @matching_le _ _ _ env request
  have all := env.addressable
  have whole := isRanked.perm.length_eq
  have limit := clampSearchLimit_le request.limit
  have shown : (ranked.take (min ranked.length (Shim.clampSearchLimit request.limit))).length ≤
      100 := by
    rw [List.length_take]
    omega
  have small : DeclarationDecode.SmallFacts (shimFactsOf env request ranked) := by
    unfold shimFactsOf resultOf
    constructor <;> dsimp only
    · exact all
    · omega
    · omega
    · omega
    · omega
    · omega
    · split
      · omega
      · omega
    · intro pruning member
      obtain ⟨source, listed, rfl⟩ := List.mem_map.mp member
      split at listed
      · obtain rfl := List.mem_singleton.mp listed
        dsimp only
        omega
      · cases listed
  rw [DeclarationDecode.facts_small small (resultOf env request ranked []).facts.truncated rfl]
  unfold shimFactsOf
  dsimp only
  rw [List.map_map]
  congr 2
  exact List.map_id _

theorem searchDeclarations_ok {ranked : List (Name × ConstantInfo Name)}
    (isRanked : Ranked env request ranked)
    (sorted : (QuickSort.qsort (request.scanOf env env.constants).candidates.toArray
      Shim.candidateLess).toList = ranked.map (request.candidate env))
    (result : DeclarationSearchResult) :
    searchDeclarations env findFile? sourceRoots request = .ok result ↔
      ∃ rows, List.Forall₂ (RowFor env findFile? sourceRoots request)
        ((ranked.take (Shim.clampSearchLimit request.limit)).zipIdx 1) rows ∧
        result = resultOf env request ranked rows := by
  have limit := clampSearchLimit_le request.limit
  have shown : 0 + (ranked.take (Shim.clampSearchLimit request.limit)).length < 2 ^ 63 := by
    rw [List.length_take]
    omega
  have roots : RowFor env findFile? (if request.includeSource then sourceRoots else []) request =
      RowFor env findFile? sourceRoots request := by
    funext entry row
    exact propext (rowFor_roots env findFile? sourceRoots request entry row)
  have reports (rows : List DeclarationSearchRow) := @rows_ok _ _ _ env findFile?
    (if request.includeSource then sourceRoots else []) request _ _ shown rows
  rw [roots] at reports
  unfold searchDeclarations
  dsimp only
  rw [envSearchDeclarations_eq sorted]
  simp only [Fallible.bind_ok, DeclarationDecode.result]
  constructor
  · rintro ⟨shim, ⟨raw, searched, same⟩, rows, decoded, truncated, flag, facts, told, last⟩
    cases same
    cases last
    rw [facts_shimFactsOf isRanked] at told
    cases told
    rw [DeclarationDecode.boolFromNat_ok] at flag
    subst flag
    exact ⟨rows, (reports rows).mp ⟨raw, searched, decoded⟩, rfl⟩
  · rintro ⟨rows, report, rfl⟩
    obtain ⟨raw, searched, decoded⟩ := (reports rows).mpr report
    exact ⟨_, ⟨raw, searched, rfl⟩, rows, decoded, _,
      (DeclarationDecode.boolFromNat_ok _ _).mpr rfl, _, facts_shimFactsOf isRanked, rfl⟩

end Result

/-- A search succeeds exactly when what it selects can be reported, and then its result is exact:
the best of the matching constants in order, with their ranks and scores, and the sizes of the
filtered sets as counts. -/
theorem searchDeclarations_exact (env : Environment Name)
    (findFile? : List String → Name → Except String (Option String)) (sourceRoots : List String)
    (request : DeclarationSearchRequest) :
    ∃ ranked, Ranked env request ranked ∧
      ((∃ result, searchDeclarations env findFile? sourceRoots request = .ok result) ↔
        ∀ entry ∈ ranked.take (Shim.clampSearchLimit request.limit),
          Reportable env findFile? sourceRoots request entry) ∧
      ∀ result, searchDeclarations env findFile? sourceRoots request = .ok result →
        ExactResult env findFile? sourceRoots request ranked result := by
  obtain ⟨ranked, isRanked, sorted⟩ := exists_ranked env request
  have ok := @searchDeclarations_ok _ _ _ env findFile? sourceRoots request _ isRanked sorted
  refine ⟨ranked, isRanked, ?_, fun result searched => ?_⟩
  · rw [← @exists_rows_iff _ _ _ env findFile? sourceRoots request _ 1]
    constructor
    · rintro ⟨result, searched⟩
      obtain ⟨rows, report, -⟩ := (ok result).mp searched
      exact ⟨rows, report⟩
    · rintro ⟨rows, report⟩
      exact ⟨_, (ok _).mpr ⟨rows, report, rfl⟩⟩
  · obtain ⟨rows, report, rfl⟩ := (ok result).mp searched
    refine ⟨report, rfl, rfl, rfl, rfl, rfl, rfl, matching_le, ?_, rfl⟩
    rw [← isRanked.perm.length_eq]
    exact decide_eq_true_iff

/-- Two of the largest weights for the same namespace. -/
def heavySearch : DeclarationSearchRequest where
  nameFragment := none
  nameMatch := .contains
  kind := none
  requiredConstants := []
  conclusionHead := none
  scopeBiases :=
    [⟨.namespace, "t", false, Int32.maxValue⟩, ⟨.namespace, "t", false, Int32.maxValue⟩]
  limit := 20
  filter := ⟨true, true, true⟩
  includeSource := false

/-- The sum of the weights is no `i32`, and the search fails. -/
theorem heavy_search_refused :
    ¬∀ (env : Environment String) (findFile? : List String → String → Except String (Option String))
      (sourceRoots : List String) (request : DeclarationSearchRequest),
      ∃ result, searchDeclarations env findFile? sourceRoots request = .ok result := by
  intro all
  obtain ⟨result, searched⟩ := all oneAxiom (fun _ _ => .ok none) [] heavySearch
  obtain ⟨ranked, isRanked, sorted⟩ := exists_ranked oneAxiom heavySearch
  have matching : heavySearch.matching oneAxiom oneAxiom.constants = oneAxiom.constants := rfl
  have perm := isRanked.perm
  rw [matching] at perm
  obtain rfl := List.perm_singleton.mp perm
  obtain ⟨rows, reports, -⟩ := (searchDeclarations_ok isRanked sorted result).mp searched
  obtain ⟨row, -, report, -, -⟩ := List.forall₂_cons_left_iff.mp reports
  have score := report.score
  have high := row.score.toInt_lt
  have sum : heavySearch.exactScore oneAxiom ("t", .axiomInfo .leaf) = 4294967294 := by decide
  dsimp only at score
  omega

end LeanRs
