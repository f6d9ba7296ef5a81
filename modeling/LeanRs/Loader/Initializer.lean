import LeanRs.General.Outline
import LeanRs.Loader.Completeness

/-! Which initializer a module gets: names are mangled to symbols of two conventions, and a dylib
is searched for the one and then for the other. -/
namespace LeanRs

open Fallible Outline

def IsComponent (component : List Char) : Prop :=
  ∃ first rest, component = first :: rest ∧ isIdentStart first = true ∧
    ∀ ch ∈ rest, isIdentContinue ch = true

theorem validateComponent_ok {debugChar : Char → String} {kind : String} {component : List Char} :
    validateComponent debugChar kind component = .ok () ↔ IsComponent component := by
  cases component with
  | nil =>
    constructor
    · nofun
    · rintro ⟨first, rest, none, -⟩
      cases none
  | cons first rest =>
    unfold validateComponent IsComponent
    dsimp only
    by_cases starts : isIdentStart first = true
    · rw [if_pos starts]
      cases found : rest.find? fun ch => !isIdentContinue ch with
      | none =>
        rw [List.find?_eq_none] at found
        simp only [Bool.not_eq_true', Bool.not_eq_false] at found
        exact ⟨fun _ => ⟨first, rest, rfl, starts, found⟩, fun _ => rfl⟩
      | some ch =>
        have bad := List.find?_some found
        have member := List.mem_of_find?_eq_some found
        constructor
        · nofun
        · rintro ⟨_, _, same, -, every⟩
          cases same
          rw [every ch member] at bad
          cases bad
    · rw [if_neg starts]
      constructor
      · nofun
      · rintro ⟨_, _, same, starts', -⟩
        cases same
        exact absurd starts' starts

instance : DecidablePred IsComponent := fun component =>
  decidable_of_iff (validateComponent (fun _ => "") "" component = .ok ()) validateComponent_ok

structure LakeName where
  package : String
  module : String
  packageValid : IsComponent package.toList
  moduleValid : ∀ component ∈ splitDots module.toList, IsComponent component

namespace LakeName

variable (n : LakeName)

def components : List (List Char) := splitDots n.module.toList

def path : List (List Char) := n.package.toList :: n.components

def initializer : InitializerName where
  symbol := "initialize_" ++ String.ofList (joined '_' n.path)
  legacySymbol := "initialize_" ++ String.ofList (joined '_' n.components)
  display := n.package ++ "::" ++ n.module

end LakeName

theorem splitDots_ne_nil (text : List Char) : splitDots text ≠ [] := by
  cases text with
  | nil => exact nofun
  | cons ch rest =>
    unfold splitDots
    split
    · exact nofun
    · split <;> exact nofun

theorem LakeName.components_ne_nil (n : LakeName) : n.components ≠ [] := splitDots_ne_nil _

theorem joined_path (n : LakeName) : joined '_' n.path =
    pushMangled n.package.toList ++ '_' :: joined '_' n.components := by
  have nonempty := n.components_ne_nil
  unfold joined LakeName.path
  cases comps : n.components with
  | nil => exact absurd comps nonempty
  | cons first rest => simp [pushMangled, doubled, List.intercalate_cons_cons]

theorem fromLakeNames_ok (debugChar : Char → String) (n : LakeName) :
    InitializerName.fromLakeNames debugChar n.package n.module = .ok n.initializer := by
  have package : validateComponent debugChar "package name" n.package.toList = .ok () :=
    validateComponent_ok.mpr n.packageValid
  have module : (splitDots n.module.toList).forM (validateComponent debugChar "module component") =
      .ok () :=
    forM_of_forall fun component member =>
      validateComponent_ok.mpr (n.moduleValid component member)
  unfold InitializerName.fromLakeNames LakeName.initializer
  rw [package, joined_path]
  dsimp only [bind, Except.bind]
  rw [module]
  rfl

/-- `lookup_initializer`: the symbol that is found, the modern one first. -/
def lookupInitializer (exported : List String) (name : InitializerName) : Option String :=
  if name.symbol ∈ exported then some name.symbol
  else if name.legacySymbol ∈ exported then some name.legacySymbol
  else none

def resolveInitializer (debugChar : Char → String) (exported : List String)
    (package module : String) : Except HostFailure (Option String) :=
  (InitializerName.fromLakeNames debugChar package module).map (lookupInitializer exported)

theorem resolveInitializer_ok (debugChar : Char → String) (exported : List String)
    (n : LakeName) : resolveInitializer debugChar exported n.package n.module =
      .ok (lookupInitializer exported n.initializer) := by
  rw [resolveInitializer, fromLakeNames_ok]
  rfl

theorem lookupInitializer_isSome {exported : List String} {name : InitializerName} :
    (∃ symbol, lookupInitializer exported name = some symbol) ↔
      name.symbol ∈ exported ∨ name.legacySymbol ∈ exported := by
  unfold lookupInitializer
  split
  · rename_i modern
    exact ⟨fun _ => .inl modern, fun _ => ⟨_, rfl⟩⟩
  · rename_i other
    split
    · rename_i legacy
      exact ⟨fun _ => .inr legacy, fun _ => ⟨_, rfl⟩⟩
    · rename_i neither
      exact ⟨nofun, fun either => (either.elim other neither).elim⟩

/-- How a toolchain names initializers: with the package since 4.27, without it before. -/
inductive NamingConvention where
  | modern
  | legacy
  deriving DecidableEq

def LakeName.symbolIn (n : LakeName) : NamingConvention → String
  | .modern => n.initializer.symbol
  | .legacy => n.initializer.legacySymbol

def initializersOf (convention : NamingConvention) (names : List LakeName) : List String :=
  names.map fun n => n.symbolIn convention

/-- The symbol is that of the module, and of the package where the symbol names it. -/
def ExportedFor (convention : NamingConvention) (names : List LakeName) (n : LakeName)
    (symbol : String) : Prop :=
  ∃ other ∈ names, other.symbolIn convention = symbol ∧ other.module = n.module ∧
    (convention = .modern → other.package = n.package)

/-- What is resolved for a module is its own initializer, and that is found if it is there. -/
structure ResolvesRight (debugChar : Char → String) (convention : NamingConvention)
    (names : List LakeName) (n : LakeName) : Prop where
  right : ∀ symbol, resolveInitializer debugChar (initializersOf convention names) n.package
    n.module = .ok (some symbol) → ExportedFor convention names n symbol
  found : n ∈ names → ∃ symbol, resolveInitializer debugChar (initializersOf convention names)
    n.package n.module = .ok (some symbol)

/-- No other module reads like this one: an underscore inside a component weighs two, and the end
of a component one. Under the modern convention the module may also read like a package and a
module, and under the legacy one the package and the module like a module. -/
def Separate (names : List LakeName) (n : LakeName) : NamingConvention → Prop
  | .modern => n ∈ names ∨ ∀ other ∈ names,
      outline '_' other.path ≠ outline '_' n.path ∧
        outline '_' other.path ≠ outline '_' n.components
  | .legacy => (∀ other ∈ names, outline '_' other.components ≠ outline '_' n.path) ∧
      ((∃ other ∈ names, other.module = n.module) ∨
        ∀ other ∈ names, outline '_' other.components ≠ outline '_' n.components)

theorem initializer_eq_iff (xs ys : List (List Char)) :
    "initialize_" ++ String.ofList (joined '_' xs) =
      "initialize_" ++ String.ofList (joined '_' ys) ↔ outline '_' xs = outline '_' ys := by
  rw [← joined_eq_iff]
  constructor
  · intro same
    have lists := congrArg String.toList same
    simpa only [String.toList_append, String.toList_ofList, List.append_cancel_left_eq] using lists
  · intro same
    rw [same]

theorem mem_initializersOf {convention : NamingConvention} {names : List LakeName}
    {symbol : String} : symbol ∈ initializersOf convention names ↔
      ∃ other ∈ names, other.symbolIn convention = symbol := List.mem_map

theorem LakeName.eq_of {n other : LakeName} (package : other.package = n.package)
    (module : other.module = n.module) : other = n := by
  cases n
  cases other
  cases package
  cases module
  rfl

theorem LakeName.symbol_ne_legacySymbol (n : LakeName) :
    n.initializer.symbol ≠ n.initializer.legacySymbol := by
  intro same
  have texts := (joined_eq_iff '_' _ _).mpr ((initializer_eq_iff _ _).mp same)
  exact joined_cons_ne '_' n.components_ne_nil texts

theorem legacySymbol_congr {n other : LakeName} (module : other.module = n.module) :
    other.initializer.legacySymbol = n.initializer.legacySymbol := by
  unfold LakeName.initializer LakeName.components
  rw [module]

section

variable {debugChar : Char → String} {names : List LakeName} {n : LakeName}

theorem resolvesRight_modern : ResolvesRight debugChar .modern names n ↔
    ((∃ symbol, lookupInitializer (initializersOf .modern names) n.initializer = some symbol) →
      n ∈ names) := by
  constructor
  · rintro ⟨right, -⟩ ⟨symbol, found⟩
    have resolved := resolveInitializer_ok debugChar (initializersOf .modern names) n
    obtain ⟨other, member, -, module, package⟩ :=
      right symbol (resolved.trans (congrArg Except.ok found))
    exact LakeName.eq_of (package rfl) module ▸ member
  · intro only
    have own (member : n ∈ names) : lookupInitializer (initializersOf .modern names)
        n.initializer = some n.initializer.symbol :=
      if_pos (mem_initializersOf.mpr ⟨n, member, rfl⟩)
    constructor
    · intro symbol resolved
      rw [resolveInitializer_ok] at resolved
      have found := Except.ok.inj resolved
      have member := only ⟨symbol, found⟩
      rw [own member] at found
      exact ⟨n, member, Option.some.inj found, rfl, fun _ => rfl⟩
    · intro member
      exact ⟨_, (resolveInitializer_ok debugChar _ n).trans (congrArg Except.ok (own member))⟩

theorem separate_modern : Separate names n .modern ↔
    ((∃ symbol, lookupInitializer (initializersOf .modern names) n.initializer = some symbol) →
      n ∈ names) := by
  rw [lookupInitializer_isSome, mem_initializersOf, mem_initializersOf]
  constructor
  · rintro (member | apart) found
    · exact member
    · obtain ⟨other, inside, same⟩ | ⟨other, inside, same⟩ := found
      · exact absurd ((initializer_eq_iff _ _).mp same) (apart other inside).1
      · exact absurd ((initializer_eq_iff _ _).mp same) (apart other inside).2
  · intro only
    by_cases member : n ∈ names
    · exact .inl member
    · refine .inr fun other inside => ⟨fun same => member (only (.inl ?_)), fun same =>
        member (only (.inr ?_))⟩
      · exact ⟨other, inside, (initializer_eq_iff _ _).mpr same⟩
      · exact ⟨other, inside, (initializer_eq_iff _ _).mpr same⟩

theorem resolvesRight_legacy : ResolvesRight debugChar .legacy names n ↔
    n.initializer.symbol ∉ initializersOf .legacy names ∧
      (n.initializer.legacySymbol ∈ initializersOf .legacy names →
        ∃ other ∈ names, other.module = n.module) := by
  constructor
  · rintro ⟨right, -⟩
    have resolved := resolveInitializer_ok debugChar (initializersOf .legacy names) n
    constructor
    · intro exported
      have found : lookupInitializer (initializersOf .legacy names) n.initializer =
          some n.initializer.symbol := if_pos exported
      obtain ⟨other, -, same, module, -⟩ :=
        right _ (resolved.trans (congrArg Except.ok found))
      exact n.symbol_ne_legacySymbol (same.symm.trans (legacySymbol_congr module))
    · intro exported
      obtain ⟨symbol, found⟩ := lookupInitializer_isSome.mpr (.inr exported)
      obtain ⟨other, member, -, module, -⟩ :=
        right symbol (resolved.trans (congrArg Except.ok found))
      exact ⟨other, member, module⟩
  · rintro ⟨absent, only⟩
    have found : lookupInitializer (initializersOf .legacy names) n.initializer =
        if n.initializer.legacySymbol ∈ initializersOf .legacy names then
          some n.initializer.legacySymbol else none := if_neg absent
    constructor
    · intro symbol resolved
      rw [resolveInitializer_ok, found] at resolved
      split at resolved
      · rename_i exported
        obtain ⟨other, member, module⟩ := only exported
        have own := Option.some.inj (Except.ok.inj resolved)
        exact ⟨other, member, (legacySymbol_congr module).trans own, module, nofun⟩
      · cases resolved
    · intro member
      have exported : n.initializer.legacySymbol ∈ initializersOf .legacy names :=
        mem_initializersOf.mpr ⟨n, member, rfl⟩
      rw [if_pos exported] at found
      exact ⟨_, (resolveInitializer_ok debugChar _ n).trans (congrArg Except.ok found)⟩

theorem separate_legacy : Separate names n .legacy ↔
    n.initializer.symbol ∉ initializersOf .legacy names ∧
      (n.initializer.legacySymbol ∈ initializersOf .legacy names →
        ∃ other ∈ names, other.module = n.module) := by
  rw [mem_initializersOf, mem_initializersOf]
  constructor
  · rintro ⟨apart, either⟩
    constructor
    · rintro ⟨other, member, same⟩
      exact apart other member ((initializer_eq_iff _ _).mp same)
    · rintro ⟨other, member, same⟩
      obtain named | others := either
      · exact named
      · exact absurd ((initializer_eq_iff _ _).mp same) (others other member)
  · rintro ⟨absent, only⟩
    constructor
    · intro other member same
      exact absent ⟨other, member, (initializer_eq_iff _ _).mpr same⟩
    · by_cases named : ∃ other ∈ names, other.module = n.module
      · exact .inl named
      · exact .inr fun other member same =>
          named (only ⟨other, member, (initializer_eq_iff _ _).mpr same⟩)

end

/-- For every dylib of either convention and every module, the initializer that is resolved is the
right one exactly if the module is separate. -/
theorem resolvesRight_iff (debugChar : Char → String) (convention : NamingConvention)
    (names : List LakeName) (n : LakeName) :
    ResolvesRight debugChar convention names n ↔ Separate names n convention := by
  cases convention with
  | modern => rw [resolvesRight_modern, separate_modern]
  | legacy => rw [resolvesRight_legacy, separate_legacy]

/-- Module `_b` of package `a` gets the initializer of module `b` of package `a_`; and where names
have no package, module `b` of package `a` gets that of module `a.b`, even if its own is there. -/
theorem another_initializer_is_run :
    (∃ n other : LakeName, n.package = "a" ∧ n.module = "_b" ∧ other.package = "a_" ∧
      other.module = "b" ∧ ¬ResolvesRight (fun _ => "") .modern [other] n) ∧
      ∃ n other : LakeName, n.package = "a" ∧ n.module = "b" ∧ other.package = "q" ∧
        other.module = "a.b" ∧ ¬ResolvesRight (fun _ => "") .legacy [n, other] n := by
  refine ⟨⟨⟨"a", "_b", by decide +kernel, by decide +kernel⟩,
    ⟨"a_", "b", by decide +kernel, by decide +kernel⟩, rfl, rfl, rfl, rfl, ?_⟩,
    ⟨"a", "b", by decide +kernel, by decide +kernel⟩,
    ⟨"q", "a.b", by decide +kernel, by decide +kernel⟩, rfl, rfl, rfl, rfl, ?_⟩
  · rw [resolvesRight_modern]
    intro only
    have member := only ⟨"initialize_a___b", by decide +kernel⟩
    have packages := congrArg LakeName.package (List.mem_singleton.mp member)
    exact absurd packages (by decide)
  · rw [resolvesRight_legacy]
    rintro ⟨absent, -⟩
    exact absent (by decide +kernel)

end LeanRs
