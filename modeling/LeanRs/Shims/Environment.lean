import LeanRs.General.Fallible
import Mathlib.Algebra.Order.Ring.Int

/-! An environment as the shim reads it: its constants, the modules they come from and where they
are declared. -/
namespace LeanRs

class LeanName (Name : Type) where
  anonymous : Name
  toName : String → Name
  toString : Name → String
  isPrivateName : Name → Bool
  hasMacroScopes : Name → Bool
  hasNum : Name → Bool
  isInternalDetail : Name → Bool

/-- A leaf mentions no constant: a variable, a sort or a literal. -/
inductive Expr (Name : Type) where
  | leaf
  | const (name : Name)
  | app (fn arg : Expr Name)
  | lam (binderType body : Expr Name)
  | forallE (binderType body : Expr Name)
  | letE (type value body : Expr Name)
  | mdata (expr : Expr Name)
  | proj (struct : Expr Name)

namespace Expr

variable {Name : Type}

def usedConstants : Expr Name → List Name
  | leaf => []
  | const name => [name]
  | app fn arg => fn.usedConstants ++ arg.usedConstants
  | lam binderType body => binderType.usedConstants ++ body.usedConstants
  | forallE binderType body => binderType.usedConstants ++ body.usedConstants
  | letE type value body => type.usedConstants ++ value.usedConstants ++ body.usedConstants
  | mdata expr => expr.usedConstants
  | proj struct => struct.usedConstants

def getAppFn : Expr Name → Expr Name
  | app fn _ => fn.getAppFn
  | e => e

def forallConclusion : Expr Name → Expr Name
  | forallE _ body => body.forallConclusion
  | e => e

def conclusionHead? (type : Expr Name) : Option Name :=
  match type.forallConclusion.getAppFn with
  | const name => some name
  | _ => none

end Expr

inductive ConstantInfo (Name : Type) where
  | axiomInfo (type : Expr Name)
  | defnInfo (type : Expr Name)
  | thmInfo (type : Expr Name)
  | opaqueInfo (type : Expr Name)
  | quotInfo (type : Expr Name)
  | inductInfo (type : Expr Name)
  | ctorInfo (type : Expr Name)
  | recInfo (type : Expr Name)

variable {Name : Type}

def ConstantInfo.type : ConstantInfo Name → Expr Name
  | axiomInfo type | defnInfo type | thmInfo type | opaqueInfo type | quotInfo type
  | inductInfo type | ctorInfo type | recInfo type => type

def declarationKindOf : ConstantInfo Name → String
  | .axiomInfo _ => "axiom"
  | .defnInfo _ => "definition"
  | .thmInfo _ => "theorem"
  | .opaqueInfo _ => "opaque"
  | .quotInfo _ => "quot"
  | .inductInfo _ => "inductive"
  | .ctorInfo _ => "constructor"
  | .recInfo _ => "recursor"

structure DeclarationRange where
  line : Nat
  column : Nat
  endLine : Nat
  endColumn : Nat

/-- A table of constants in memory; the lookup of a range may fail. -/
structure Environment (Name : Type) where
  constants : List (Name × ConstantInfo Name)
  moduleIdxFor? : Name → Option Nat
  allImportedModuleNames : List Name
  declarationRanges? : Name → Except String (Option DeclarationRange)
  addressable : constants.length < 2 ^ 63

namespace Environment

def find? [DecidableEq Name] (env : Environment Name) (name : Name) : Option (ConstantInfo Name) :=
  env.constants.lookup name

def declarationModule? [LeanName Name] (env : Environment Name) (declName : Name) : Option Name :=
  match env.moduleIdxFor? declName with
  | none => none
  | some moduleIdx => some ((env.allImportedModuleNames[moduleIdx]?).getD LeanName.anonymous)

end Environment

structure SourceRange where
  file : String
  startLine : Nat
  startColumn : Nat
  endLine : Nat
  endColumn : Nat

/-- `findFile?` looks for the source of a module below the roots. -/
def envDeclarationSourceRange [DecidableEq Name] [LeanName Name] (env : Environment Name)
    (findFile? : List String → Name → Except String (Option String)) (name : Name)
    (sourceRoots : List String) : Except String (Option SourceRange) := do
  if (env.find? name).isNone then return none
  let some range ← env.declarationRanges? name | return none
  let moduleName? := env.declarationModule? name
  let moduleLabel := (moduleName?.map LeanName.toString).getD "<unknown>"
  let file ← match moduleName? with
    | none => pure moduleLabel
    | some moduleName => pure ((← findFile? sourceRoots moduleName).getD moduleLabel)
  return some
    { file
      startLine := range.line
      startColumn := range.column + 1
      endLine := range.endLine
      endColumn := range.endColumn + 1 }

def envDeclarationType [DecidableEq Name] (env : Environment Name) (name : Name) :
    Option (Expr Name) :=
  (env.find? name).map ConstantInfo.type

def envDeclarationKind [DecidableEq Name] (env : Environment Name) (name : Name) : String :=
  match env.find? name with
  | none => "missing"
  | some (.axiomInfo _) => "axiom"
  | some (.defnInfo _) => "definition"
  | some (.thmInfo _) => "theorem"
  | some (.opaqueInfo _) => "opaque"
  | some (.quotInfo _) => "quot"
  | some (.inductInfo _) => "inductive"
  | some (.ctorInfo _) => "constructor"
  | some (.recInfo _) => "recursor"

def envDeclarationName [LeanName Name] (_env : Environment Name) (name : Name) : String :=
  LeanName.toString name

instance plainNames : LeanName String where
  anonymous := "[anonymous]"
  toName := id
  toString := id
  isPrivateName _ := false
  hasMacroScopes _ := false
  hasNum _ := false
  isInternalDetail _ := false

def oneAxiom : Environment String where
  constants := [("t", .axiomInfo .leaf)]
  moduleIdxFor? _ := none
  allImportedModuleNames := []
  declarationRanges? _ := .ok none
  addressable := by decide

end LeanRs
