import LeanRs.General.Groups
import LeanRs.Pool.Capability

/-! How module work is grouped into batches that each run in one session. -/
namespace LeanRs

open Std

structure LeanWorkerPlanMetadataExpectation where
  exportName : String
  request : JsonText
  expected : Option JsonText

structure LeanWorkerImportPlanConfig where
  projectRoot : PathBuf
  package : String
  libName : String
  importProfile : LeanWorkerSessionImportProfile := default
  metadataExpectation : Option LeanWorkerPlanMetadataExpectation := none
  restartPolicy : Option LeanWorkerRestartPolicy := none

structure LeanWorkerModuleWork where
  module : String
  path : PathBuf
  sourceRoot : String
  imports : List String
  deriving DecidableEq

structure LeanModuleSetFingerprint where
  toolchain : ToolchainFingerprint
  lakefileSha256 : String
  manifestSha256 : Option String
  sourceCount : UInt64
  sourceMaxMtimeNs : Nat

structure LeanWorkerBatchFingerprint where
  toolchain : ToolchainFingerprint
  sourceSet : LeanModuleSetFingerprint
  batchKey : String

structure LeanWorkerPlannedBatch where
  sessionKey : LeanWorkerSessionKey
  projectRoot : PathBuf
  package : String
  libName : String
  sourceRoot : String
  imports : List String
  importProfile : LeanWorkerSessionImportProfile
  modules : List LeanWorkerModuleWork
  fingerprint : LeanWorkerBatchFingerprint
  metadataExpectation : Option LeanWorkerPlanMetadataExpectation
  restartPolicy : Option LeanWorkerRestartPolicy

inductive LeanWorkerImportPlanError where
  | invalidModuleName (module reason : String)
  deriving DecidableEq

/-- The classes of characters in the standard library, which are fixed inside ASCII. -/
structure CharClasses where
  isAlphabetic : Char → Bool
  isNumeric : Char → Bool
  isAlphabetic_ascii : ∀ c, c.toNat < 128 → isAlphabetic c = c.isAlpha
  isNumeric_ascii : ∀ c, c.toNat < 128 → isNumeric c = c.isDigit

namespace CharClasses

def ascii : CharClasses := ⟨Char.isAlpha, Char.isDigit, fun _ _ => rfl, fun _ _ => rfl⟩

variable (classes : CharClasses)

def isAlphanumeric (c : Char) : Bool := classes.isAlphabetic c || classes.isNumeric c

def startsComponent (c : Char) : Bool := c == '_' || classes.isAlphabetic c

def continuesComponent (c : Char) : Bool := c == '_' || c.toNat == 39 || classes.isAlphanumeric c

def validateComponents (module : String) :
    List (List Char) → Except LeanWorkerImportPlanError Unit
  | [] => .ok ()
  | [] :: _ => .error (.invalidModuleName module "module name contains an empty component")
  | (first :: chars) :: components =>
    if !classes.startsComponent first then
      .error (.invalidModuleName module
        "module components must begin with a letter or underscore")
    else if chars.any fun c => !classes.continuesComponent c then
      .error (.invalidModuleName module
        "module components may contain only letters, digits, underscores, or apostrophes")
    else validateComponents module components

def validateModuleName (module : String) : Except LeanWorkerImportPlanError Unit :=
  if module.toList.isEmpty then .error (.invalidModuleName module "module name is empty")
  else classes.validateComponents module (module.toList.splitOn '.')

end CharClasses

structure BatchGroupKey where
  projectRoot : PathBuf
  package : String
  libName : String
  sourceRoot : String
  imports : List String
  importProfile : LeanWorkerSessionImportProfile
  restartPolicyClass : LeanWorkerRestartPolicyClass

namespace PathBuf

/-- A component as `Path` orders it: the current directory, the parent, then names by their
bytes. -/
def componentRank (component : List UInt8) : List Nat :=
  if component = [46] then [1]
  else if component = [46, 46] then [2]
  else 3 :: component.map UInt8.toNat

/-- The components of a path as `Path` orders them, the root first. -/
def ranks (p : PathBuf) : List (List Nat) :=
  (if p.hasRoot then [[0]] else []) ++ p.components.map componentRank

end PathBuf

def LeanWorkerSessionImportProfile.rank : LeanWorkerSessionImportProfile → Nat
  | .exportedPublic => 0
  | .server => 1
  | .private => 2
  | .fullPrivateCompat => 3

def LeanWorkerRestartPolicyClass.rank : LeanWorkerRestartPolicyClass → Nat
  | .default => 0
  | .custom => 1

namespace BatchGroupKey

def order : BatchGroupKey → BatchGroupKey → Ordering :=
  compareLex (compareOn fun k => k.projectRoot.ranks) <|
  compareLex (compareOn fun k => k.package) <|
  compareLex (compareOn fun k => k.libName) <|
  compareLex (compareOn fun k => k.sourceRoot) <|
  compareLex (compareOn fun k => k.imports) <|
  compareLex (compareOn fun k => k.importProfile.rank) <|
  compareOn fun k => k.restartPolicyClass.rank

instance : Ord BatchGroupKey := ⟨order⟩

instance : TransOrd BatchGroupKey := inferInstanceAs (TransCmp (compareLex _ (compareLex _
  (compareLex _ (compareLex _ (compareLex _ (compareLex _ (compareOn _))))))))

end BatchGroupKey

def LeanWorkerSessionKey.new (a : KeyAnswers) (projectRoot : PathBuf) (package libName : String)
    (imports : List String) : LeanWorkerSessionKey where
  projectRoot := a.normalizeImportWorkspaceRoot projectRoot
  importWorkspaceRoot :=
    a.normalizeImportWorkspaceRoot (a.normalizeImportWorkspaceRoot projectRoot)
  builtManifestPath := none
  package := package
  libName := libName
  imports := imports
  importProfile := default
  metadataExpectation := none
  toolchainFingerprint := a.current
  restartPolicyClass := .default

def restartPolicyClass : Option LeanWorkerRestartPolicy → LeanWorkerRestartPolicyClass
  | some policy => if policy = {} then .default else .custom
  | none => .default

def LeanWorkerRestartPolicyClass.debug : LeanWorkerRestartPolicyClass → String
  | .default => "Default"
  | .custom => "Custom"

def batchKeyString (key : BatchGroupKey) (modules : List LeanWorkerModuleWork) : String :=
  "project=" ++ key.projectRoot.pathString ++ ";package=" ++ key.package ++ ";lib=" ++
    key.libName ++ ";source_root=" ++ key.sourceRoot ++ ";imports=" ++
    ",".intercalate key.imports ++ ";profile=" ++ key.importProfile.label ++ ";policy=" ++
    key.restartPolicyClass.debug ++ ";modules=" ++
    ",".intercalate (modules.map LeanWorkerModuleWork.module)

structure LeanWorkerImportPlanner where
  config : LeanWorkerImportPlanConfig

namespace LeanWorkerImportPlanner

variable (planner : LeanWorkerImportPlanner) (classes : CharClasses) (a : KeyAnswers)

def groupKey (module : LeanWorkerModuleWork) : BatchGroupKey where
  projectRoot := planner.config.projectRoot
  package := planner.config.package
  libName := planner.config.libName
  sourceRoot := module.sourceRoot
  imports := module.imports
  importProfile := planner.config.importProfile
  restartPolicyClass := restartPolicyClass planner.config.restartPolicy

/-- The first loop: names are checked, and work is grouped. -/
def groupWork (modules : List LeanWorkerModuleWork) :
    Except LeanWorkerImportPlanError (List (BatchGroupKey × List LeanWorkerModuleWork)) :=
  modules.foldlM (fun groups module => do
    classes.validateModuleName module.module
    classes.validateModuleName module.sourceRoot
    return Groups.push (planner.groupKey module) module groups) []

def byName (modules : List LeanWorkerModuleWork) : List LeanWorkerModuleWork :=
  modules.mergeSort fun left right => (compare left.module right.module).isLE

def batchSessionKey (key : BatchGroupKey) : LeanWorkerSessionKey :=
  { LeanWorkerSessionKey.new a key.projectRoot key.package key.libName key.imports with
    importProfile := key.importProfile
    restartPolicyClass := key.restartPolicyClass
    metadataExpectation := planner.config.metadataExpectation.map fun expectation =>
      ⟨expectation.exportName, expectation.request, expectation.expected⟩ }

def batch (sourceSet : LeanModuleSetFingerprint)
    (group : BatchGroupKey × List LeanWorkerModuleWork) : LeanWorkerPlannedBatch :=
  let key := group.1
  let modules := byName group.2
  { sessionKey := planner.batchSessionKey a key
    projectRoot := key.projectRoot
    package := key.package
    libName := key.libName
    sourceRoot := key.sourceRoot
    imports := key.imports
    importProfile := key.importProfile
    modules := modules
    fingerprint := ⟨sourceSet.toolchain, sourceSet, batchKeyString key modules⟩
    metadataExpectation := planner.config.metadataExpectation
    restartPolicy := planner.config.restartPolicy }

def planWorkItems (modules : List LeanWorkerModuleWork) (sourceSet : LeanModuleSetFingerprint) :
    Except LeanWorkerImportPlanError (List LeanWorkerPlannedBatch) := do
  let groups ← planner.groupWork classes modules
  return groups.map (planner.batch a sourceSet)

end LeanWorkerImportPlanner

namespace LeanWorkerPlannedBatch

variable (batch : LeanWorkerPlannedBatch)

def groupKey : BatchGroupKey where
  projectRoot := batch.projectRoot
  package := batch.package
  libName := batch.libName
  sourceRoot := batch.sourceRoot
  imports := batch.imports
  importProfile := batch.importProfile
  restartPolicyClass := restartPolicyClass batch.restartPolicy

/-- The builder of the batch before its metadata expectation is added. -/
def plainBuilder : LeanWorkerCapabilityBuilder where
  projectRoot := batch.projectRoot
  package := batch.package
  libName := batch.libName
  imports := batch.imports
  importProfile := batch.importProfile
  restartPolicy := batch.restartPolicy

def capabilityBuilder : LeanWorkerCapabilityBuilder :=
  match batch.metadataExpectation with
  | none => batch.plainBuilder
  | some expectation =>
    match expectation.expected with
    | some expected =>
      batch.plainBuilder.expectMetadata expectation.exportName expectation.request expected
    | none => batch.plainBuilder.validateMetadata expectation.exportName expectation.request

end LeanWorkerPlannedBatch

end LeanRs
