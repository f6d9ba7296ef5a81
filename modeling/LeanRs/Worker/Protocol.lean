import Mathlib.Data.List.Basic

/-! The frames that cross the two pipes between the supervisor and its child. Typed results
that the supervisor forwards without looking inside are kept as the JSON text they are on the
wire. -/
namespace LeanRs

abbrev JsonText := String

/-- A path as the operating system has it: bytes, not characters. -/
structure PathBuf where
  bytes : List UInt8
  deriving DecidableEq

namespace PathBuf

def ofString (text : String) : PathBuf := ⟨text.toUTF8.toList⟩

def segments : List UInt8 → List (List UInt8)
  | [] => [[]]
  | b :: rest =>
    if b = 47 then [] :: segments rest
    else match segments rest with
      | [] => [[b]]
      | s :: more => (b :: s) :: more

def hasRoot (p : PathBuf) : Bool := p.bytes.head? == some 47

/-- `Path::components`: empty segments and dot segments vanish, except a dot that opens a
path without a root. -/
def components (p : PathBuf) : List (List UInt8) :=
  let parts := segments p.bytes
  let rest := parts.tail.filter (fun s => s != [] && s != [46])
  match parts.head? with
  | some [] | none => rest
  | some s => s :: rest

instance : BEq PathBuf where
  beq p q := p.hasRoot == q.hasRoot && p.components == q.components

def continuation (b : UInt8) : Bool := 0x80 ≤ b && b ≤ 0xBF

def secondOfThree (b0 b1 : UInt8) : Bool :=
  (b0 == 0xE0 && 0xA0 ≤ b1 && b1 ≤ 0xBF) || (0xE1 ≤ b0 && b0 ≤ 0xEC && continuation b1) ||
    (b0 == 0xED && 0x80 ≤ b1 && b1 ≤ 0x9F) || (0xEE ≤ b0 && b0 ≤ 0xEF && continuation b1)

def secondOfFour (b0 b1 : UInt8) : Bool :=
  (b0 == 0xF0 && 0x90 ≤ b1 && b1 ≤ 0xBF) || (0xF1 ≤ b0 && b0 ≤ 0xF3 && continuation b1) ||
    (b0 == 0xF4 && 0x80 ≤ b1 && b1 ≤ 0x8F)

def replacement : Char := Char.ofNat 0xFFFD

/- Each maximal ill-formed subsequence becomes one replacement character. -/
def lossyChars : List UInt8 → List Char
  | [] => []
  | b0 :: rest =>
    if b0 < 0x80 then Char.ofNat b0.toNat :: lossyChars rest
    else if 0xC2 ≤ b0 && b0 ≤ 0xDF then
      match rest with
      | b1 :: rest1 =>
        if continuation b1 then
          Char.ofNat ((b0.toNat - 0xC0) * 0x40 + (b1.toNat - 0x80)) :: lossyChars rest1
        else replacement :: lossyChars (b1 :: rest1)
      | [] => [replacement]
    else if 0xE0 ≤ b0 && b0 ≤ 0xEF then
      match rest with
      | b1 :: rest1 =>
        if secondOfThree b0 b1 then
          match rest1 with
          | b2 :: rest2 =>
            if continuation b2 then
              Char.ofNat ((b0.toNat - 0xE0) * 0x1000 + (b1.toNat - 0x80) * 0x40 +
                (b2.toNat - 0x80)) :: lossyChars rest2
            else replacement :: lossyChars (b2 :: rest2)
          | [] => [replacement]
        else replacement :: lossyChars (b1 :: rest1)
      | [] => [replacement]
    else if 0xF0 ≤ b0 && b0 ≤ 0xF4 then
      match rest with
      | b1 :: rest1 =>
        if secondOfFour b0 b1 then
          match rest1 with
          | b2 :: rest2 =>
            if continuation b2 then
              match rest2 with
              | b3 :: rest3 =>
                if continuation b3 then
                  Char.ofNat ((b0.toNat - 0xF0) * 0x40000 + (b1.toNat - 0x80) * 0x1000 +
                    (b2.toNat - 0x80) * 0x40 + (b3.toNat - 0x80)) :: lossyChars rest3
                else replacement :: lossyChars (b3 :: rest3)
              | [] => [replacement]
            else replacement :: lossyChars (b2 :: rest2)
          | [] => [replacement]
        else replacement :: lossyChars (b1 :: rest1)
      | [] => [replacement]
    else replacement :: lossyChars rest

def pathString (p : PathBuf) : String := String.ofList (lossyChars p.bytes)

end PathBuf

inductive LeanWorkerSessionImportProfile where
  | exportedPublic
  | server
  | «private»
  | fullPrivateCompat
  deriving DecidableEq

instance : Inhabited LeanWorkerSessionImportProfile := ⟨.private⟩

def LeanWorkerSessionImportProfile.label : LeanWorkerSessionImportProfile → String
  | .exportedPublic => "exported-public"
  | .server => "server"
  | .private => "private"
  | .fullPrivateCompat => "full-private-compat"

theorem LeanWorkerSessionImportProfile.label_injective : Function.Injective label := by
  intro p q same
  cases p <;> cases q <;> first | rfl | exact absurd same (by decide)

inductive HostSessionMode where
  | capability (package libName : String) (manifestPath : Option String)
  | shimsOnly
  deriving DecidableEq

structure LeanWorkerImportStats where
  directImportNames : List String := []
  effectiveModuleCount : Nat := 0
  compactedRegionCount : Nat := 0
  memoryMappedRegionCount : Nat := 0
  compactedRegionBytes : Nat := 0
  memoryMappedRegionBytes : Nat := 0
  nonMemoryMappedRegionBytes : Nat := 0
  importedBytes : Nat := 0
  importedConstantCount : Nat := 0
  extensionCount : Nat := 0
  totalImportedExtensionEntries : Nat := 0
  importLevel : String := ""
  importAll : Bool := false
  loadExts : Bool := false
  deriving DecidableEq, Inhabited

inductive Request where
  | health
  | loadFixtureCapability (manifestPath : String)
  | callFixtureMul (manifestPath : String) (lhs rhs : Nat)
  | triggerLeanPanic (manifestPath : String)
  | openHostSession (projectRoot : String) (mode : HostSessionMode) (imports : List String)
      (importProfile : LeanWorkerSessionImportProfile)
  | elaborate (source : String) (options : JsonText)
  | kernelCheck (source : String) (options : JsonText) (progress : Bool)
  | declarationKinds (names : List String) (progress : Bool)
  | declarationNames (names : List String) (progress : Bool)
  | runDataStream (exportName : String) (requestJson : JsonText) (progress : Bool)
  | capabilityMetadata (exportName : String) (requestJson : JsonText)
  | capabilityDoctor (exportName : String) (requestJson : JsonText)
  | jsonCommand (exportName : String) (requestJson : JsonText)
  | inferType (source : String) (options : JsonText)
  | whnf (source : String) (options : JsonText)
  | isDefEq (lhs rhs : String) (transparency options : JsonText)
  | describe (name : String)
  | searchDeclarations (search : JsonText)
  | declarationType (name : String) (maxBytes : Nat)
  | inspectDeclaration (request : JsonText)
  | attemptProof (request options : JsonText) (progress : Bool)
  | verifyDeclaration (request options : JsonText) (progress : Bool)
  | verifyDeclarationBatch (targets : List (String × JsonText)) (request options : JsonText)
      (progress : Bool)
  | listDeclarationsStrings (filter : JsonText) (progress : Bool)
  | describeBulk (names : List String) (progress : Bool)
  | processModuleQuery (source : String) (query options : JsonText)
  | processModuleQueryBatch (source : String) (selectors : List (String × JsonText))
      (budgets options : JsonText)
  | clearModuleSnapshotCache
  | emitTestRows (streams : List String)
  | emitTestRowsThenExit
  | emitTestRowsThenPanic
  | terminate
  deriving DecidableEq

structure StreamSummary where
  totalRows : Nat
  perStreamCounts : List (String × Nat)
  elapsedMicros : Nat
  metadata : Option JsonText
  deriving DecidableEq

/-- Child-issued terminal response body for one request. -/
inductive Response where
  | healthOk
  | capabilityLoaded
  | u64 (value : Nat)
  | hostSessionOpened (importStats : LeanWorkerImportStats)
  | hostSessionReused (importStats : LeanWorkerImportStats)
  | elaboration (outcome : JsonText)
  | kernelCheck (outcome : JsonText)
  | strings (values : List String)
  | streamComplete (summary : StreamSummary)
  | streamExportFailed (statusByte : Nat)
  | streamCallbackFailed (statusByte : Nat) (description : String)
  | streamRowMalformed (message : String)
  | capabilityMetadata (metadata : JsonText)
  | capabilityDoctor (report : JsonText)
  | capabilityMetadataMalformed (message : String)
  | capabilityDoctorMalformed (message : String)
  | jsonCommand (responseJson : JsonText)
  | metaExpr (result : JsonText)
  | metaBool (result : JsonText)
  | declaration (row : Option JsonText)
  | declarationSearch (result : JsonText)
  | declarationType (row : Option JsonText)
  | declarationInspection (result : JsonText)
  | proofAttempt (result : JsonText)
  | declarationVerification (result : JsonText)
  | declarationVerificationBatch (result : JsonText)
  | declarationBulk (rows : List JsonText)
  | processModuleQuery (outcome : JsonText)
  | processModuleQueryBatch (outcome : JsonText)
  | moduleSnapshotCacheCleared (result : JsonText)
  | rowsComplete (count : Nat)
  | terminating
  | error (code message : String)
  deriving DecidableEq

structure Diagnostic where
  code : String
  message : String
  deriving DecidableEq

structure ProgressTick where
  phase : String
  current : Nat
  total : Option Nat
  deriving DecidableEq

structure DataRow where
  stream : String
  sequence : Nat
  payload : JsonText
  deriving DecidableEq

inductive Message where
  | handshake (workerVersion : String) (protocolVersion : Nat)
  | configureFrameLimit (maxFrameBytes : Nat)
  | request (request : Request)
  | response (response : Response)
  | diagnostic (diagnostic : Diagnostic)
  | progressTick (tick : ProgressTick)
  | dataRow (row : DataRow)
  | fatalExit (body : JsonText)
  deriving DecidableEq

def Message.isTerminal : Message → Bool
  | .response _ => true
  | _ => false

end LeanRs
