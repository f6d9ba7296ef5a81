import LeanRs.Toolchain.Loader
import LeanRs.Toolchain.Paths
import Mathlib.Data.List.Infix

/-! What the build helpers read of a Lake project: its lakefile, its manifest, and where the shared
library of a target is. -/
namespace LeanRs

open Json

inductive LinkDiagnostics where
  | unsupportedToolchain (active supportedWindow : String)
  | lakeTargetMissing (projectRoot : PathBuf) (targetName : String)
  | lakeUnavailable (projectRoot : PathBuf) (targetName detail : String)
  | lakeBuildFailed (projectRoot : PathBuf) (targetName status detail : String)
  | lakeOutputUnresolved (projectRoot : PathBuf) (targetName reason : String)
  deriving DecidableEq

inductive FileRead where
  | notFound (err : String)
  | failed (err : String)
  | bytes (contents : List UInt8)
  deriving DecidableEq

/-- The fields of `lakefile.toml` that are used, trimmed and not empty. -/
structure LakefileToml where
  packageName : Option String
  leanLibs : List String
  deriving DecidableEq

structure Formats where
  json : List UInt8 → Except String Value
  toml : String → Except String LakefileToml
  sha256Hex : List UInt8 → String

/-- The lakefile that is there, `lakefile.toml` before `lakefile.lean`, and its text. -/
structure Lakefile where
  isToml : Bool
  contents : Except String String
  deriving DecidableEq

namespace Lakefile

def fileName (lakefile : Lakefile) : String :=
  if lakefile.isToml then "lakefile.toml" else "lakefile.lean"

end Lakefile

def isWhiteSpace (c : Char) : Bool :=
  let code := c.toNat
  (9 ≤ code && code ≤ 13) || code == 32 || code == 0x85 || code == 0xA0 || code == 0x1680 ||
    (0x2000 ≤ code && code ≤ 0x200A) || code == 0x2028 || code == 0x2029 || code == 0x202F ||
    code == 0x205F || code == 0x3000

def trimChars (cs : List Char) : List Char :=
  ((cs.dropWhile isWhiteSpace).reverse.dropWhile isWhiteSpace).reverse

def trimMatches (mark : Char) (cs : List Char) : List Char :=
  ((cs.dropWhile (· == mark)).reverse.dropWhile (· == mark)).reverse

def normalizeLakeIdentifier (raw : List Char) : String :=
  String.ofList (trimChars (trimMatches '"' (trimMatches '»' (trimMatches '«' (trimChars raw)))))

def splitLines : List Char → List (List Char)
  | [] => [[]]
  | c :: rest =>
    if c = '\n' then [] :: splitLines rest
    else match splitLines rest with
      | [] => [[c]]
      | line :: more => (c :: line) :: more

def stripPrefix? (start text : List Char) : Option (List Char) :=
  if start.isPrefixOf text then some (text.drop start.length) else none

def packageLine? (contents : String) : Option String :=
  (splitLines contents.toList).findSome? fun line =>
    (stripPrefix? "package ".toList (trimChars line)).map normalizeLakeIdentifier

def containsText (contents fragment : String) : Bool :=
  decide (fragment.toList <:+: contents.toList)

section Project

variable (formats : Formats) (projectRoot : PathBuf) (targetName : String)

def unresolved (reason : String) : LinkDiagnostics :=
  .lakeOutputUnresolved projectRoot targetName reason

def packageNameFromManifest (manifestPath : PathBuf) (manifestBytes : List UInt8) :
    Except LinkDiagnostics String :=
  match formats.json manifestBytes with
  | .error err => .error (unresolved projectRoot targetName
      (manifestPath.pathString ++ " is not valid JSON (" ++ err ++ ")"))
  | .ok manifest =>
    match ((manifest.get? "name").bind Value.asStr?).filter fun name => name != "" with
    | some name => .ok name
    | none => .error (unresolved projectRoot targetName
        (manifestPath.pathString ++ " has no string `name` field"))

def lakefilePath (lakefile : Lakefile) : PathBuf := projectRoot.joinStr lakefile.fileName

def readLakefile (lakefile : Lakefile) : Except LinkDiagnostics (LakefileToml ⊕ String) :=
  match lakefile.contents with
  | .error err => .error (unresolved projectRoot targetName
      ("could not read " ++ (lakefilePath projectRoot lakefile).pathString ++ " (" ++ err ++ ")"))
  | .ok contents =>
    if lakefile.isToml then
      match formats.toml contents with
      | .error err => .error (unresolved projectRoot targetName ("lakefile " ++
          (lakefilePath projectRoot lakefile).pathString ++ " is not valid TOML (" ++ err ++ ")"))
      | .ok parsed => .ok (.inl parsed)
    else .ok (.inr contents)

def packageNameFromLakefile (lakefile : Lakefile) : Except LinkDiagnostics String :=
  match readLakefile formats projectRoot targetName lakefile with
  | .error err => .error err
  | .ok (.inl parsed) =>
    match parsed.packageName with
    | some name => .ok name
    | none => .error (unresolved projectRoot targetName
        ((lakefilePath projectRoot lakefile).pathString ++ " has no top-level `name` field"))
  | .ok (.inr contents) =>
    match packageLine? contents with
    | some name => .ok name
    | none => .error (unresolved projectRoot targetName
        ((lakefilePath projectRoot lakefile).pathString ++ " has no `package` declaration"))

def targetDeclaredInLakefile (lakefile : Lakefile) : Except LinkDiagnostics Bool :=
  match readLakefile formats projectRoot targetName lakefile with
  | .error err => .error err
  | .ok (.inl parsed) => .ok (parsed.leanLibs.contains targetName)
  | .ok (.inr contents) => .ok (containsText contents ("lean_lib «" ++ targetName ++ "»") ||
      containsText contents ("lean_lib " ++ targetName) ||
      containsText contents ("lean_lib \"" ++ targetName ++ "\""))

def manifestPath : PathBuf := projectRoot.joinStr "lake-manifest.json"

def requireLakefile (lakefile : Option Lakefile) : Except LinkDiagnostics Lakefile :=
  match lakefile with
  | some lakefile => .ok lakefile
  | none => .error (unresolved projectRoot targetName ("no Lake lakefile found at " ++
      (projectRoot.joinStr "lakefile.lean").pathString ++ " or " ++
      (projectRoot.joinStr "lakefile.toml").pathString))

def inferPackageName (lakefile : Option Lakefile) (manifest : FileRead) :
    Except LinkDiagnostics String :=
  match manifest with
  | .bytes manifestBytes => packageNameFromManifest formats projectRoot targetName
      (manifestPath projectRoot) manifestBytes
  | .notFound _ => do
    let lakefile ← requireLakefile projectRoot targetName lakefile
    packageNameFromLakefile formats projectRoot targetName lakefile
  | .failed err => .error (unresolved projectRoot targetName
      ("could not read " ++ (manifestPath projectRoot).pathString ++ " (" ++ err ++ ")"))

end Project

def escapeUnderscores (name : String) : String :=
  String.ofList (name.toList.flatMap fun c => if c = '_' then ['_', '_'] else [c])

def libDir (projectRoot : PathBuf) : PathBuf :=
  ((projectRoot.joinStr ".lake").joinStr "build").joinStr "lib"

/-- Which files are there, and how a shared library is called on this system. -/
structure OutputAnswers where
  isFile : PathBuf → Bool
  macos : Bool

def OutputAnswers.dylibExtension (a : OutputAnswers) : String :=
  if a.macos then "dylib" else "so"

def newStyleDylib (a : OutputAnswers) (projectRoot : PathBuf) (packageName targetName : String) :
    PathBuf :=
  (libDir projectRoot).joinStr
    ("lib" ++ escapeUnderscores packageName ++ "_" ++ targetName ++ "." ++ a.dylibExtension)

def oldStyleDylib (a : OutputAnswers) (projectRoot : PathBuf) (targetName : String) : PathBuf :=
  (libDir projectRoot).joinStr ("lib" ++ targetName ++ "." ++ a.dylibExtension)

def resolveDylibPath (a : OutputAnswers) (projectRoot : PathBuf)
    (packageName targetName : String) : PathBuf :=
  if a.isFile (newStyleDylib a projectRoot packageName targetName) then
    newStyleDylib a projectRoot packageName targetName
  else if a.isFile (oldStyleDylib a projectRoot targetName) then
    oldStyleDylib a projectRoot targetName
  else newStyleDylib a projectRoot packageName targetName

def sanitizeChar (ch : Char) : Char :=
  if ch.isAlphanum || ch = '-' || ch = '_' then ch else '_'

def sanitizeTargetName (targetName : String) : String :=
  String.ofList (targetName.toList.map sanitizeChar)

end LeanRs
