import LeanRs.Child.SessionPool
import LeanRs.General.JsonString
import LeanRs.General.LittleEndian
import LeanRs.General.Text
import LeanRs.Toolchain.Loader

/-! The bytes that the key of a cached module query is the digest of, and the texts for which they
tell two queries apart. -/
namespace LeanRs

open Text
open LeanWorkerSessionImportProfile (label_injective)

structure LeanWorkerElabOptions where
  namespaceContext : String
  fileLabel : String
  heartbeatLimit : UInt64
  diagnosticByteLimit : UInt64
  deriving DecidableEq

namespace HostSessionMode

def manifestJson : Option String → List Char
  | none => "null".toList
  | some path => Json.literal path.toList

def toJson : HostSessionMode → List Char
  | .capability package libName manifestPath =>
    "\x7b\"kind\":\"capability\",\"package\":".toList ++ (Json.literal package.toList ++
      (",\"lib_name\":".toList ++ (Json.literal libName.toList ++
        (",\"manifest_path\":".toList ++ (manifestJson manifestPath ++ "\x7d".toList)))))
  | .shimsOnly => "\x7b\"kind\":\"shims_only\"\x7d".toList

theorem manifestJson_inj {p q : Option String} {u v : List Char}
    (same : manifestJson p ++ u = manifestJson q ++ v) : p = q ∧ u = v := by
  cases p with
  | none =>
    cases q with
    | none => exact ⟨rfl, List.append_cancel_left same⟩
    | some q => exact absurd (List.cons.inj same).1 (by decide)
  | some p =>
    cases q with
    | none => exact absurd (List.cons.inj same).1 (by decide)
    | some q =>
      obtain ⟨paths, rest⟩ := Json.literal_inj same
      exact ⟨congrArg some (String.toList_inj.mp paths), rest⟩

theorem toJson_injective {m n : HostSessionMode} (same : m.toJson = n.toJson) : m = n := by
  have kinds : ∀ package libName manifestPath,
      (capability package libName manifestPath).toJson ≠ shimsOnly.toJson := by
    intro package libName manifestPath equal
    have start : some 'c' = some 's' := congrArg (fun cs => cs[9]?) equal
    exact absurd start (by decide)
  cases m with
  | shimsOnly =>
    cases n with
    | shimsOnly => rfl
    | capability package libName manifestPath => exact absurd same.symm (kinds _ _ _)
  | capability package libName manifestPath =>
    cases n with
    | shimsOnly => exact absurd same (kinds _ _ _)
    | capability package' libName' manifestPath' =>
      obtain ⟨packages, rest⟩ := Json.literal_inj (List.append_cancel_left same)
      obtain ⟨libs, rest⟩ := Json.literal_inj (List.append_cancel_left rest)
      obtain ⟨rfl, -⟩ := manifestJson_inj (List.append_cancel_left rest)
      rw [String.toList_inj.mp packages, String.toList_inj.mp libs]

def printable (text : String) : Bool := text.toList.all fun c => 0x20 ≤ c.toNat

theorem toJson_printable (mode : HostSessionMode) : ∀ c ∈ mode.toJson, 0x20 ≤ c.toNat := by
  have fixed : ∀ {text : String}, printable text = true → ∀ c ∈ text.toList, 0x20 ≤ c.toNat :=
    fun all c member => of_decide_eq_true (List.all_eq_true.mp all c member)
  have manifest : ∀ path, ∀ c ∈ manifestJson path, 0x20 ≤ c.toNat := by
    intro path
    cases path with
    | none => exact fixed (by decide +kernel : printable "null" = true)
    | some path => exact Json.literal_printable
  intro c member
  cases mode with
  | shimsOnly => exact fixed (by decide +kernel) c member
  | capability package libName manifestPath =>
    unfold toJson at member
    rw [List.mem_append, List.mem_append, List.mem_append, List.mem_append, List.mem_append,
      List.mem_append] at member
    obtain head | text | head | text | head | text | head := member
    · exact fixed (by decide +kernel) c head
    · exact Json.literal_printable c text
    · exact fixed (by decide +kernel) c head
    · exact Json.literal_printable c text
    · exact fixed (by decide +kernel) c head
    · exact manifest _ c text
    · exact fixed (by decide +kernel) c head

end HostSessionMode

def moduleQueryCacheApiVersion : String := "lean-rs.module-query-cache.v3"

def textBytes (text : String) : List UInt8 := encode text.toList

def keyTag (name : String) : List UInt8 := 0 :: (textBytes name ++ [0])

def ToolchainFingerprint.keyBytes (toolchain : ToolchainFingerprint) : List UInt8 :=
  textBytes toolchain.leanVersion ++ [0] ++ textBytes toolchain.resolvedVersion ++ [0] ++
    textBytes toolchain.headerSha256 ++ [0] ++ textBytes toolchain.fixtureSha256 ++ [0] ++
    textBytes toolchain.hostTriple

def moduleQueryCacheKey (toolchain : ToolchainFingerprint) (projectRoot : String)
    (mode : HostSessionMode) (source : String) (imports : List String)
    (importProfile : LeanWorkerSessionImportProfile) (options : LeanWorkerElabOptions)
    (fileIdentity : String) : List UInt8 :=
  textBytes moduleQueryCacheApiVersion ++ (keyTag "project" ++ (textBytes projectRoot ++
    (keyTag "mode" ++ (encode mode.toJson ++
    (keyTag "file" ++ (textBytes fileIdentity ++
    (keyTag "source" ++ (textBytes source ++
    (keyTag "imports" ++ (imports.flatMap (textBytes · ++ [0]) ++
    (keyTag "import_profile" ++ (textBytes importProfile.label ++
    (keyTag "toolchain" ++ (toolchain.keyBytes ++
    (keyTag "options" ++ (textBytes options.namespaceContext ++
    ([0] ++ (textBytes options.fileLabel ++
    ([0] ++ (LittleEndian.toBytes 8 options.heartbeatLimit.toNat ++
    LittleEndian.toBytes 8 options.diagnosticByteLimit.toNat))))))))))))))))))))

structure ModuleQuery where
  session : HostSessionKey
  source : String
  options : LeanWorkerElabOptions
  deriving DecidableEq

/-- The bytes behind the key that `module_query_cache_policy` hands out: the file's identity is its
label. -/
def ModuleQuery.keyBytes (toolchain : ToolchainFingerprint) (q : ModuleQuery) : List UInt8 :=
  moduleQueryCacheKey toolchain q.session.projectRoot q.session.mode q.source q.session.imports
    q.session.importProfile q.options q.options.fileLabel

theorem zero_not_mem_textBytes {text : String} (plain : Char.ofNat 0 ∉ text.toList) :
    0 ∉ textBytes text :=
  fun member => plain (mem_of_mem_encode member (by decide) rfl)

theorem textBytes_injective {s t : String} (same : textBytes s = textBytes t) : s = t :=
  String.toList_inj.mp (encode_injective same)

theorem label_plain (p : LeanWorkerSessionImportProfile) : 0 ∉ textBytes p.label := by
  cases p <;> decide +kernel

theorem mode_plain (mode : HostSessionMode) : 0 ∉ encode mode.toJson := by
  intro member
  have inside := mem_of_mem_encode (c := Char.ofNat 0) member (by decide) rfl
  exact absurd (mode.toJson_printable _ inside) (by decide)

theorem limit_injective {m n : UInt64}
    (same : LittleEndian.toBytes 8 m.toNat = LittleEndian.toBytes 8 n.toNat) : m = n := by
  have read := congrArg LittleEndian.ofBytes same
  rw [LittleEndian.ofBytes_toBytes m.toNat_lt, LittleEndian.ofBytes_toBytes n.toNat_lt] at read
  exact UInt64.toNat_inj.mp read

/-- The texts of a query, apart from those of the mode, which are escaped. -/
def ModuleQuery.texts (q : ModuleQuery) : List String :=
  [q.session.projectRoot, q.source, q.options.namespaceContext, q.options.fileLabel] ++
    q.session.imports

def ModuleQuery.Plain (q : ModuleQuery) : Prop := ∀ text ∈ q.texts, Char.ofNat 0 ∉ text.toList

theorem keyTag_split_first {name : String} {x y u v : List UInt8} (inX : 0 ∉ x) (inY : 0 ∉ y)
    (same : x ++ (keyTag name ++ u) = y ++ (keyTag name ++ v)) : x = y ∧ u = v := by
  have marked : x ++ 0 :: (textBytes name ++ [0] ++ u) = y ++ 0 :: (textBytes name ++ [0] ++ v) :=
    same
  obtain ⟨before, after⟩ := split_first inX inY marked
  exact ⟨before, List.append_cancel_left after⟩

theorem keyTag_split_last {name : String} {x y u v : List UInt8} (inU : 0 ∉ u) (inV : 0 ∉ v)
    (same : x ++ (keyTag name ++ u) = y ++ (keyTag name ++ v)) : x = y ∧ u = v := by
  have marked : (x ++ 0 :: textBytes name) ++ 0 :: u = (y ++ 0 :: textBytes name) ++ 0 :: v := by
    simpa only [keyTag, List.cons_append, List.append_assoc, List.nil_append] using same
  obtain ⟨before, after⟩ := split_last inU inV marked
  exact ⟨List.append_cancel_right before, after⟩

theorem imports_injective {xs ys : List String} (plainXs : ∀ x ∈ xs, Char.ofNat 0 ∉ x.toList)
    (plainYs : ∀ y ∈ ys, Char.ofNat 0 ∉ y.toList)
    (same : xs.flatMap (textBytes · ++ [0]) = ys.flatMap (textBytes · ++ [0])) : xs = ys := by
  have pieces : ∀ zs : List String, (∀ z ∈ zs, Char.ofNat 0 ∉ z.toList) →
      ∀ piece ∈ zs.map textBytes, 0 ∉ piece := by
    intro zs plain piece member
    obtain ⟨z, inside, rfl⟩ := List.mem_map.mp member
    exact zero_not_mem_textBytes (plain z inside)
  have mapped : (xs.map textBytes).flatMap (· ++ [0]) = (ys.map textBytes).flatMap (· ++ [0]) := by
    rw [List.flatMap_map, List.flatMap_map]
    exact same
  have joined := terminated_inj (pieces xs plainXs) (pieces ys plainYs) mapped
  exact List.map_injective_iff.mpr (fun _ _ => textBytes_injective) joined

theorem keyTail_injective {toolchain : ToolchainFingerprint} {x y : List UInt8}
    {p q : LeanWorkerSessionImportProfile} {n m : String} {label : List UInt8} {a b c d : UInt64}
    (plainN : 0 ∉ textBytes n) (plainM : 0 ∉ textBytes m)
    (same : x ++ (keyTag "import_profile" ++ (textBytes p.label ++ (keyTag "toolchain" ++
        (toolchain.keyBytes ++ (keyTag "options" ++ (textBytes n ++ ([0] ++ (label ++ ([0] ++
        (LittleEndian.toBytes 8 a.toNat ++ LittleEndian.toBytes 8 b.toNat)))))))))) =
      y ++ (keyTag "import_profile" ++ (textBytes q.label ++ (keyTag "toolchain" ++
        (toolchain.keyBytes ++ (keyTag "options" ++ (textBytes m ++ ([0] ++ (label ++ ([0] ++
        (LittleEndian.toBytes 8 c.toNat ++ LittleEndian.toBytes 8 d.toNat))))))))))) :
    x = y ∧ p = q ∧ n = m ∧ a = c ∧ b = d := by
  let limits : UInt64 → UInt64 → List UInt8 := fun a b =>
    [0] ++ (label ++ ([0] ++ (LittleEndian.toBytes 8 a.toNat ++ LittleEndian.toBytes 8 b.toNat)))
  have widths : (limits a b).length = (limits c d).length := by
    simp only [limits, List.length_append, LittleEndian.length_toBytes]
  have grouped : (x ++ (keyTag "import_profile" ++ (textBytes p.label ++ (keyTag "toolchain" ++
        (toolchain.keyBytes ++ (keyTag "options" ++ textBytes n)))))) ++ limits a b =
      (y ++ (keyTag "import_profile" ++ (textBytes q.label ++ (keyTag "toolchain" ++
        (toolchain.keyBytes ++ (keyTag "options" ++ textBytes m)))))) ++ limits c d := by
    simpa only [limits, List.append_assoc] using same
  obtain ⟨front, ends⟩ := List.append_inj' grouped widths
  have numbers := List.append_cancel_left (List.append_cancel_left (List.append_cancel_left ends))
  obtain ⟨first, second⟩ := List.append_inj numbers (by
    rw [LittleEndian.length_toBytes, LittleEndian.length_toBytes])
  have options : (x ++ (keyTag "import_profile" ++ (textBytes p.label ++ (keyTag "toolchain" ++
        toolchain.keyBytes)))) ++ (keyTag "options" ++ textBytes n) =
      (y ++ (keyTag "import_profile" ++ (textBytes q.label ++ (keyTag "toolchain" ++
        toolchain.keyBytes)))) ++ (keyTag "options" ++ textBytes m) := by
    simpa only [List.append_assoc] using front
  obtain ⟨front, names⟩ := keyTag_split_last plainN plainM options
  have profiles : (x ++ (keyTag "import_profile" ++ textBytes p.label)) ++
        (keyTag "toolchain" ++ toolchain.keyBytes) =
      (y ++ (keyTag "import_profile" ++ textBytes q.label)) ++
        (keyTag "toolchain" ++ toolchain.keyBytes) := by
    simpa only [List.append_assoc] using front
  obtain ⟨imports, labels⟩ :=
    keyTag_split_last (label_plain p) (label_plain q) (List.append_cancel_right profiles)
  exact ⟨imports, label_injective (textBytes_injective labels), textBytes_injective names,
    limit_injective first, limit_injective second⟩

theorem keyBytes_injective {toolchain : ToolchainFingerprint} {q r : ModuleQuery} (plainQ : q.Plain)
    (plainR : r.Plain) (same : q.keyBytes toolchain = r.keyBytes toolchain) : q = r := by
  have plain : ∀ {s : ModuleQuery}, s.Plain → ∀ {text}, text ∈ s.texts → 0 ∉ textBytes text :=
    fun plain _ member => zero_not_mem_textBytes (plain _ member)
  obtain ⟨⟨root, mode, imports, profile⟩, source, ⟨name, label, limit, diagnostics⟩⟩ := q
  obtain ⟨⟨root', mode', imports', profile'⟩, source', ⟨name', label', limit', diagnostics'⟩⟩ := r
  have fromProject := List.append_cancel_left (List.append_cancel_left same)
  obtain ⟨roots, fromMode⟩ := keyTag_split_first
    (plain plainQ (by simp [ModuleQuery.texts])) (plain plainR (by simp [ModuleQuery.texts]))
    fromProject
  obtain ⟨modes, fromFile⟩ := keyTag_split_first (mode_plain mode) (mode_plain mode') fromMode
  obtain ⟨labels, fromSource⟩ := keyTag_split_first
    (plain plainQ (by simp [ModuleQuery.texts])) (plain plainR (by simp [ModuleQuery.texts]))
    fromFile
  obtain ⟨sources, fromImports⟩ := keyTag_split_first
    (plain plainQ (by simp [ModuleQuery.texts])) (plain plainR (by simp [ModuleQuery.texts]))
    fromSource
  obtain rfl := textBytes_injective roots
  obtain rfl := HostSessionMode.toJson_injective (encode_injective modes)
  obtain rfl := textBytes_injective labels
  obtain rfl := textBytes_injective sources
  obtain ⟨lists, rfl, rfl, rfl, rfl⟩ := keyTail_injective
    (plain plainQ (by simp [ModuleQuery.texts])) (plain plainR (by simp [ModuleQuery.texts]))
    fromImports
  obtain rfl := imports_injective
    (fun x member => plainQ x (by simp [ModuleQuery.texts, member]))
    (fun x member => plainR x (by simp [ModuleQuery.texts, member])) lists
  rfl

structure TextClass where
  holds : String → Prop
  parts : ∀ {first second : String}, holds (first ++ second) → holds first ∧ holds second

def ModuleQuery.Over (texts : TextClass) (q : ModuleQuery) : Prop :=
  ∀ text ∈ q.texts, texts.holds text

def bareQuery (imports : List String) : ModuleQuery where
  session := ⟨"", .shimsOnly, imports, .private⟩
  source := ""
  options := ⟨"", "", 200000, 65536⟩

theorem nul_held {texts : TextClass} {text : String} (held : texts.holds text)
    (inside : Char.ofNat 0 ∈ text.toList) :
    texts.holds (String.ofList [Char.ofNat 0]) ∧ texts.holds "" := by
  obtain ⟨before, after, split⟩ := List.append_of_mem inside
  have whole : text = String.ofList before ++
      (String.ofList [Char.ofNat 0] ++ String.ofList after) := by
    rw [← String.ofList_append, ← String.ofList_append, ← String.ofList_toList (s := text), split]
    rfl
  have mark := (texts.parts (texts.parts (whole ▸ held)).2).1
  have nothing : "" ++ String.ofList [Char.ofNat 0] = String.ofList [Char.ofNat 0] := by simp
  have empty : texts.holds "" ∧ texts.holds (String.ofList [Char.ofNat 0]) :=
    texts.parts (nothing.symm ▸ mark)
  exact ⟨mark, empty.1⟩

/-- The keys of the queries over a class of texts tell them apart exactly when no text of the class
holds a NUL character. -/
theorem module_query_keys_separate_iff (toolchain : ToolchainFingerprint) (texts : TextClass) :
    (∀ q r : ModuleQuery, q.Over texts → r.Over texts → q ≠ r →
      q.keyBytes toolchain ≠ r.keyBytes toolchain) ↔
    ∀ text, texts.holds text → Char.ofNat 0 ∉ text.toList := by
  constructor
  · intro separate text held inside
    obtain ⟨mark, nothing⟩ := nul_held held inside
    have bare : ∀ imports, (∀ i ∈ imports, texts.holds i) → (bareQuery imports).Over texts := by
      intro imports all text member
      simp only [ModuleQuery.texts, bareQuery, List.cons_append, List.nil_append,
        List.mem_cons] at member
      obtain rfl | rfl | rfl | rfl | member := member
      · exact nothing
      · exact nothing
      · exact nothing
      · exact nothing
      · exact all text member
    have one : (bareQuery [String.ofList [Char.ofNat 0]]).Over texts :=
      bare _ (by simpa using mark)
    have two : (bareQuery ["", ""]).Over texts := bare _ (by simpa using nothing)
    exact separate _ _ one two (by decide) rfl
  · intro plain q r overQ overR different same
    exact different (keyBytes_injective (fun text member => plain text (overQ text member))
      (fun text member => plain text (overR text member)) same)

/-- A source can spell out the imports of another session. -/
theorem imports_in_source_share_key :
    ¬∀ (toolchain : ToolchainFingerprint) (q r : ModuleQuery), q ≠ r →
      q.keyBytes toolchain ≠ r.keyBytes toolchain := by
  intro separate
  let options : LeanWorkerElabOptions := ⟨"", "A.lean", 200000, 65536⟩
  let wide : ModuleQuery := ⟨⟨"/p", .shimsOnly, ["Init", "imports"], .private⟩, "#check A", options⟩
  let narrow : ModuleQuery :=
    ⟨⟨"/p", .shimsOnly, [], .private⟩, "#check A\x00imports\x00Init", options⟩
  exact separate ⟨"4.33.0", "4.33.0", "", "", ""⟩ wide narrow (by decide +kernel)
    (by decide +kernel)

end LeanRs
