import LeanRs.Child.SessionPool
import LeanRs.Toolchain.Paths
import LeanRs.Worker.Operations

/-! What the supervisor and its child take for the same session: the one compares paths by
component, the other the text that crossed the wire. -/
namespace LeanRs

/-- How a text stands for bytes. A slash and a dot stand only for themselves; any other character
stands for some bytes, not always the same, that have no slash. -/
inductive Lossy : List UInt8 → List Char → Prop
  | nil : Lossy [] []
  | slash {s : List UInt8} {cs : List Char} : Lossy s cs → Lossy (47 :: s) ('/' :: cs)
  | char {used s : List UInt8} {c : Char} {cs : List Char} : used ≠ [] → 47 ∉ used →
      c ≠ '/' → (used = [46] ↔ c = '.') → Lossy s cs → Lossy (used ++ s) (c :: cs)

namespace Lossy

theorem toNat_ofNat_wide {n : Nat} (wide : 128 ≤ n) :
    (Char.ofNat n).toNat = 0 ∨ 128 ≤ (Char.ofNat n).toNat := by
  unfold Char.ofNat
  by_cases valid : n.isValidChar
  · rw [dif_pos valid]
    exact Or.inr wide
  · rw [dif_neg valid]
    exact Or.inl rfl

theorem wide (used : List UInt8) {s : List UInt8} {c : Char} {cs : List Char} (some : used ≠ [])
    (high : ∀ b ∈ used, 128 ≤ b.toNat) (other : c.toNat = 0 ∨ 128 ≤ c.toNat) (rest : Lossy s cs) :
    Lossy (used ++ s) (c :: cs) := by
  have slash : (47 : UInt8) ∉ used := fun member => absurd (high 47 member) (by decide)
  have dot : used ≠ [46] := fun same =>
    absurd (high 46 (same ▸ List.mem_singleton_self 46)) (by decide)
  have notSlash : c ≠ '/' := by
    rintro rfl
    exact absurd other (by decide)
  have notDot : c ≠ '.' := by
    rintro rfl
    exact absurd other (by decide)
  exact .char some slash notSlash (iff_of_false dot notDot) rest

theorem replaced (used : List UInt8) {s : List UInt8} {cs : List Char} (some : used ≠ [])
    (high : ∀ b ∈ used, 128 ≤ b.toNat) (rest : Lossy s cs) :
    Lossy (used ++ s) (PathBuf.replacement :: cs) :=
  .wide used some high (Or.inr (by decide)) rest

theorem ofNat_toNat_inj {b : UInt8} {c : Char} (ascii : b.toNat < 128) :
    Char.ofNat b.toNat = c ↔ b.toNat = c.toNat := by
  have valid : b.toNat.isValidChar := Or.inl (by omega)
  have code : (Char.ofNat b.toNat).toNat = b.toNat := by
    unfold Char.ofNat
    rw [dif_pos valid]
    rfl
  constructor
  · rintro rfl
    exact code.symm
  · intro same
    rw [same, Char.ofNat_toNat]

theorem ascii {b : UInt8} {s : List UInt8} {cs : List Char} (small : b.toNat < 128)
    (rest : Lossy s cs) : Lossy (b :: s) (Char.ofNat b.toNat :: cs) := by
  by_cases slash : b = 47
  · subst slash
    exact .slash rest
  · have notSlash : Char.ofNat b.toNat ≠ '/' := fun same =>
      slash (UInt8.toNat_inj.mp ((ofNat_toNat_inj small).mp same))
    have dot : [b] = [46] ↔ Char.ofNat b.toNat = '.' := by
      rw [ofNat_toNat_inj small, List.singleton_inj, ← UInt8.toNat_inj]
      rfl
    exact .char (List.cons_ne_nil b []) (by simpa using Ne.symm slash) notSlash dot rest

end Lossy

theorem lossy_lossyChars (s : List UInt8) : Lossy s (PathBuf.lossyChars s) := by
  have wide {b : UInt8} (notAscii : ¬b < 0x80) : 128 ≤ b.toNat :=
    Nat.le_of_not_lt fun small => notAscii (UInt8.lt_iff_toNat_lt.mpr small)
  fun_induction PathBuf.lossyChars s with
  | case1 => exact .nil
  | case2 b0 rest small ih => exact .ascii (UInt8.lt_iff_toNat_lt.mp small) ih
  | case3 b0 high lead b1 rest1 second ih =>
    have bounds := PathBuf.lead_range lead
    have first : 194 ≤ b0.toNat := bounds.1
    have next := PathBuf.continuation_bounds second
    exact .wide [b0, b1] nofun (by simp [next]; omega)
      (Lossy.toNat_ofNat_wide (by omega)) ih
  | case4 b0 high lead b1 rest1 second ih =>
    exact .replaced [b0] nofun (by simp [wide high]) ih
  | case5 b0 high lead =>
    exact .replaced [b0] nofun (by simp [wide high]) .nil
  | case6 b0 high notTwo lead b1 second b2 rest2 third ih =>
    have bounds := PathBuf.lead_range lead
    have first : 224 ≤ b0.toNat := bounds.1
    have next := PathBuf.secondOfThree_bounds second
    have last := PathBuf.continuation_bounds third
    exact .wide [b0, b1, b2] nofun (by simp [next, last]; omega)
      (Lossy.toNat_ofNat_wide (by omega)) ih
  | case7 b0 high notTwo lead b1 second b2 rest2 third ih =>
    exact .replaced [b0, b1] nofun
      (by simp [wide high, (PathBuf.secondOfThree_bounds second).1]) ih
  | case8 b0 high notTwo lead b1 second =>
    exact .replaced [b0, b1] nofun
      (by simp [wide high, (PathBuf.secondOfThree_bounds second).1]) .nil
  | case9 b0 high notTwo lead b1 rest1 second ih =>
    exact .replaced [b0] nofun (by simp [wide high]) ih
  | case10 b0 high notTwo lead =>
    exact .replaced [b0] nofun (by simp [wide high]) .nil
  | case11 b0 high notTwo notThree lead b1 second b2 third b3 rest3 fourth ih =>
    have bounds := PathBuf.lead_range lead
    have first : 240 ≤ b0.toNat := bounds.1
    have next := PathBuf.secondOfFour_bounds second
    have last := PathBuf.continuation_bounds third
    have final := PathBuf.continuation_bounds fourth
    exact .wide [b0, b1, b2, b3] nofun (by simp [next, last, final]; omega)
      (Lossy.toNat_ofNat_wide (by omega)) ih
  | case12 b0 high notTwo notThree lead b1 second b2 third b3 rest3 fourth ih =>
    have next := PathBuf.secondOfFour_bounds second
    have last := PathBuf.continuation_bounds third
    exact .replaced [b0, b1, b2] nofun (by simp [wide high, next, last]) ih
  | case13 b0 high notTwo notThree lead b1 second b2 third =>
    have next := PathBuf.secondOfFour_bounds second
    have last := PathBuf.continuation_bounds third
    exact .replaced [b0, b1, b2] nofun (by simp [wide high, next, last]) .nil
  | case14 b0 high notTwo notThree lead b1 second b2 rest2 third ih =>
    exact .replaced [b0, b1] nofun
      (by simp [wide high, (PathBuf.secondOfFour_bounds second).1]) ih
  | case15 b0 high notTwo notThree lead b1 second =>
    exact .replaced [b0, b1] nofun
      (by simp [wide high, (PathBuf.secondOfFour_bounds second).1]) .nil
  | case16 b0 high notTwo notThree lead b1 rest1 second ih =>
    exact .replaced [b0] nofun (by simp [wide high]) ih
  | case17 b0 high notTwo notThree lead =>
    exact .replaced [b0] nofun (by simp [wide high]) .nil
  | case18 b0 rest high notTwo notThree notFour ih =>
    exact .replaced [b0] nofun (by simp [wide high]) ih

namespace Lossy

theorem nil_iff {s : List UInt8} {cs : List Char} (reading : Lossy s cs) : s = [] ↔ cs = [] := by
  cases reading with
  | nil => exact iff_of_true rfl rfl
  | slash rest => exact iff_of_false (List.cons_ne_nil _ _) (List.cons_ne_nil _ _)
  | char some noSlash notSlash dot rest =>
    exact iff_of_false (fun none => some (List.append_eq_nil_iff.mp none).1)
      (List.cons_ne_nil _ _)

theorem dot_iff {s : List UInt8} {cs : List Char} (reading : Lossy s cs) :
    s = [46] ↔ cs = ['.'] := by
  cases reading with
  | nil => exact iff_of_false nofun nofun
  | slash rest => exact iff_of_false (by simp) (by simp)
  | char some noSlash notSlash dot rest =>
    rw [List.cons_eq_cons, ← rest.nil_iff, ← dot, List.append_eq_singleton_iff]
    constructor
    · rintro (⟨none, -⟩ | whole)
      · exact absurd none some
      · exact whole
    · exact Or.inr

end Lossy

def ReadAlike (s t : List UInt8) : Prop := ∃ cs, Lossy s cs ∧ Lossy t cs

theorem segments_cons (s : List UInt8) : ∃ first more, PathBuf.segments s = first :: more := by
  fun_induction PathBuf.segments s with
  | case1 => exact ⟨[], [], rfl⟩
  | case2 => exact ⟨_, _, rfl⟩
  | case3 => exact ⟨_, _, rfl⟩
  | case4 => exact ⟨_, _, rfl⟩

theorem segments_append {used s first : List UInt8} {more : List (List UInt8)}
    (noSlash : 47 ∉ used) (parts : PathBuf.segments s = first :: more) :
    PathBuf.segments (used ++ s) = (used ++ first) :: more := by
  induction used with
  | nil => exact parts
  | cons b used ih =>
    have other : b ≠ 47 := fun same => noSlash (same ▸ List.mem_cons_self)
    have tail := ih fun member => noSlash (List.mem_cons_of_mem b member)
    simp only [List.cons_append, PathBuf.segments, if_neg other, tail]

theorem Lossy.segments {s : List UInt8} {cs : List Char} (reading : Lossy s cs) :
    ∀ {t : List UInt8}, Lossy t cs →
      List.Forall₂ ReadAlike (PathBuf.segments s) (PathBuf.segments t) := by
  induction reading with
  | nil =>
    intro t other
    rw [other.nil_iff.mpr rfl]
    exact .cons ⟨[], .nil, .nil⟩ .nil
  | @slash s cs rest ih =>
    intro t other
    cases other with
    | slash rest' => exact .cons ⟨[], .nil, .nil⟩ (ih rest')
    | char some noSlash notSlash dot rest' => exact absurd rfl notSlash
  | @char used s c cs some noSlash notSlash dot rest ih =>
    intro t other
    cases other with
    | slash rest' => exact absurd rfl notSlash
    | @char used' s' _ _ some' noSlash' notSlash' dot' rest' =>
      have parts := ih rest'
      obtain ⟨first, more, at_s⟩ := segments_cons s
      obtain ⟨first', more', at_s'⟩ := segments_cons s'
      rw [at_s, at_s'] at parts
      rw [segments_append noSlash at_s, segments_append noSlash' at_s']
      cases parts with
      | cons alike others =>
        obtain ⟨ds, one, two⟩ := alike
        exact .cons ⟨c :: ds, .char some noSlash notSlash dot one,
          .char some' noSlash' notSlash' dot' two⟩ others

theorem segments_injective {s t : List UInt8} (same : PathBuf.segments s = PathBuf.segments t) :
    s = t := by
  have joined (s : List UInt8) : [47].intercalate (PathBuf.segments s) = s := by
    induction s with
    | nil => rfl
    | cons b s ih =>
      obtain ⟨first, more, parts⟩ := segments_cons s
      rw [parts] at ih
      by_cases slash : b = 47
      · subst slash
        rw [PathBuf.segments, if_pos rfl, parts]
        conv => rhs; rw [← ih]
        rfl
      · rw [show b :: s = [b] ++ s from rfl,
          segments_append (by simpa using Ne.symm slash) parts]
        conv => rhs; rw [← ih]
        cases more <;> rfl
  rw [← joined s, same, joined t]

def kept (segment : List UInt8) : Bool := segment != [] && segment != [46]

theorem segments_of_kept {ss ts : List (List UInt8)} (alike : List.Forall₂ ReadAlike ss ts)
    (same : ss.filter kept = ts.filter kept) : ss = ts := by
  induction alike with
  | nil => rfl
  | @cons s t ss ts here others ih =>
    obtain ⟨cs, one, two⟩ := here
    have empty : s = [] ↔ t = [] := one.nil_iff.trans two.nil_iff.symm
    have dot : s = [46] ↔ t = [46] := one.dot_iff.trans two.dot_iff.symm
    have both : kept s = kept t := by
      rw [Bool.eq_iff_iff]
      simp only [kept, Bool.and_eq_true, bne_iff_ne, ne_eq, empty, dot]
    cases keep : kept s with
    | true =>
      rw [List.filter_cons_of_pos keep, List.filter_cons_of_pos (both ▸ keep),
        List.cons_eq_cons] at same
      rw [same.1, ih same.2]
    | false =>
      have here : s = t := by
        by_cases none : s = []
        · rw [none, empty.mp none]
        · have single : s = [46] := by simpa [kept, none] using keep
          rw [single, dot.mp single]
      have drop : kept t = false := both ▸ keep
      rw [List.filter_cons_of_neg (by simp [keep]),
        List.filter_cons_of_neg (by simp [drop])] at same
      rw [here, ih same]

namespace PathBuf

theorem components_cons {p : PathBuf} {first : List UInt8} {more : List (List UInt8)}
    (parts : segments p.bytes = first :: more) :
    p.components = (if first = [] then [] else [first]) ++ more.filter kept := by
  cases first with
  | nil =>
    simp only [components, parts]
    rfl
  | cons b first =>
    simp only [components, parts]
    rfl

theorem eq_of_components {p q : PathBuf} (same : (p == q) = true)
    (text : p.pathString = q.pathString) : p = q := by
  have chars : lossyChars p.bytes = lossyChars q.bytes := String.ofList_injective text
  have alike := (lossy_lossyChars p.bytes).segments (chars ▸ lossy_lossyChars q.bytes)
  have components : p.components = q.components := by
    have both : (p.hasRoot == q.hasRoot && p.components == q.components) = true := same
    rw [Bool.and_eq_true] at both
    exact eq_of_beq both.2
  obtain ⟨first, more, parts⟩ := segments_cons p.bytes
  obtain ⟨first', more', parts'⟩ := segments_cons q.bytes
  rw [parts, parts'] at alike
  rw [components_cons parts, components_cons parts'] at components
  obtain ⟨⟨cs, one, two⟩, others⟩ := List.forall₂_cons.mp alike
  have empty : first = [] ↔ first' = [] := one.nil_iff.trans two.nil_iff.symm
  have whole : first = first' ∧ more.filter kept = more'.filter kept := by
    by_cases none : first = []
    · have none' := empty.mp none
      rw [if_pos none, if_pos none'] at components
      exact ⟨none.trans none'.symm, components⟩
    · rw [if_neg none, if_neg (mt empty.mpr none)] at components
      exact List.cons_eq_cons.mp components
  have segments : segments p.bytes = segments q.bytes := by
    rw [parts, parts', whole.1, segments_of_kept others whole.2]
  cases p
  cases q
  exact congrArg PathBuf.mk (segments_injective segments)

end PathBuf

def Request.hostSessionKey? : Request → Option HostSessionKey
  | .openHostSession projectRoot mode imports importProfile =>
    some { projectRoot, mode, imports, importProfile }
  | _ => none

def LeanWorkerSessionConfig.sessionKey (config : LeanWorkerSessionConfig) : HostSessionKey where
  projectRoot := config.projectRootString
  mode := config.wireMode
  imports := config.imports
  importProfile := config.importProfile

/-- The supervisor and the child agree on whether the two are one session. -/
def SameIdentity (a b : LeanWorkerSessionConfig) : Prop :=
  (a == b) = true ↔ a.openRequest.hostSessionKey? = b.openRequest.hostSessionKey?

namespace LeanWorkerSessionMode

def paths : LeanWorkerSessionMode → List PathBuf
  | .capability _ _ manifestPath => manifestPath.toList
  | .shimsOnly => []

def apartFromPaths : LeanWorkerSessionMode → LeanWorkerSessionMode
  | .capability package libName manifestPath =>
    .capability package libName (manifestPath.map fun _ => ⟨[]⟩)
  | .shimsOnly => .shimsOnly

theorem same_iff (m n : LeanWorkerSessionMode) : m.same n = true ↔
    m.apartFromPaths = n.apartFromPaths ∧
      List.Forall₂ (fun p q => (p == q) = true) m.paths n.paths := by
  cases m with
  | shimsOnly => cases n <;> simp [same, apartFromPaths, paths]
  | capability package libName manifest => cases n with
    | shimsOnly => simp [same, apartFromPaths]
    | capability package' libName' manifest' =>
      cases manifest <;> cases manifest' <;> simp [same, apartFromPaths, paths, and_assoc]

end LeanWorkerSessionMode

namespace LeanWorkerSessionConfig

theorem wireMode_iff (a b : LeanWorkerSessionConfig) : a.wireMode = b.wireMode ↔
    a.mode.apartFromPaths = b.mode.apartFromPaths ∧
      List.Forall₂ (fun p q => p.pathString = q.pathString) a.mode.paths b.mode.paths := by
  unfold wireMode
  cases a.mode with
  | shimsOnly =>
    cases b.mode <;>
      simp [LeanWorkerSessionMode.apartFromPaths, LeanWorkerSessionMode.paths]
  | capability package libName manifest => cases b.mode with
    | shimsOnly => simp [LeanWorkerSessionMode.apartFromPaths]
    | capability package' libName' manifest' =>
      cases manifest <;> cases manifest' <;>
        simp [LeanWorkerSessionMode.apartFromPaths, LeanWorkerSessionMode.paths, and_assoc]

/-- The paths of a configuration: the project root, and the manifest where there is one. -/
def paths (config : LeanWorkerSessionConfig) : List PathBuf :=
  config.projectRoot :: config.mode.paths

def apartFromPaths (config : LeanWorkerSessionConfig) : LeanWorkerSessionConfig :=
  { config with projectRoot := ⟨[]⟩, mode := config.mode.apartFromPaths }

theorem apartFromPaths_iff (a b : LeanWorkerSessionConfig) :
    a.apartFromPaths = b.apartFromPaths ↔ a.mode.apartFromPaths = b.mode.apartFromPaths ∧
      a.imports = b.imports ∧ a.importProfile = b.importProfile := by
  rw [apartFromPaths, apartFromPaths, LeanWorkerSessionConfig.mk.injEq]
  exact and_iff_right rfl

theorem beq_iff (a b : LeanWorkerSessionConfig) : (a == b) = true ↔
    a.apartFromPaths = b.apartFromPaths ∧
      List.Forall₂ (fun p q => (p == q) = true) a.paths b.paths := by
  have fields : (a == b) = (a.projectRoot == b.projectRoot && a.mode.same b.mode &&
    a.imports == b.imports && a.importProfile == b.importProfile) := rfl
  rw [fields, apartFromPaths_iff, paths, paths, List.forall₂_cons]
  simp only [Bool.and_eq_true, beq_iff_eq, LeanWorkerSessionMode.same_iff]
  constructor
  · rintro ⟨⟨⟨root, shape, manifest⟩, imports⟩, profile⟩
    exact ⟨⟨shape, imports, profile⟩, root, manifest⟩
  · rintro ⟨⟨shape, imports, profile⟩, root, manifest⟩
    exact ⟨⟨⟨root, shape, manifest⟩, imports⟩, profile⟩

theorem key_iff (a b : LeanWorkerSessionConfig) :
    a.openRequest.hostSessionKey? = b.openRequest.hostSessionKey? ↔
      a.apartFromPaths = b.apartFromPaths ∧
        List.Forall₂ (fun p q => p.pathString = q.pathString) a.paths b.paths := by
  rw [openRequest, openRequest, Request.hostSessionKey?, Request.hostSessionKey?,
    Option.some_inj, HostSessionKey.mk.injEq, wireMode_iff, apartFromPaths_iff, paths, paths,
    List.forall₂_cons]
  constructor
  · rintro ⟨root, ⟨shape, manifest⟩, imports, profile⟩
    exact ⟨⟨shape, imports, profile⟩, root, manifest⟩
  · rintro ⟨⟨shape, imports, profile⟩, root, manifest⟩
    exact ⟨root, ⟨shape, manifest⟩, imports, profile⟩

theorem forall₂_eq {R S : PathBuf → PathBuf → Prop} {ps qs : List PathBuf}
    (both : ∀ p q, R p q → S p q → p = q) (one : List.Forall₂ R ps qs)
    (two : List.Forall₂ S ps qs) : ps = qs := by
  induction one with
  | nil => rfl
  | cons here rest ih =>
    cases two with
    | cons here' rest' => rw [both _ _ here here', ih rest']

theorem forall₂_refl {R : PathBuf → PathBuf → Prop} (refl : ∀ p, R p p) :
    ∀ ps : List PathBuf, List.Forall₂ R ps ps
  | [] => .nil
  | p :: ps => .cons (refl p) (forall₂_refl refl ps)

end LeanWorkerSessionConfig

theorem PathBuf.beq_refl (p : PathBuf) : (p == p) = true := by
  have both : (p == p) = (p.hasRoot == p.hasRoot && p.components == p.components) := rfl
  rw [both, beq_self_eq_true, beq_self_eq_true, Bool.and_self]

/-- The supervisor and the child agree on two configurations exactly if these differ in more than
paths, or spell each path alike, or have a path that differs by component and a path whose text
differs. -/
theorem sameIdentity_iff (a b : LeanWorkerSessionConfig) : SameIdentity a b ↔
    a.apartFromPaths ≠ b.apartFromPaths ∨ a.paths = b.paths ∨
      (¬List.Forall₂ (fun p q => (p == q) = true) a.paths b.paths ∧
        ¬List.Forall₂ (fun p q => p.pathString = q.pathString) a.paths b.paths) := by
  rw [SameIdentity, a.beq_iff b, a.key_iff b]
  constructor
  · intro agree
    by_cases shape : a.apartFromPaths = b.apartFromPaths
    · right
      by_cases component : List.Forall₂ (fun p q => (p == q) = true) a.paths b.paths
      · have text := (agree.mp ⟨shape, component⟩).2
        exact Or.inl (LeanWorkerSessionConfig.forall₂_eq
          (fun p q => PathBuf.eq_of_components) component text)
      · exact Or.inr ⟨component, fun text => component (agree.mpr ⟨shape, text⟩).2⟩
    · exact Or.inl shape
  · rintro (shape | spelled | ⟨component, text⟩)
    · exact iff_of_false (fun both => shape both.1) (fun both => shape both.1)
    · rw [spelled]
      exact and_congr_right fun _ => iff_of_true
        (LeanWorkerSessionConfig.forall₂_refl PathBuf.beq_refl _)
        (LeanWorkerSessionConfig.forall₂_refl (fun p => Eq.refl p.pathString) _)
    · exact iff_of_false (fun both => component both.2) (fun both => text both.2)

namespace SessionPool

theorem mem_keys_step {capacity : Nat} (positive : 1 ≤ capacity) {p : SessionPool}
    (sound : p.Sound capacity) (request : OpenRequest) {key : HostSessionKey}
    (member : key ∈ (p.openOrReuseHostSession capacity request.key request.answers).2.keys) :
    key = request.key ∨ key ∈ p.keys := by
  have opening :=
    openOrReuseHostSession_opening positive request.key request.answers p sound.distinct
  have older {held : HostSessionKey} (among : held ∈ p.evictStaleHostSessions.keys) :
      held ∈ p.keys := p.evictStaleHostSessions_keys.subset among
  generalize p.openOrReuseHostSession capacity request.key request.answers = result
    at opening member
  cases opening with
  | reused state q current requested fresh held keys states registries imports =>
    obtain ⟨earlier, among, rfl⟩ := List.mem_map.mp member
    exact Or.inr (older (List.mem_map_of_mem (states earlier among)))
  | opened state q current requested fresh unheld keys states registries =>
    obtain ⟨earlier, among, rfl⟩ := List.mem_map.mp (q.evictStaleHostSessions_keys.subset member)
    rcases states earlier among with same | among
    · exact Or.inl (same ▸ requested)
    · exact Or.inr (older (List.mem_map_of_mem among))
  | failed err q current unheld keys states registries =>
    obtain ⟨earlier, among, rfl⟩ := List.mem_map.mp member
    exact Or.inr (older (List.mem_map_of_mem (states earlier among)))

theorem mem_keys_run {capacity : Nat} (positive : 1 ≤ capacity) {key : HostSessionKey}
    (requests : List OpenRequest) {p q : SessionPool} (sound : p.Sound capacity)
    (reached : Runs.run (step capacity) p requests = some q) (member : key ∈ q.keys) :
    key ∈ requests.map OpenRequest.key ∨ key ∈ p.keys := by
  induction requests generalizing p with
  | nil =>
    cases reached
    exact Or.inr member
  | cons request requests ih =>
    have next := (openOrReuseHostSession_sound positive request.key request.answers p sound).1
    rcases ih next reached with later | now
    · exact Or.inl (List.mem_cons_of_mem _ later)
    · rcases mem_keys_step positive sound request now with this | earlier
      · exact Or.inl (this ▸ List.mem_cons_self)
      · exact Or.inr earlier

/-- A child serves a session again only to a configuration whose frame was the same as an earlier
one's. Where the two notions of one session agree, it is the same configuration. -/
theorem reused_for {capacity : Nat} (positive : 1 ≤ capacity) (registries : Registries)
    (earlier : List (LeanWorkerSessionConfig × ImportAnswers)) (config : LeanWorkerSessionConfig)
    (a : ImportAnswers) {p : SessionPool} (reached : Runs.run (step capacity) (fresh registries)
      (earlier.map fun e => ⟨e.1.sessionKey, e.2⟩) = some p)
    (agree : ∀ e ∈ earlier, SameIdentity e.1 config) {stats : LeanWorkerImportStats}
    (reused : (p.openOrReuseHostSession capacity config.sessionKey a).1 =
      .hostSessionReused stats) : ∃ e ∈ earlier, (e.1 == config) = true := by
  have sound := reachable_sound positive registries _ reached
  have opening := openOrReuseHostSession_opening positive config.sessionKey a p sound.distinct
  generalize p.openOrReuseHostSession capacity config.sessionKey a = result at opening reused
  have held : config.sessionKey ∈ p.keys := by
    cases opening with
    | reused state q current requested fresh held keys states registries imports =>
      exact p.evictStaleHostSessions_keys.subset held
    | opened => cases reused
    | failed => cases reused
  rcases mem_keys_run positive _ (fresh_sound capacity registries) reached held with asked | none
  · rw [List.map_map] at asked
    obtain ⟨e, member, same⟩ := List.mem_map.mp asked
    exact ⟨e, member, (agree e member).mpr (congrArg some same)⟩
  · cases none

end SessionPool

def LeanWorkerSessionConfig.shimsOnly (projectRoot : List UInt8) : LeanWorkerSessionConfig where
  projectRoot := ⟨projectRoot⟩
  mode := .shimsOnly
  imports := ["Init"]
  importProfile := .server

/-- A slash at the end costs an import that the supervisor did not expect, and of two directories
whose names end in different bytes outside UTF-8 the one is served the other's environment. -/
theorem spelled_otherwise_is_confused :
    let plain := LeanWorkerSessionConfig.shimsOnly [47, 112]
    let slash := LeanWorkerSessionConfig.shimsOnly [47, 112, 47]
    let one := LeanWorkerSessionConfig.shimsOnly [47, 112, 0xFF]
    let other := LeanWorkerSessionConfig.shimsOnly [47, 112, 0xFE]
    let opened := (SessionPool.fresh ⟨0, 0, 0⟩).openOrReuseHostSession 2 one.sessionKey
      (SessionPool.registering 0)
    ¬SameIdentity plain slash ∧ ¬SameIdentity one other ∧ (one == other) = false ∧
      (opened.2.openOrReuseHostSession 2 other.sessionKey (SessionPool.registering 0)).1 =
        .hostSessionReused {} := by
  unfold SameIdentity
  decide +kernel

end LeanRs
