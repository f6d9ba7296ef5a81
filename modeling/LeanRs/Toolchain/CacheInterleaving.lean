import LeanRs.Toolchain.SharedCache
import LeanRs.Toolchain.SourceReuse

/-! Which interleavings of calls on one cache root leave every call the entry that it asked for. -/
namespace LeanRs

open Fallible Runs

theorem BuildStep.run_directory {formats : SourceFormats} {root : PathBuf} {step : BuildStep}
    {tree tree' : EntryTree} (there : tree.isDirectory [] = true)
    (ran : step.run formats root tree = .ok tree') : tree'.isDirectory [] = true := by
  cases step with
  | createDir path action =>
    change LeanRs.createDir root tree path action = .ok tree' at ran
    unfold LeanRs.createDir at ran
    split at ran
    · cases ran
    · split at ran
      · cases ran
      · rename_i made
        split at ran
        · cases ran
        · cases ran
          unfold EntryTree.isDirectory
          rw [EntryTree.createDirAll?_root made]
          rfl
  | putFile path action parentAction contents => exact putFile_root ran
  | validate policy =>
    obtain ⟨_, -, same⟩ := bind_ok.mp ran
    cases same
    exact there
  | sentinel path =>
    unfold BuildStep.run at ran
    dsimp only at ran
    split at ran
    · cases ran
      exact there
    · cases ran
  | refuse err => cases ran

section Slots

variable {ι : Type} (s : SharedCache ι) {slot other : Slot}

@[simp] theorem SharedCache.tree_put_self (tree : EntryTree) :
    (s.put slot tree).tree slot = tree := by
  unfold SharedCache.put SharedCache.tree
  dsimp only
  rw [Function.update_self, AList.lookup_insert]
  rfl

theorem SharedCache.tree_put_ne (tree : EntryTree) (apart : other ≠ slot) :
    (s.put slot tree).tree other = s.tree other := by
  unfold SharedCache.put SharedCache.tree
  dsimp only
  by_cases same : other.1 = slot.1
  · have differ : other.2 ≠ slot.2 := fun names => apart (Prod.ext same names)
    rw [same, Function.update_self, AList.lookup_insert_ne differ]
  · rw [Function.update_of_ne same]

@[simp] theorem SharedCache.tree_remove_self : (s.remove slot).tree slot = .absent := by
  unfold SharedCache.remove SharedCache.tree
  dsimp only
  rw [Function.update_self, AList.lookup_erase]
  rfl

theorem SharedCache.tree_remove_ne (apart : other ≠ slot) :
    (s.remove slot).tree other = s.tree other := by
  unfold SharedCache.remove SharedCache.tree
  dsimp only
  by_cases same : other.1 = slot.1
  · have differ : other.2 ≠ slot.2 := fun names => apart (Prod.ext same names)
    rw [same, Function.update_self, AList.lookup_erase_ne differ]
  · rw [Function.update_of_ne same]

theorem SharedCache.tree_remove_absent (gone : s.tree other = .absent) :
    (s.remove slot).tree other = .absent := by
  by_cases same : other = slot
  · rw [same, tree_remove_self]
  · rw [tree_remove_ne s same, gone]

variable [DecidableEq ι] (i : ι)

@[simp] theorem SharedCache.tree_goTo (next : CallPhase) :
    (s.goTo i next).tree slot = s.tree slot := rfl

@[simp] theorem SharedCache.tree_leave (out : Except SourcePackageError Materialized) :
    (s.leave i slot out).tree other = s.tree other := rfl

@[simp] theorem SharedCache.phase_goTo (next : CallPhase) : (s.goTo i next).phase i = next :=
  Function.update_self _ _ _

@[simp] theorem SharedCache.phase_leave (out : Except SourcePackageError Materialized) :
    (s.leave i slot out).phase i = .returned out := Function.update_self _ _ _

end Slots

theorem isTempName_tempName (answers : SourceAnswers) :
    isTempName (SourcePackageMaterializationRequest.tempName answers) = true := by
  unfold isTempName SourcePackageMaterializationRequest.tempName
  rw [List.isPrefixOf_iff_prefix, String.toList_append, String.toList_append,
    String.toList_append, List.append_assoc, List.append_assoc]
  exact List.prefix_append _ _

namespace MaterializeCall

variable {formats : SourceFormats} (call : MaterializeCall formats)

theorem entrySlot_ne_of_isTempName {digest name : String} (taken : isTempName name = true) :
    call.entrySlot ≠ (digest, name) := by
  intro same
  have named : call.input.entryName = name := congrArg Prod.snd same
  have visible := call.entry_visible
  rw [named, taken] at visible
  cases visible

theorem entrySlot_ne_tempSlot (other : MaterializeCall formats) :
    call.entrySlot ≠ other.tempSlot :=
  call.entrySlot_ne_of_isTempName (isTempName_tempName other.answers)

/-- The files of the entry are the payload of the call, and over it the files that the call
generates, its `lean-toolchain` and its sidecar. -/
def Delivers (entry : EntryTree) : Prop :=
  ∃ copied, call.input.copyPayload call.answers.payload call.root .emptyDir = .ok copied ∧
    Overlaid copied entry (call.input.writes formats)

theorem delivers_built : call.Delivers call.built := buildEntry_files call.builds

end MaterializeCall

section Steps

variable {ι : Type} [DecidableEq ι] {formats : SourceFormats}
variable (calls : ι → MaterializeCall formats)

inductive Move (s : SharedCache ι) (i : ι) : SharedCache ι → Prop where
  | lock (phase : s.phase i = .locking) (free : s.locked (calls i).entrySlot = false) :
    Move s i { s.goTo i .matching with
      locked := Function.update s.locked (calls i).entrySlot true }
  | unreadable {err} (phase : s.phase i = .matching)
    (broken : entryMatches formats (calls i).input.entryRoot (s.tree (calls i).entrySlot)
      (calls i).input (calls i).input.provenance = .error err) :
    Move s i (s.leave i (calls i).entrySlot (.error err))
  | warm (phase : s.phase i = .matching)
    (matched : entryMatches formats (calls i).input.entryRoot (s.tree (calls i).entrySlot)
      (calls i).input (calls i).input.provenance = .ok true) :
    Move s i (s.leave i (calls i).entrySlot
      (.ok ⟨(calls i).package, s.tree (calls i).entrySlot, false⟩))
  | stale (phase : s.phase i = .matching)
    (unmatched : entryMatches formats (calls i).input.entryRoot (s.tree (calls i).entrySlot)
      (calls i).input (calls i).input.provenance = .ok false) :
    Move s i (s.goTo i .removing)
  | remove (phase : s.phase i = .removing) :
    Move s i ((s.remove (calls i).entrySlot).goTo i .listing)
  | list (phase : s.phase i = .listing) :
    Move s i (s.goTo i (.cleaning (s.dirs (calls i).input.sourceDigest).keys))
  | cleaned (phase : s.phase i = .cleaning []) : Move s i (s.goTo i .clearing)
  | keep {name rest} (phase : s.phase i = .cleaning (name :: rest))
    (other : isTempName name = false) : Move s i (s.goTo i (.cleaning rest))
  | sweep {name rest} (phase : s.phase i = .cleaning (name :: rest))
    (taken : isTempName name = true) :
    Move s i ((s.remove ((calls i).input.sourceDigest, name)).goTo i (.cleaning rest))
  | clear (phase : s.phase i = .clearing) :
    Move s i ((s.remove (calls i).tempSlot).goTo i .creating)
  | blocked {err} (phase : s.phase i = .creating)
    (file : (s.tree (calls i).tempSlot).createDirAll? [] = none) :
    Move s i (s.leave i (calls i).entrySlot (.error err))
  | create {tree} (phase : s.phase i = .creating)
    (made : (s.tree (calls i).tempSlot).createDirAll? [] = some tree) :
    Move s i ((s.put (calls i).tempSlot tree).goTo i
      (.building ((calls i).input.buildSteps formats (calls i).answers)))
  | built (phase : s.phase i = .building []) : Move s i (s.goTo i .installing)
  | fail {step rest err} (phase : s.phase i = .building (step :: rest))
    (failed : step.run formats (calls i).root (s.tree (calls i).tempSlot) = .error err) :
    Move s i (s.leave i (calls i).entrySlot (.error err))
  | build {step rest tree} (phase : s.phase i = .building (step :: rest))
    (ran : step.run formats (calls i).root (s.tree (calls i).tempSlot) = .ok tree) :
    Move s i ((s.put (calls i).tempSlot tree).goTo i (.building rest))
  | install (phase : s.phase i = .installing)
    (there : (s.tree (calls i).tempSlot).isDirectory [] = true)
    (clear : s.tree (calls i).entrySlot [] = none) :
    Move s i (((s.remove (calls i).tempSlot).put (calls i).entrySlot
      (s.tree (calls i).tempSlot)).leave i (calls i).entrySlot
        (.ok ⟨(calls i).package, s.tree (calls i).tempSlot, true⟩))
  | refuse {err} (phase : s.phase i = .installing)
    (unready : ¬((s.tree (calls i).tempSlot).isDirectory [] = true ∧
      s.tree (calls i).entrySlot [] = none)) : Move s i (s.goTo i (.discarding err))
  | discard {err} (phase : s.phase i = .discarding err) :
    Move s i ((s.remove (calls i).tempSlot).leave i (calls i).entrySlot (.error err))

variable {calls} {s t : SharedCache ι} {i : ι}

theorem advance_move (moved : advance calls s i = some t) : Move calls s i t := by
  unfold advance at moved
  dsimp only at moved
  cases phase : s.phase i with
  | locking =>
    rw [phase] at moved
    dsimp only at moved
    split at moved
    · cases moved
    · rename_i free
      cases moved
      exact .lock phase (Bool.not_eq_true _ |>.mp free)
  | matching =>
    rw [phase] at moved
    dsimp only at moved
    cases order : entryMatches formats (calls i).input.entryRoot (s.tree (calls i).entrySlot)
        (calls i).input (calls i).input.provenance with
    | error err =>
      rw [order] at moved
      cases moved
      exact .unreadable phase order
    | ok matched =>
      rw [order] at moved
      cases matched with
      | true =>
        cases moved
        exact .warm phase order
      | false =>
        cases moved
        exact .stale phase order
  | removing =>
    rw [phase] at moved
    cases moved
    exact .remove phase
  | listing =>
    rw [phase] at moved
    cases moved
    exact .list phase
  | cleaning names =>
    rw [phase] at moved
    cases names with
    | nil =>
      cases moved
      exact .cleaned phase
    | cons name rest =>
      dsimp only at moved
      split at moved
      · rename_i taken
        cases moved
        exact .sweep phase taken
      · rename_i other
        cases moved
        exact .keep phase (Bool.not_eq_true _ |>.mp other)
  | clearing =>
    rw [phase] at moved
    cases moved
    exact .clear phase
  | creating =>
    rw [phase] at moved
    dsimp only at moved
    split at moved
    · rename_i file
      cases moved
      exact .blocked phase file
    · rename_i tree made
      cases moved
      exact .create phase made
  | building steps =>
    rw [phase] at moved
    cases steps with
    | nil =>
      cases moved
      exact .built phase
    | cons step rest =>
      dsimp only at moved
      split at moved
      · rename_i err failed
        cases moved
        exact .fail phase failed
      · rename_i tree ran
        cases moved
        exact .build phase ran
  | installing =>
    rw [phase] at moved
    dsimp only at moved
    split at moved
    · rename_i ready
      cases moved
      exact .install phase ready.1 ready.2
    · rename_i unready
      cases moved
      exact .refuse phase unready
  | discarding err =>
    rw [phase] at moved
    cases moved
    exact .discard phase
  | returned out =>
    rw [phase] at moved
    cases moved

/-- What a step does to the phases of the other calls and to the locks. -/
inductive LockMove (calls : ι → MaterializeCall formats) (s : SharedCache ι) (i : ι)
    (t : SharedCache ι) : Prop where
  | keep (before : (s.phase i).holds = true) (after : (t.phase i).holds = true)
    (locked : t.locked = s.locked)
  | take (before : (s.phase i).holds = false) (free : s.locked (calls i).entrySlot = false)
    (after : (t.phase i).holds = true)
    (locked : t.locked = Function.update s.locked (calls i).entrySlot true)
  | release (before : (s.phase i).holds = true) (after : (t.phase i).holds = false)
    (locked : t.locked = Function.update s.locked (calls i).entrySlot false)

theorem Move.others (move : Move calls s i t) {j : ι} (other : j ≠ i) :
    t.phase j = s.phase j := by
  cases move <;> exact Function.update_of_ne other _ _

theorem Move.lockMove (move : Move calls s i t) : LockMove calls s i t := by
  cases move with
  | lock phase free =>
    exact .take (by rw [phase]; rfl) free (by simp [CallPhase.holds]) rfl
  | unreadable phase _ | warm phase _ | blocked phase _ | fail phase _ | install phase _ _
    | discard phase =>
    exact .release (by rw [phase]; rfl) (by simp [CallPhase.holds]) rfl
  | stale phase _ | remove phase | list phase | cleaned phase | keep phase _ | sweep phase _
    | clear phase | create phase _ | built phase | build phase _ | refuse phase _ =>
    exact .keep (by rw [phase]; rfl) (by simp [CallPhase.holds]) rfl

/-- A lock is held by the calls that are at work under it, and there is one at most. -/
structure Exclusive (calls : ι → MaterializeCall formats) (s : SharedCache ι) : Prop where
  locked : ∀ slot, s.locked slot = true ↔
    ∃ j, (s.phase j).holds = true ∧ (calls j).entrySlot = slot
  one : ∀ j k, (s.phase j).holds = true → (s.phase k).holds = true →
    (calls j).entrySlot = (calls k).entrySlot → j = k

theorem Exclusive.step (exclusive : Exclusive calls s) (move : Move calls s i t) :
    Exclusive calls t := by
  have others : ∀ j, j ≠ i → (t.phase j).holds = (s.phase j).holds :=
    fun j other => congrArg CallPhase.holds (move.others other)
  cases move.lockMove with
  | keep before after locked =>
    have same : ∀ j, (t.phase j).holds = (s.phase j).holds := by
      intro j
      by_cases here : j = i
      · rw [here, before, after]
      · exact others j here
    constructor
    · intro slot
      simp only [locked, same]
      exact exclusive.locked slot
    · simp only [same]
      exact exclusive.one
  | take before free after locked =>
    have nobody : ∀ j, (s.phase j).holds = true →
        (calls j).entrySlot ≠ (calls i).entrySlot := by
      intro j holds same
      have taken := (exclusive.locked (calls i).entrySlot).mpr ⟨j, holds, same⟩
      rw [free] at taken
      cases taken
    constructor
    · intro slot
      rw [locked]
      by_cases mine : slot = (calls i).entrySlot
      · rw [mine, Function.update_self]
        exact iff_of_true rfl ⟨i, after, rfl⟩
      · rw [Function.update_of_ne mine, exclusive.locked slot]
        constructor
        · rintro ⟨j, holds, at'⟩
          have other : j ≠ i := fun here => mine (here ▸ at'.symm)
          exact ⟨j, (others j other).trans holds, at'⟩
        · rintro ⟨j, holds, at'⟩
          have other : j ≠ i := fun here => mine (here ▸ at'.symm)
          exact ⟨j, (others j other).symm.trans holds, at'⟩
    · intro j k left right same
      by_cases here : j = i
      · by_cases there : k = i
        · exact here.trans there.symm
        · rw [others k there] at right
          exact absurd (same.symm.trans (congrArg _ (congrArg calls here))) (nobody k right)
      · rw [others j here] at left
        by_cases there : k = i
        · exact absurd (same.trans (congrArg _ (congrArg calls there))) (nobody j left)
        · rw [others k there] at right
          exact exclusive.one j k left right same
  | release before after locked =>
    have held : ∀ j, (t.phase j).holds = true → j ≠ i ∧ (s.phase j).holds = true := by
      intro j holds
      by_cases here : j = i
      · rw [here, after] at holds
        cases holds
      · exact ⟨here, (others j here).symm.trans holds⟩
    constructor
    · intro slot
      rw [locked]
      by_cases mine : slot = (calls i).entrySlot
      · rw [mine, Function.update_self]
        refine iff_of_false Bool.false_ne_true ?_
        rintro ⟨j, holds, at'⟩
        exact (held j holds).1 (exclusive.one j i (held j holds).2 before at')
      · rw [Function.update_of_ne mine, exclusive.locked slot]
        constructor
        · rintro ⟨j, holds, at'⟩
          have other : j ≠ i := fun here => mine (here ▸ at'.symm)
          exact ⟨j, (others j other).trans holds, at'⟩
        · rintro ⟨j, holds, at'⟩
          exact ⟨j, (held j holds).2, at'⟩
    · intro j k left right same
      exact exclusive.one j k (held j left).2 (held k right).2 same

omit [DecidableEq ι] in
theorem Exclusive.apart (exclusive : Exclusive calls s) {j : ι} (other : j ≠ i)
    (left : (s.phase j).holds = true) (right : (s.phase i).holds = true) :
    (calls j).entrySlot ≠ (calls i).entrySlot :=
  fun same => other (exclusive.one j i left right same)

def Sweeps (calls : ι → MaterializeCall formats) (s : SharedCache ι) (i : ι) (slot : Slot) :
    Prop :=
  ∃ name rest, s.phase i = .cleaning (name :: rest) ∧ isTempName name = true ∧
    slot = ((calls i).input.sourceDigest, name)

theorem Sweeps.gone {slot : Slot} (sweeps : Sweeps calls s i slot) (move : Move calls s i t) :
    t.tree slot = .absent := by
  obtain ⟨name, rest, at', taken, rfl⟩ := sweeps
  cases move with
  | sweep phase _ =>
    cases at'.symm.trans phase
    rw [SharedCache.tree_goTo, SharedCache.tree_remove_self]
  | keep phase other =>
    cases at'.symm.trans phase
    rw [taken] at other
    cases other
  | _ phase => cases at'.symm.trans phase

theorem Move.tree_of_ne (move : Move calls s i t) {slot : Slot}
    (entry : slot ≠ (calls i).entrySlot) (temp : slot ≠ (calls i).tempSlot) :
    t.tree slot = s.tree slot ∨ Sweeps calls s i slot := by
  cases move with
  | remove phase => exact .inl (SharedCache.tree_remove_ne s entry)
  | clear phase => exact .inl (SharedCache.tree_remove_ne s temp)
  | create phase made => exact .inl (SharedCache.tree_put_ne s _ temp)
  | build phase ran => exact .inl (SharedCache.tree_put_ne s _ temp)
  | discard phase => exact .inl (SharedCache.tree_remove_ne s temp)
  | install phase there clear =>
    refine .inl ?_
    rw [SharedCache.tree_leave, SharedCache.tree_put_ne _ _ entry,
      SharedCache.tree_remove_ne s temp]
  | sweep phase taken =>
    rename_i name rest
    by_cases same : slot = ((calls i).input.sourceDigest, name)
    · exact .inr ⟨name, rest, phase, taken, same⟩
    · exact .inl (SharedCache.tree_remove_ne s same)
  | _ => exact .inl rfl

theorem Move.entry_kept (move : Move calls s i t) {j : ι}
    (apart : (calls j).entrySlot ≠ (calls i).entrySlot) :
    t.tree (calls j).entrySlot = s.tree (calls j).entrySlot := by
  obtain kept | ⟨name, rest, -, taken, same⟩ :=
    move.tree_of_ne apart ((calls j).entrySlot_ne_tempSlot (calls i))
  · exact kept
  · exact absurd same ((calls j).entrySlot_ne_of_isTempName taken)

/-- The entry is out of the way, and the operations that are left come to what the call is to
build. -/
def OnTrack (calls : ι → MaterializeCall formats) (s : SharedCache ι) (j : ι) : Prop :=
  match s.phase j with
  | .locking | .matching | .removing | .returned _ => True
  | .listing | .cleaning _ | .clearing => s.tree (calls j).entrySlot = .absent
  | .creating => s.tree (calls j).entrySlot = .absent ∧ s.tree (calls j).tempSlot = .absent
  | .building steps => s.tree (calls j).entrySlot = .absent ∧
    (s.tree (calls j).tempSlot).isDirectory [] = true ∧
    runSteps formats (calls j).root steps (s.tree (calls j).tempSlot) = .ok (calls j).built
  | .installing => s.tree (calls j).entrySlot = .absent ∧
    (s.tree (calls j).tempSlot).isDirectory [] = true ∧
    s.tree (calls j).tempSlot = (calls j).built
  | .discarding _ => False

omit [DecidableEq ι] in
theorem OnTrack.directory {j : ι} (track : OnTrack calls s j) (builds : (s.phase j).builds = true) :
    (s.tree (calls j).tempSlot).isDirectory [] = true := by
  unfold OnTrack at track
  cases phase : s.phase j with
  | building steps =>
    rw [phase] at track
    exact track.2.1
  | installing =>
    rw [phase] at track
    exact track.2.1
  | discarding err =>
    rw [phase] at track
    exact track.elim
  | _ =>
    rw [phase] at builds
    cases builds

omit [DecidableEq ι] in
theorem OnTrack.frame {j : ι} (track : OnTrack calls s j) (phase : t.phase j = s.phase j)
    (entry : t.tree (calls j).entrySlot = s.tree (calls j).entrySlot)
    (temp : t.tree (calls j).tempSlot = s.tree (calls j).tempSlot ∨
      (s.phase j).builds = false ∧ t.tree (calls j).tempSlot = .absent) :
    OnTrack calls t j := by
  unfold OnTrack at track ⊢
  rw [phase, entry]
  cases here : s.phase j with
  | creating =>
    rw [here] at track
    obtain same | ⟨-, gone⟩ := temp
    · exact ⟨track.1, same.trans track.2⟩
    · exact ⟨track.1, gone⟩
  | building steps =>
    rw [here] at track temp
    obtain same | ⟨idle, -⟩ := temp
    · rw [same]
      exact track
    · cases idle
  | installing =>
    rw [here] at track temp
    obtain same | ⟨idle, -⟩ := temp
    · rw [same]
      exact track
    · cases idle
  | _ =>
    rw [here] at track
    exact track

theorem createDirAll?_absent :
    EntryTree.absent.createDirAll? [] = some EntryTree.emptyDir := by
  unfold EntryTree.createDirAll? EntryTree.emptyDir
  rw [if_neg (by decide)]
  refine congrArg some (funext fun path => ?_)
  change (if path ∈ [([] : RelPath)] then some Inode.dir else none) = _
  simp only [List.mem_singleton]

/-- A step disturbs no call under another lock, neither where it builds nor in the entry that it has
returned, and a call that returns has its own entry installed. -/
structure SoundStep (calls : ι → MaterializeCall formats) (s : SharedCache ι) (i : ι)
    (t : SharedCache ι) : Prop where
  building : ∀ j, (calls j).entrySlot ≠ (calls i).entrySlot → (s.phase j).builds = true →
    t.tree (calls j).tempSlot = s.tree (calls j).tempSlot
  installed : ∀ j out, (calls j).entrySlot ≠ (calls i).entrySlot →
    s.phase j = .returned out → t.tree (calls j).entrySlot = s.tree (calls j).entrySlot
  returns : ∀ out, t.phase i = .returned out → ∃ materialized, out = .ok materialized ∧
    materialized.package = (calls i).package ∧
    t.tree (calls i).entrySlot = materialized.entry ∧ (calls i).Delivers materialized.entry

/-- The entry that a call finds is one that it can see past or take for its own, and what it sweeps
away is left over: no call under another lock builds there. -/
structure TidyStep (calls : ι → MaterializeCall formats) (s : SharedCache ι) (i : ι) : Prop where
  found : s.phase i = .matching →
    ¬Broken formats (calls i).input (s.tree (calls i).entrySlot) ∧
    (Matching formats (calls i).input (s.tree (calls i).entrySlot) →
      (calls i).Delivers (s.tree (calls i).entrySlot))
  leftOver : ∀ j, (calls j).entrySlot ≠ (calls i).entrySlot → (s.phase j).builds = true →
    ¬Sweeps calls s i (calls j).tempSlot

/-- Calls under different locks have drawn different names for their temporary directories. -/
def DistinctTemps (calls : ι → MaterializeCall formats) : Prop :=
  ∀ i j, (calls i).entrySlot ≠ (calls j).entrySlot → (calls i).tempSlot ≠ (calls j).tempSlot

structure InOrder (calls : ι → MaterializeCall formats) (s : SharedCache ι) : Prop where
  exclusive : Exclusive calls s
  onTrack : ∀ j, OnTrack calls s j

variable (distinct : DistinctTemps calls) (order : InOrder calls s)

include distinct in
theorem Move.temp_kept (move : Move calls s i t) {j : ι}
    (apart : (calls j).entrySlot ≠ (calls i).entrySlot) :
    t.tree (calls j).tempSlot = s.tree (calls j).tempSlot ∨
      Sweeps calls s i (calls j).tempSlot :=
  move.tree_of_ne ((calls i).entrySlot_ne_tempSlot (calls j)).symm (distinct j i apart)

include order in
theorem SoundStep.tidy (move : Move calls s i t) (sound : SoundStep calls s i t) :
    TidyStep calls s i := by
  constructor
  · intro matching
    have fails : ∀ {err}, t.phase i ≠ .returned (.error err) := by
      intro err returned
      obtain ⟨_, done, -⟩ := sound.returns _ returned
      cases done
    cases move with
    | unreadable phase broken => exact absurd (SharedCache.phase_leave s i _) fails
    | warm phase matched =>
      obtain ⟨materialized, done, -, -, delivers⟩ :=
        sound.returns _ (SharedCache.phase_leave s i _)
      cases done
      exact ⟨not_broken_of_matching (entryMatches_true.mp matched), fun _ => delivers⟩
    | stale phase unmatched =>
      constructor
      · intro broken
        obtain ⟨err, failed⟩ : ∃ err, entryMatches formats (calls i).input.entryRoot
            (s.tree (calls i).entrySlot) (calls i).input (calls i).input.provenance =
              .error err := entryMatches_error.mpr broken
        cases unmatched.symm.trans failed
      · intro matching
        cases unmatched.symm.trans (entryMatches_true.mpr matching)
    | _ phase => cases matching.symm.trans phase
  · intro j apart builds sweeps
    have there := (order.onTrack j).directory builds
    rw [← sound.building j apart builds, sweeps.gone move] at there
    cases there

include distinct order in
theorem TidyStep.sound (move : Move calls s i t) (tidy : TidyStep calls s i) :
    SoundStep calls s i t := by
  refine ⟨fun j apart builds => ?_, fun j _ apart _ => move.entry_kept apart,
    fun out returned => ?_⟩
  · obtain kept | sweeps := move.temp_kept distinct apart
    · exact kept
    · exact absurd sweeps (tidy.leftOver j apart builds)
  · have track := order.onTrack i
    unfold OnTrack at track
    cases move with
    | unreadable phase broken =>
      exact absurd (entryMatches_error.mp ⟨_, broken⟩) (tidy.found phase).1
    | warm phase matched =>
      cases (SharedCache.phase_leave s i _).symm.trans returned
      exact ⟨_, rfl, rfl, rfl, (tidy.found phase).2 (entryMatches_true.mp matched)⟩
    | blocked phase file =>
      rw [phase] at track
      rw [track.2, createDirAll?_absent] at file
      cases file
    | fail phase failed =>
      rw [phase] at track
      have ran := track.2.2
      rw [runSteps_cons, failed] at ran
      cases ran
    | install phase there clear =>
      rw [phase] at track
      cases (SharedCache.phase_leave _ i _).symm.trans returned
      refine ⟨_, rfl, rfl, ?_, ?_⟩
      · rw [SharedCache.tree_leave, SharedCache.tree_put_self]
      · dsimp only
        rw [track.2.2]
        exact (calls i).delivers_built
    | discard phase =>
      rw [phase] at track
      exact track.elim
    | lock | stale | remove | list | cleaned | keep | sweep | clear | create | built | build
      | refuse => cases (SharedCache.phase_goTo _ i _).symm.trans returned

omit [DecidableEq ι] in
theorem OnTrack.of_idle {j : ι} (idle : (s.phase j).holds = false) : OnTrack calls s j := by
  unfold OnTrack
  cases phase : s.phase j with
  | locking | returned _ => trivial
  | _ =>
    rw [phase] at idle
    cases idle

theorem OnTrack.step (track : OnTrack calls s i) (move : Move calls s i t) :
    OnTrack calls t i := by
  unfold OnTrack at track
  cases move with
  | lock phase free | unreadable phase _ | warm phase _ | stale phase _ | blocked phase _
    | fail phase _ | install phase _ _ | discard phase =>
    unfold OnTrack
    simp
  | remove phase =>
    unfold OnTrack
    simp
  | list phase | cleaned phase | keep phase _ =>
    rw [phase] at track
    unfold OnTrack
    simpa using track
  | sweep phase taken =>
    rw [phase] at track
    unfold OnTrack
    simp only [SharedCache.phase_goTo, SharedCache.tree_goTo]
    exact SharedCache.tree_remove_absent s track
  | clear phase =>
    rw [phase] at track
    unfold OnTrack
    simp only [SharedCache.phase_goTo, SharedCache.tree_goTo]
    exact ⟨SharedCache.tree_remove_absent s track, SharedCache.tree_remove_self s⟩
  | create phase made =>
    rw [phase] at track
    dsimp only at track
    rw [track.2, createDirAll?_absent] at made
    cases made
    unfold OnTrack
    simp only [SharedCache.phase_goTo, SharedCache.tree_goTo, SharedCache.tree_put_self]
    refine ⟨?_, rfl, ?_⟩
    · rw [SharedCache.tree_put_ne s _ ((calls i).entrySlot_ne_tempSlot _)]
      exact track.1
    · exact (runSteps_buildSteps formats (calls i).answers (calls i).input).trans (calls i).builds
  | built phase =>
    rw [phase] at track
    unfold OnTrack
    simp only [SharedCache.phase_goTo, SharedCache.tree_goTo]
    exact ⟨track.1, track.2.1, Except.ok.inj track.2.2⟩
  | build phase ran =>
    rw [phase] at track
    obtain ⟨entry, there, left⟩ := track
    rw [runSteps_cons, ran] at left
    unfold OnTrack
    simp only [SharedCache.phase_goTo, SharedCache.tree_goTo, SharedCache.tree_put_self]
    refine ⟨?_, BuildStep.run_directory there ran, left⟩
    rw [SharedCache.tree_put_ne s _ ((calls i).entrySlot_ne_tempSlot _)]
    exact entry
  | refuse phase unready =>
    rw [phase] at track
    refine absurd ⟨track.2.1, ?_⟩ unready
    rw [track.1]
    rfl

include distinct order in
theorem InOrder.step (move : Move calls s i t) (sound : SoundStep calls s i t) :
    InOrder calls t := by
  refine ⟨order.exclusive.step move, fun j => ?_⟩
  by_cases here : j = i
  · rw [here]
    exact (order.onTrack i).step move
  · have phase := move.others here
    cases atWork : (s.phase j).holds with
    | false => exact .of_idle (phase ▸ atWork)
    | true =>
      cases move.lockMove with
      | take before free after locked =>
        -- A call that takes its lock touches no directory.
        cases move with
        | lock _ _ => exact (order.onTrack j).frame phase rfl (.inl rfl)
        | _ from' =>
          rw [from'] at before
          cases before
      | keep before _ _ | release before _ _ =>
        have apart := order.exclusive.apart here atWork before
        refine (order.onTrack j).frame phase (move.entry_kept apart) ?_
        cases builds : (s.phase j).builds with
        | true => exact .inl (sound.building j apart builds)
        | false =>
          obtain kept | sweeps := move.temp_kept distinct apart
          · exact .inl kept
          · exact .inr ⟨rfl, sweeps.gone move⟩

def Returns (calls : ι → MaterializeCall formats) (s : SharedCache ι) (i : ι) : Prop :=
  ∃ k t out, run (advance calls) s (List.replicate k i) = some t ∧ t.phase i = .returned out

theorem Returns.of_advance (moved : advance calls s i = some t) (returns : Returns calls t i) :
    Returns calls s i := by
  obtain ⟨k, u, out, ran, done⟩ := returns
  refine ⟨k + 1, u, out, ?_, done⟩
  rw [List.replicate_succ, run_cons, moved]
  exact ran

/-- How much is still to be done, with the lists that get shorter in the second place. -/
def CallPhase.remaining : CallPhase → Nat × Nat
  | .locking => (9, 0)
  | .matching => (8, 0)
  | .removing => (7, 0)
  | .listing => (6, 0)
  | .cleaning names => (5, names.length)
  | .clearing => (4, 0)
  | .creating => (3, 0)
  | .building steps => (2, steps.length)
  | .installing => (1, 0)
  | .discarding _ | .returned _ => (0, 0)

theorem Move.remaining_lt (move : Move calls s i t) : (∃ out, t.phase i = .returned out) ∨
    (t.phase i).holds = true ∧
      Prod.Lex (· < ·) (· < ·) (t.phase i).remaining (s.phase i).remaining := by
  cases move with
  | unreadable _ _ | warm _ _ | blocked _ _ | fail _ _ | install _ _ _ | discard _ =>
    exact .inl ⟨_, SharedCache.phase_leave _ i _⟩
  | lock phase _ | stale phase _ | remove phase | list phase | cleaned phase | clear phase
    | create phase _ | built phase | refuse phase _ =>
    rw [phase]
    simp only [SharedCache.phase_goTo]
    exact .inr ⟨rfl, .left _ _ (by decide)⟩
  | keep phase _ | sweep phase _ | build phase _ =>
    rw [phase]
    simp only [SharedCache.phase_goTo]
    exact .inr ⟨rfl, .right _ (Nat.lt_succ_self _)⟩

theorem advance_of_holds (holds : (s.phase i).holds = true) :
    ∃ t, advance calls s i = some t := by
  unfold advance
  cases phase : s.phase i with
  | locking | returned _ =>
    rw [phase] at holds
    cases holds
  | matching =>
    cases order : entryMatches formats (calls i).input.entryRoot (s.tree (calls i).entrySlot)
        (calls i).input (calls i).input.provenance with
    | error err => exact ⟨_, by simp only [order]; rfl⟩
    | ok matched =>
      cases matched with
      | true => exact ⟨_, by simp only [order]; rfl⟩
      | false => exact ⟨_, by simp only [order]; rfl⟩
  | cleaning names =>
    cases names with
    | nil => exact ⟨_, rfl⟩
    | cons name rest => exact ⟨_, rfl⟩
  | creating =>
    cases made : (s.tree (calls i).tempSlot).createDirAll? [] with
    | none => exact ⟨_, by simp only [made]; rfl⟩
    | some tree => exact ⟨_, by simp only [made]; rfl⟩
  | building steps =>
    cases steps with
    | nil => exact ⟨_, rfl⟩
    | cons step rest =>
      cases ran : step.run formats (calls i).root (s.tree (calls i).tempSlot) with
      | error err => exact ⟨_, by simp only [ran]; rfl⟩
      | ok tree => exact ⟨_, by simp only [ran]; rfl⟩
  | installing =>
    dsimp only
    split
    · exact ⟨_, rfl⟩
    · exact ⟨_, rfl⟩
  | removing | listing | clearing | discarding _ => exact ⟨_, rfl⟩

theorem returns_of_holds {s : SharedCache ι} (holds : (s.phase i).holds = true) :
    Returns calls s i := by
  obtain ⟨t, moved⟩ : ∃ t, advance calls s i = some t := advance_of_holds holds
  obtain ⟨out, done⟩ | ⟨holds', fewer⟩ := (advance_move moved).remaining_lt
  · exact .of_advance moved ⟨0, t, out, rfl, done⟩
  · exact .of_advance moved (returns_of_holds holds')
termination_by (s.phase i).remaining
decreasing_by exact fewer

/-- The call has returned, waits for one that holds its lock, or can go on to its end. -/
def Finishes (calls : ι → MaterializeCall formats) (s : SharedCache ι) (i : ι) : Prop :=
  (∃ out, s.phase i = .returned out) ∨
  (∃ j, j ≠ i ∧ (s.phase j).holds = true ∧ (calls j).entrySlot = (calls i).entrySlot) ∨
  Returns calls s i

theorem Exclusive.finishes (exclusive : Exclusive calls s) (i : ι) : Finishes calls s i := by
  cases holds : (s.phase i).holds with
  | true => exact .inr (.inr (returns_of_holds holds))
  | false =>
    cases phase : s.phase i with
    | returned out => exact .inl ⟨out, phase⟩
    | locking =>
      refine .inr ?_
      cases locked : s.locked (calls i).entrySlot with
      | true =>
        obtain ⟨j, held, same⟩ := (exclusive.locked _).mp locked
        refine .inl ⟨j, fun here => ?_, held, same⟩
        rw [here, holds] at held
        cases held
      | false =>
        have moved : advance calls s i = some { s.goTo i .matching with
            locked := Function.update s.locked (calls i).entrySlot true } := by
          unfold advance
          rw [phase]
          dsimp only
          rw [locked]
          rfl
        refine .inr (.of_advance moved (returns_of_holds ?_))
        dsimp only
        rw [SharedCache.phase_goTo]
        rfl
    | _ =>
      rw [phase] at holds
      cases holds

end Steps

/-- No call has taken a step. What is in the directories is left open. -/
structure Opening {ι : Type} (s : SharedCache ι) : Prop where
  phase : ∀ i, s.phase i = .locking
  locked : ∀ slot, s.locked slot = false

theorem Opening.inOrder {ι : Type} {formats : SourceFormats}
    {calls : ι → MaterializeCall formats} {s : SharedCache ι} (opening : Opening s) :
    InOrder calls s := by
  have idle : ∀ j, (s.phase j).holds = false := fun j => congrArg CallPhase.holds (opening.phase j)
  refine ⟨⟨fun slot => ?_, fun j k left => ?_⟩, fun j => .of_idle (idle j)⟩
  · rw [opening.locked slot]
    refine iff_of_false Bool.false_ne_true ?_
    rintro ⟨j, holds, -⟩
    rw [idle j] at holds
    cases holds
  · rw [idle j] at left
    cases left

def isBuilt (out : Except SourcePackageError EntryTree) : Bool :=
  match out with
  | .ok _ => true
  | .error _ => false

def builtOf (out : Except SourcePackageError EntryTree) : EntryTree :=
  match out with
  | .ok tree => tree
  | .error _ => .absent

theorem ok_builtOf {out : Except SourcePackageError EntryTree} (built : isBuilt out = true) :
    out = .ok (builtOf out) := by
  cases out with
  | ok tree => rfl
  | error err => cases built

/-- The package for another toolchain, by a call of the same process. -/
def smallAnswersLater : SourceAnswers := { smallAnswers with uniqueNanos := 2 }

def twoCalls : Bool → MaterializeCall (smallFormats "v4")
  | true =>
    { input := smallRequest "v4"
      answers := smallAnswers
      accepted := by decide +kernel
      built := _
      builds := ok_builtOf (by decide +kernel)
      digest_plain := by decide
      entry_plain := by decide +kernel
      entry_unlocked := by decide +kernel
      entry_visible := by decide +kernel }
  | false =>
    { input := smallRequest "v5"
      answers := smallAnswersLater
      accepted := by decide +kernel
      built := _
      builds := ok_builtOf (by decide +kernel)
      digest_plain := by decide
      entry_plain := by decide +kernel
      entry_unlocked := by decide +kernel
      entry_visible := by decide +kernel }

theorem twoCalls_distinct : DistinctTemps twoCalls := by
  unfold DistinctTemps
  decide +kernel

def emptyCache : SharedCache Bool where
  dirs _ := ∅
  locked _ := false
  phase _ := .locking

theorem emptyCache_opening : Opening emptyCache := ⟨fun _ => rfl, fun _ => rfl⟩

/-- The first call is in its temporary directory when the second reads what is there. -/
def overlap : List Bool := List.replicate 7 true ++ List.replicate 4 false

theorem overlap_reaches : ∃ u v, run (advance twoCalls) emptyCache overlap = some u ∧
    advance twoCalls u false = some v ∧ (u.phase true).builds = true ∧
    (u.tree (twoCalls true).tempSlot).isDirectory [] = true ∧
    (v.tree (twoCalls true).tempSlot).isDirectory [] = false := by
  have there : ((run (advance twoCalls) emptyCache overlap).any fun u =>
      (advance twoCalls u false).any fun v => (u.phase true).builds &&
        (u.tree (twoCalls true).tempSlot).isDirectory [] &&
        !(v.tree (twoCalls true).tempSlot).isDirectory []) = true := by decide +kernel
  obtain ⟨u, before, there⟩ := (Option.any_eq_true _ _).mp there
  obtain ⟨v, moved, there⟩ := (Option.any_eq_true _ _).mp there
  simp only [Bool.and_eq_true, Bool.not_eq_true'] at there
  exact ⟨u, v, before, moved, there.1.1, there.1.2, there.2⟩

end LeanRs
