import LeanRs.General.Runs
import Mathlib.Logic.Function.Basic
import Mathlib.Algebra.Order.Ring.Int

/-! Which threads may call into Lean: the depth that each thread counts, and the calls that attach
and detach it. -/
namespace LeanRs

abbrev ThreadId := Nat

/-- One OS thread. The depth is what the thread counts, the attachment what the Lean runtime knows
of it. -/
structure OsThread where
  depth : Nat := 0
  attached : Bool := false
  guards : List Nat := []
  deriving DecidableEq

inductive InitCell where
  | pending
  | ready
  | failed
  deriving DecidableEq

/-- How the C-level sequence ends. A panic in the middle of it may leave the thread attached. -/
inductive InitOutcome where
  | completed
  | panicked (attaches : Bool)
  deriving DecidableEq

structure RuntimeThreads where
  cell : InitCell
  threads : ThreadId → OsThread
  guardsMade : Nat

namespace OsThread

def maxDepth : Nat := 2 ^ 32 - 1

def markPermitted (t : OsThread) : OsThread := if t.depth = 0 then { t with depth := 1 } else t

def assertsAttached (t : OsThread) : Bool := 1 ≤ t.depth

/-- `LeanThreadGuard::attach`: `lean_initialize_thread`, and one more in depth. -/
def attach (guard : Nat) (t : OsThread) : OsThread where
  depth := min (t.depth + 1) maxDepth
  attached := true
  guards := guard :: t.guards

/-- `LeanThreadGuard::drop`: `lean_finalize_thread`, and one less in depth. -/
def dropGuard (guard : Nat) (t : OsThread) : OsThread where
  depth := t.depth - 1
  attached := false
  guards := t.guards.erase guard

end OsThread

namespace RuntimeThreads

/-- Before any initialization. Only the threads that Lean itself started are attached. -/
def start (native : ThreadId → Bool) : RuntimeThreads :=
  ⟨.pending, fun t => { attached := native t }, 0⟩

def update (r : RuntimeThreads) (t : ThreadId) (f : OsThread → OsThread) : RuntimeThreads :=
  { r with threads := Function.update r.threads t (f (r.threads t)) }

/-- `LeanRuntime::init`. Every successful return permits the calling thread. -/
def init (supported : Bool) (t : ThreadId) (outcome : InitOutcome) (r : RuntimeThreads) :
    RuntimeThreads :=
  let permit : RuntimeThreads → RuntimeThreads := fun r =>
    if supported then r.update t OsThread.markPermitted else r
  match r.cell with
  | .pending =>
    match outcome with
    | .completed =>
      permit ({ r with cell := .ready }.update t fun thread => { thread with attached := true })
    | .panicked attaches =>
      { r with cell := .failed }.update t fun thread =>
        { thread with attached := thread.attached || attaches }
  | .ready => permit r
  | .failed => r

inductive Action where
  | init (t : ThreadId) (outcome : InitOutcome)
  | attach (t : ThreadId)
  | dropGuard (t : ThreadId) (guard : Nat)

/-- A guard needs a borrow of a runtime that is up, and is dropped on the thread that made it. -/
def step (supported : Bool) (r : RuntimeThreads) : Action → Option RuntimeThreads
  | .init t outcome => some (r.init supported t outcome)
  | .attach t =>
    if r.cell = .ready ∧ supported then
      some { r.update t (OsThread.attach r.guardsMade) with guardsMade := r.guardsMade + 1 }
    else none
  | .dropGuard t guard =>
    if guard ∈ (r.threads t).guards then some (r.update t (OsThread.dropGuard guard)) else none

def Disciplined (r : RuntimeThreads) : Prop :=
  ∀ t, (r.threads t).assertsAttached = true → (r.threads t).attached = true

/-- What every step is to keep: the discipline, and that no thread is finalized while it has a
guard left. -/
def Sound (_ : RuntimeThreads) (action : Action) (r : RuntimeThreads) : Prop :=
  r.Disciplined ∧ ∀ t guard, action = .dropGuard t guard → (r.threads t).guards = []

/-- Where the depth follows the attachment: the runtime is not up yet or the thread is already
permitted or attached, and a guard that ends is the only one, with nothing else in the depth. -/
def Allowed (supported : Bool) (r : RuntimeThreads) : Action → Prop
  | .init t _ =>
    r.cell = .ready → supported = true → (r.threads t).depth = 0 → (r.threads t).attached = true
  | .attach _ => True
  | .dropGuard t guard => (r.threads t).guards.erase guard = [] ∧ (r.threads t).depth ≤ 1

@[simp] theorem update_cell (r : RuntimeThreads) (t : ThreadId) (f : OsThread → OsThread) :
    (r.update t f).cell = r.cell := rfl

@[simp] theorem update_self (r : RuntimeThreads) (t : ThreadId) (f : OsThread → OsThread) :
    (r.update t f).threads t = f (r.threads t) := Function.update_self ..

theorem update_other (r : RuntimeThreads) {t u : ThreadId} (f : OsThread → OsThread)
    (other : u ≠ t) : (r.update t f).threads u = r.threads u := Function.update_of_ne other ..

theorem disciplined_update {r : RuntimeThreads} {t : ThreadId} {f : OsThread → OsThread}
    (disciplined : r.Disciplined) :
    (r.update t f).Disciplined ↔
      ((f (r.threads t)).assertsAttached = true → (f (r.threads t)).attached = true) := by
  constructor
  · intro all
    have here := all t
    rwa [update_self] at here
  · intro here u
    by_cases same : u = t
    · rw [same, update_self]
      exact here
    · rw [update_other r f same]
      exact disciplined u

theorem markPermitted_disciplined_iff {thread : OsThread}
    (disciplined : thread.assertsAttached = true → thread.attached = true) :
    (thread.markPermitted.assertsAttached = true → thread.markPermitted.attached = true) ↔
      (thread.depth = 0 → thread.attached = true) := by
  unfold OsThread.markPermitted
  by_cases zero : thread.depth = 0
  · rw [if_pos zero]
    constructor
    · intro all _
      exact all rfl
    · intro all _
      exact all zero
  · rw [if_neg zero]
    exact ⟨fun _ here => absurd here zero, fun _ => disciplined⟩

theorem start_disciplined (native : ThreadId → Bool) : (start native).Disciplined :=
  fun _ asserts => absurd asserts Bool.false_ne_true

theorem permit_disciplined_iff {r : RuntimeThreads} {supported : Bool} {t : ThreadId}
    (disciplined : r.Disciplined) :
    (if supported then r.update t OsThread.markPermitted else r).Disciplined ↔
      (supported = true → (r.threads t).depth = 0 → (r.threads t).attached = true) := by
  cases supported with
  | false => exact ⟨fun _ here => absurd here Bool.false_ne_true, fun _ => disciplined⟩
  | true =>
    rw [if_pos rfl, disciplined_update disciplined, markPermitted_disciplined_iff (disciplined t)]
    exact ⟨fun here _ => here, fun here => here rfl⟩

theorem init_disciplined_iff {r : RuntimeThreads} {supported : Bool} {t : ThreadId}
    {outcome : InitOutcome} (disciplined : r.Disciplined) :
    (r.init supported t outcome).Disciplined ↔ Allowed supported r (.init t outcome) := by
  unfold init Allowed
  cases cell : r.cell with
  | ready =>
    dsimp only
    rw [permit_disciplined_iff disciplined]
    exact ⟨fun here _ => here, fun here => here rfl⟩
  | failed => exact ⟨fun _ up => (nomatch up), fun _ => disciplined⟩
  | pending =>
    refine ⟨fun _ up => (nomatch up), fun _ => ?_⟩
    cases outcome with
    | completed =>
      -- the initialization attaches the thread before it is permitted
      have attached : ({ r with cell := .ready }.update t fun thread =>
          { thread with attached := true }).Disciplined :=
        (disciplined_update (r := { r with cell := .ready }) disciplined).mpr fun _ => rfl
      apply (permit_disciplined_iff attached).mpr
      intro _ _
      rw [update_self]
    | panicked attaches =>
      apply (disciplined_update (r := { r with cell := .failed }) disciplined).mpr
      intro asserts
      show ((r.threads t).attached || attaches) = true
      rw [disciplined t asserts]
      rfl

theorem attach_disciplined {r : RuntimeThreads} (t : ThreadId) (guard made : Nat)
    (disciplined : r.Disciplined) :
    ({ r.update t (OsThread.attach guard) with guardsMade := made }).Disciplined :=
  (disciplined_update disciplined).mpr fun _ => rfl

theorem dropGuard_disciplined_iff {r : RuntimeThreads} {t : ThreadId} {guard : Nat}
    (disciplined : r.Disciplined) :
    (r.update t (OsThread.dropGuard guard)).Disciplined ↔ (r.threads t).depth ≤ 1 := by
  rw [disciplined_update disciplined]
  show (decide (1 ≤ (r.threads t).depth - 1) = true → false = true) ↔ _
  rw [decide_eq_true_eq]
  constructor
  · intro none
    by_contra deep
    exact Bool.false_ne_true (none (by omega))
  · intro shallow deep
    omega

theorem step_sound_iff {supported : Bool} {r r' : RuntimeThreads} {action : Action}
    (disciplined : r.Disciplined) (moved : step supported r action = some r') :
    Sound r action r' ↔ Allowed supported r action := by
  cases action with
  | init t outcome =>
    cases moved
    rw [← init_disciplined_iff disciplined]
    exact ⟨fun sound => sound.1, fun sound => ⟨sound, fun _ _ same => nomatch same⟩⟩
  | attach t =>
    simp only [step] at moved
    split at moved
    · cases moved
      exact ⟨fun _ => trivial,
        fun _ => ⟨attach_disciplined t _ _ disciplined, fun _ _ same => nomatch same⟩⟩
    · cases moved
  | dropGuard t guard =>
    simp only [step] at moved
    split at moved
    · cases moved
      constructor
      · rintro ⟨sound, last⟩
        have none := last t guard rfl
        rw [update_self] at none
        exact ⟨none, (dropGuard_disciplined_iff disciplined).mp sound⟩
      · rintro ⟨none, shallow⟩
        refine ⟨(dropGuard_disciplined_iff disciplined).mpr shallow, ?_⟩
        rintro _ _ ⟨⟩
        rw [update_self]
        exact none
    · cases moved

/-- In any interleaving, the assertion goes with the attachment and no thread is finalized under a
guard exactly if every step is an allowed one. -/
theorem attachment_sound_iff {supported : Bool} {native : ThreadId → Bool} {actions : List Action}
    {r : RuntimeThreads} (reached : Runs.run (step supported) (start native) actions = some r) :
    Runs.Throughout (step supported) Sound (start native) actions ↔
      Runs.Guarded (step supported) (Allowed supported) (start native) actions :=
  Runs.throughout_iff_guarded (fun _ _ _ => step_sound_iff) (fun _ _ _ _ _ sound => sound.1)
    (start_disciplined native) reached

def oneGuard : List Action := [.init 0 .completed, .init 0 .completed, .attach 0]

theorem oneGuard_sound :
    Runs.Throughout (step true) Sound (start fun _ => false) oneGuard := by
  have ran : ∃ r, Runs.run (step true) (start fun _ => false) oneGuard = some r := ⟨_, rfl⟩
  obtain ⟨r, reached⟩ := ran
  apply (attachment_sound_iff reached).mpr
  refine Runs.Guarded.cons (fun up => nomatch up) rfl ?_
  refine Runs.Guarded.cons (fun _ _ _ => rfl) rfl ?_
  exact Runs.Guarded.cons trivial rfl trivial

def nestedGuards : List Action :=
  [.init 0 .completed, .init 1 .completed, .attach 1, .attach 1, .dropGuard 1 1]

/-- When the inner guard ends, the thread is finalized under the outer one. -/
theorem nestedGuards_unsound :
    ¬∀ (supported : Bool) (native : ThreadId → Bool) (actions : List Action) (r : RuntimeThreads),
      Runs.run (step supported) (start native) actions = some r →
      Runs.Throughout (step supported) Sound (start native) actions := by
  intro all
  have every := all true (fun _ => false) nestedGuards _ rfl
  have first := (every _ rfl).2
  have second := (first _ rfl).2
  have third := (second _ rfl).2
  have fourth := (third _ rfl).2
  have none := (fourth _ rfl).1.2 1 1 rfl
  cases none

end RuntimeThreads

end LeanRs
