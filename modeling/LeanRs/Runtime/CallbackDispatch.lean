import LeanRs.Runtime.CallbackInvariant

/-! Every run of the callback registry: the crate's own code never gets stuck, every call of a
trampoline is answered as it should be, and only registrations and drops edit the table. -/
namespace LeanRs

open RefCounting

namespace CallbackRegistry

section

variable {s t : CallbackRegistry}

theorem Upright.ticks (upright : s.Upright) (own : s.userRuns = false) :
    ∃ t, s.tick = some t ∧ t.Upright := by
  have place := upright.place
  generalize lock : s.locked = locked at place
  generalize list : s.tasks = tasks at place
  have moved : ∀ {task under rest}, s.tasks = task :: rest →
      (∀ e, taskClones under e = taskClones (task :: rest) e) →
      (∀ c, taskContexts under c = taskContexts (task :: rest) c) →
      (∀ call e event, .callback call e event ∈ under → .callback call e event ∈ rest) →
      ∀ locked,
        ({ s with locked := locked, tasks := under } : CallbackRegistry).Section locked under →
        ({ s with locked := locked, tasks := under } : CallbackRegistry).Upright := by
    intro task under rest list clones contexts kept locked place
    refine upright.retask rfl rfl rfl rfl ?_ ?_ place ?_ upright.answered
    · rw [list]
      exact clones
    · rw [list]
      exact contexts
    · intro call e event member
      exact upright.dispatched call e event (by rw [list]; exact .tail _ (kept call e event member))
  cases place with
  | user rest waits =>
    cases tasks with
    | nil => simp [userRuns, list] at own
    | cons task rest =>
      have user : task.user = false := by simpa [userRuns, list] using own
      have top := waits task List.mem_cons_self
      cases task with
      | dropContext c =>
        exact ⟨_, by rw [tick, list], upright.dropContext
          (fun task member => waits task (List.mem_cons_of_mem _ member)) list lock⟩
      | callback call e event => cases user
      | destructor => cases user
      | _ => cases top
  | registering e kind context rest waits fresh =>
    exact ⟨_, by rw [tick, list]; simp only [lock]; rfl, moved list
      (fun _ => by simp [CallbackTask.clones]) (fun _ => by simp [CallbackTask.contexts])
      (fun _ _ _ member => member) true
      (.inserting e kind context rest waits fresh)⟩
  | unregistering handle rest waits live =>
    exact ⟨_, by rw [tick, list]; simp only [lock]; rfl, moved list
      (fun _ => by simp [CallbackTask.clones]) (fun _ => by simp [CallbackTask.contexts])
      (fun _ _ _ member => member) true
      (.removing handle rest waits live)⟩
  | calling call rest waits tag live =>
    exact ⟨_, by rw [tick, list]; simp only [lock]; rfl, moved list
      (fun _ => by simp [CallbackTask.clones]) (fun _ => by simp [CallbackTask.contexts])
      (fun _ _ _ member => member) true
      (.lookingUp call rest waits tag live)⟩
  | registered rest waits =>
    exact ⟨_, by rw [tick, list], moved list (fun _ => by simp [CallbackTask.clones])
      (fun _ => by simp [CallbackTask.contexts]) (fun _ _ _ member => member) false
      (.user rest waits)⟩
  | unlocking e rest waits =>
    exact ⟨_, by rw [tick, list], moved list (fun _ => by simp [CallbackTask.clones])
      (fun _ => by simp [CallbackTask.contexts]) (fun _ _ _ member => member) false
      (.dropping e rest waits)⟩
  | lookedUp call found rest waits tag live found_eq =>
    exact ⟨_, by rw [tick, list], moved list (fun _ => by simp [CallbackTask.clones])
      (fun _ => by simp [CallbackTask.contexts]) (fun _ _ _ member => member) false
      (.reporting call found rest waits tag live found_eq)⟩
  | inserting e kind context rest waits fresh =>
    cases allocated : allocateId s.table allocateIdAttempts s.nextId with
    | mk id next =>
      cases id with
      | some id =>
        obtain ⟨t, registers, upright'⟩ := upright.registered waits fresh list lock allocated
        exact ⟨t, by rw [tick, list]; exact registers, upright'⟩
      | none =>
        obtain ⟨t, registers, upright'⟩ := upright.refused waits list lock allocated
        exact ⟨t, by rw [tick, list]; exact registers, upright'⟩
  | removing handle rest waits live =>
    exact ⟨_, by rw [tick, list], upright.dropHandle waits live list lock⟩
  | lookingUp call rest waits tag live =>
    obtain ⟨t, looks, upright'⟩ := upright.lookUp waits tag live list lock
    exact ⟨t, by rw [tick, list]; exact looks, upright'⟩
  | reporting call found rest waits tag live found_eq =>
    exact upright.report waits tag live found_eq list lock
  | dropping e rest waits =>
    obtain ⟨t, drops, upright'⟩ := upright.releaseEntry list (.inl ⟨lock, waits⟩)
    exact ⟨t, by rw [tick, list]; exact drops, upright'⟩
  | removed e rest waits =>
    obtain ⟨t, drops, upright'⟩ := upright.releaseEntry list (.inr ⟨lock, rest, rfl, waits⟩)
    exact ⟨t, by rw [tick, list]; exact drops, upright'⟩

theorem Upright.user_unlocked (upright : s.Upright) (user : s.userRuns = true) :
    s.locked = false ∧ ∀ task ∈ s.tasks, task.waits = true := by
  have place := upright.place
  generalize list : s.tasks = tasks at place
  generalize lock : s.locked = locked at place
  cases place with
  | user rest waits => exact ⟨rfl, waits⟩
  | _ => simp [userRuns, list, CallbackTask.user] at user

theorem Upright.acts (upright : s.Upright) (user : s.userRuns = true) {move : CallbackMove}
    (moved : s.act move = some t) : t.Upright := by
  obtain ⟨unlocked, waits⟩ := upright.user_unlocked user
  cases move with
  | register kind =>
    cases moved
    refine upright.beginRegister kind none waits rfl rfl unlocked rfl rfl rfl ?_ upright.single
    exact upright.contextsOwned.of_eq fun c => by
      simp [contextOwners, CallbackRegistry.beginRegister, CallbackTask.contexts]
  | registerScoped =>
    cases moved
    refine upright.beginRegister .progress (some s.contexts.length) waits rfl rfl unlocked rfl rfl
      rfl ?_ fun c cell live => ?_
    · refine upright.contextsOwned.alloc () fun c => ?_
      simp only [contextOwners, beginRegisterScoped, CallbackRegistry.beginRegister,
        taskContexts_cons, CallbackTask.contexts, List.count_nil, eq_comm (a := c)]
      omega
    · by_cases fresh : c = s.contexts.length
      · subst fresh
        have new := (Heap.cell_alloc_new (h := s.contexts) ()).symm.trans live
        cases new
        rfl
      · exact upright.single c cell ((Heap.cell_alloc_other () fresh).symm.trans live)
  | drop handle =>
    simp only [act] at moved
    split at moved
    · rename_i live
      cases moved
      refine upright.retask rfl rfl rfl rfl ?_ ?_ ?_ ?_ upright.answered
      · simp [CallbackTask.clones]
      · simp [CallbackTask.contexts]
      · dsimp only
        rw [unlocked]
        exact .unregistering handle s.tasks waits live
      · exact fun call e event member => upright.dispatched call e event (by simpa using member)
    · cases moved
  | call trampoline handle payloadTag arg0 arg1 payload =>
    simp only [act, beginCall] at moved
    split at moved
    · rename_i tag
      cases moved
      refine upright.retask rfl rfl rfl rfl ?_ ?_ ?_ ?_ upright.answered
      · simp [CallbackTask.clones]
      · simp [CallbackTask.contexts]
      · dsimp only
        rw [unlocked]
        exact .calling _ s.tasks waits tag rfl
      · exact fun call e event member => upright.dispatched call e event (by simpa using member)
    · rename_i other
      cases moved
      refine upright.retask rfl rfl rfl rfl (fun _ => rfl) (fun _ => rfl) ?_ upright.dispatched
        (answered_append upright.answered (TrampolineReport.faithful_refused (.inr rfl)
          fun _ _ _ _ tag => absurd tag other))
      change Section _ s.locked s.tasks
      rw [unlocked]
      exact .user s.tasks waits
  | finish outcome =>
    simp only [act] at moved
    split at moved
    · rename_i call e event rest list
      rw [list] at waits
      obtain ⟨u, finishes, upright', _⟩ := upright.finish outcome
        (fun task member => waits task (List.mem_cons_of_mem _ member)) list unlocked
      rw [finishes] at moved
      cases moved
      exact upright'
    · cases moved
  | destroyed =>
    simp only [act] at moved
    split at moved
    · rename_i rest list
      cases moved
      refine upright.retask rfl rfl rfl rfl ?_ ?_ ?_ ?_ upright.answered
      · simp [list, CallbackTask.clones]
      · simp [list, CallbackTask.contexts]
      · dsimp only
        rw [unlocked]
        rw [list] at waits
        exact .user rest fun task member => waits task (List.mem_cons_of_mem _ member)
      · exact fun call e event member =>
          upright.dispatched call e event (by rw [list]; exact .tail _ member)
    · cases moved
  | tick => cases moved

theorem Upright.steps (upright : s.Upright) {move : CallbackMove} (moved : s.step move = some t) :
    t.Upright := by
  by_cases own : move = .tick
  · subst own
    cases user : s.userRuns with
    | false =>
      obtain ⟨u, ticks, upright'⟩ := upright.ticks user
      cases ticks.symm.trans moved
      exact upright'
    | true =>
      -- user code at the top leaves the crate's code nothing to do
      exfalso
      change s.tick = some t at moved
      unfold tick at moved
      unfold userRuns at user
      cases list : s.tasks with
      | nil => simp [list] at moved
      | cons task rest => cases task <;> simp [list, CallbackTask.user] at moved user
  · have acted : (if s.userRuns then s.act move else none) = some t := by
      cases move <;> first | exact moved | exact absurd rfl own
    split at acted
    · rename_i user
      exact upright.acts user acted
    · cases acted

end

end CallbackRegistry

def CallbackTask.edits : CallbackTask → Bool
  | insert _ _ _ | remove _ => true
  | _ => false

def CallbackMove.asks : CallbackMove → Bool
  | register _ | registerScoped | drop _ => true
  | _ => false

namespace CallbackRegistry

def edits (s : CallbackRegistry) : Nat := s.tasks.countP CallbackTask.edits

section

variable {s t : CallbackRegistry}

theorem edits_dropContext (context : Option Nat) :
    (context.map CallbackTask.dropContext).toList.countP CallbackTask.edits = 0 := by
  cases context <;> rfl

theorem edits_dropEntry (entry : Option Nat) :
    (entry.map CallbackTask.dropEntry).toList.countP CallbackTask.edits = 0 := by
  cases entry <;> rfl

theorem tick_edits (moved : s.tick = some t) :
    t.edits ≤ s.edits ∧ (t.table ≠ s.table → t.edits + 1 = s.edits) := by
  unfold tick at moved
  unfold edits
  split at moved <;> rename_i list
  · split at moved
    · cases moved
    · cases moved
      simp [list, CallbackTask.edits]
  · cases moved
    simp [list, CallbackTask.edits]
  · unfold registerEntry at moved
    split at moved
    · obtain ⟨entries, -, same⟩ := Option.bind_eq_some_iff.mp moved
      cases same
      simp [list, CallbackTask.edits, List.countP_cons]
    · cases moved
      simp [list, CallbackTask.edits, List.countP_cons, List.countP_append, edits_dropContext]
  · cases moved
    simp [list, CallbackRegistry.dropHandle, CallbackTask.edits, List.countP_cons,
      List.countP_append, edits_dropContext, edits_dropEntry]
  · unfold CallbackRegistry.lookUp at moved
    split at moved
    · obtain ⟨entries, -, same⟩ := Option.bind_eq_some_iff.mp moved
      cases same
      simp [list, CallbackTask.edits]
    · cases moved
      simp [list, CallbackTask.edits]
  · cases moved
    simp [list, answer, CallbackTask.edits]
  · unfold dispatch at moved
    split at moved
    · cases moved
      simp [list, answer, CallbackTask.edits]
    · obtain ⟨cell, -, dispatched⟩ := Option.bind_eq_some_iff.mp moved
      split at dispatched
      · split at dispatched
        · cases dispatched
          simp [list, CallbackTask.edits]
        · cases dispatched
      · cases dispatched
        simp [list, answer, CallbackTask.edits]
  · unfold CallbackRegistry.releaseEntry at moved
    obtain ⟨cell, -, released⟩ := Option.bind_eq_some_iff.mp moved
    split at released
    · cases released
      simp [list, CallbackTask.edits]
    · cases released
      simp [list, CallbackTask.edits]
  · cases moved
    simp [list, CallbackTask.edits]
  · cases moved
  · cases moved
  · cases moved

theorem act_edits {move : CallbackMove} (moved : s.act move = some t) :
    t.table = s.table ∧ (move.asks = false → t.edits = s.edits) := by
  unfold act at moved
  unfold edits
  split at moved
  · cases moved
    exact ⟨rfl, nofun⟩
  · cases moved
    exact ⟨rfl, nofun⟩
  · split at moved
    · cases moved
      exact ⟨rfl, nofun⟩
    · cases moved
  · cases moved
    unfold beginCall
    split
    · exact ⟨rfl, fun _ => by simp [CallbackTask.edits]⟩
    · exact ⟨rfl, fun _ => rfl⟩
  · split at moved
    · rename_i list
      obtain ⟨entries, -, same⟩ := Option.bind_eq_some_iff.mp moved
      cases same
      exact ⟨rfl, fun _ => by simp [list, answer, CallbackTask.edits]⟩
    · cases moved
  · split at moved
    · rename_i list
      cases moved
      exact ⟨rfl, fun _ => by simp [list, CallbackTask.edits]⟩
    · cases moved
  · cases moved

end

structure Dispatching (s : CallbackRegistry) : Prop where
  nonzero : ∀ handle ∈ s.handles, handle.id ≠ 0
  distinct : (s.handles.map LeanCallbackHandle.id).Nodup
  table : ∀ id e, s.table id = some e ↔ ∃ handle ∈ s.handles, handle.id = id ∧ handle.entry = e
  answered : ∀ report ∈ s.returned, report.Faithful
  /-- The table changes only by an edit that is under way, and only a registration or the drop of a
  handle sets one under way. -/
  edited : ∀ move t, s.step move = some t → (t.table ≠ s.table → t.edits < s.edits) ∧
    (s.edits < t.edits → move.asks = true)
  /-- Nobody waits for a lock that is held, and user code runs without it. -/
  unblocked : ∀ rest, s.tasks = .acquire :: rest → s.locked = false
  outside : s.userRuns = true → s.locked = false
  /-- The crate's own code never gets stuck, and a callback that runs may end in any way. -/
  goesOn : s.userRuns = false → (s.step .tick).isSome
  ends : ∀ call e event rest outcome, s.tasks = .callback call e event :: rest →
    ∃ t, s.step (.finish outcome) = some t ∧ t.table = s.table ∧ t.handles = s.handles

theorem Upright.dispatching {s : CallbackRegistry} (upright : s.Upright) : s.Dispatching where
  nonzero := upright.nonzero
  distinct := upright.distinct
  table := upright.table
  answered := upright.answered
  edited move t moved := by
    cases move with
    | tick =>
      obtain ⟨fewer, edited⟩ := tick_edits moved
      refine ⟨fun changed => ?_, fun more => absurd more (Nat.not_lt.mpr fewer)⟩
      have one := edited changed
      omega
    | _ =>
      simp only [step] at moved
      split at moved
      · obtain ⟨same, quiet⟩ := act_edits moved
        refine ⟨fun changed => absurd same changed, fun more => ?_⟩
        by_contra asks
        rw [quiet (by simpa using asks)] at more
        exact absurd more (Nat.lt_irrefl _)
      · cases moved
  unblocked rest list := by
    have place := upright.place
    rw [list] at place
    cases lock : s.locked with
    | false => rfl
    | true =>
      rw [lock] at place
      cases place
  outside user := (upright.user_unlocked user).1
  goesOn own := by
    obtain ⟨t, ticks, _⟩ := upright.ticks own
    exact Option.isSome_iff_exists.mpr ⟨t, ticks⟩
  ends call e event rest outcome list := by
    have user : s.userRuns = true := by simp [userRuns, list, CallbackTask.user]
    obtain ⟨unlocked, waits⟩ := upright.user_unlocked user
    rw [list] at waits
    obtain ⟨t, finishes, _, same⟩ := upright.finish outcome
      (fun task member => waits task (List.mem_cons_of_mem _ member)) list unlocked
    exact ⟨t, by simp [step, user, act, list, finishes], same⟩

/-- From an empty registry and any value of the id counter. -/
theorem run_dispatching (nextId : UInt64) (moves : List CallbackMove) (s : CallbackRegistry)
    (reached : Runs.run step { nextId := nextId } moves = some s) : s.Dispatching :=
  (Runs.invariant (fun _ _ _ upright moved => Upright.steps upright moved) (upright_start nextId)
    reached).dispatching

/-- With the counter at its last value, a progress callback that drops its own handle while it runs
and then asks to stop. -/
def selfDroppingRun : List CallbackMove :=
  [.register .progress, .tick, .tick, .tick,
    .call .progress 0xFFFFFFFFFFFFFFFF 0 1 2 .null, .tick, .tick, .tick, .tick,
    .drop ⟨0xFFFFFFFFFFFFFFFF, 0, .progress, none⟩, .tick, .tick, .tick, .tick, .tick,
    .finish (.returned .stop), .tick, .destroyed]

theorem selfDroppingRun_dispatching :
    ∃ s : CallbackRegistry,
      Runs.run step { nextId := 0xFFFFFFFFFFFFFFFF } selfDroppingRun = some s ∧
      s.returned.map TrampolineReport.status = [LeanCallbackStatus.stopped.asAbi] ∧
      s.handles = [] ∧ s.nextId = 0 ∧ s.Dispatching :=
  ⟨_, rfl, rfl, rfl, rfl, run_dispatching 0xFFFFFFFFFFFFFFFF selfDroppingRun _ rfl⟩

end CallbackRegistry

end LeanRs
