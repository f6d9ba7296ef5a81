import LeanRs.Runtime.Callback
import Mathlib.Data.List.Nodup

/-! What every run of the callback registry keeps: who holds the clones of an entry, what the table
knows of the handles, and where the lock is. -/
namespace LeanRs

open RefCounting

namespace CallbackTask

def clones (e : Nat) : CallbackTask → Nat
  | insert entry _ _ | report _ (some entry) | dropEntry entry | callback _ entry _ =>
    if entry = e then 1 else 0
  | _ => 0

def contexts (c : Nat) : CallbackTask → Nat
  | insert _ _ (some context) | dropContext context => if context = c then 1 else 0
  | _ => 0

/-- A task that may lie under user code: it does not need the lock. -/
def waits : CallbackTask → Bool
  | dropContext _ => true
  | task => task.user

end CallbackTask

namespace CallbackRegistry

def taskClones (tasks : List CallbackTask) (e : Nat) : Nat := (tasks.map (·.clones e)).sum

def taskContexts (tasks : List CallbackTask) (c : Nat) : Nat := (tasks.map (·.contexts c)).sum

@[simp] theorem taskClones_nil (e : Nat) : taskClones [] e = 0 := rfl

@[simp] theorem taskContexts_nil (c : Nat) : taskContexts [] c = 0 := rfl

@[simp] theorem taskClones_cons (task : CallbackTask) (tasks : List CallbackTask) (e : Nat) :
    taskClones (task :: tasks) e = task.clones e + taskClones tasks e := by simp [taskClones]

@[simp] theorem taskContexts_cons (task : CallbackTask) (tasks : List CallbackTask) (c : Nat) :
    taskContexts (task :: tasks) c = task.contexts c + taskContexts tasks c := by
  simp [taskContexts]

@[simp] theorem taskClones_append (first second : List CallbackTask) (e : Nat) :
    taskClones (first ++ second) e = taskClones first e + taskClones second e := by
  simp [taskClones]

@[simp] theorem taskContexts_append (first second : List CallbackTask) (c : Nat) :
    taskContexts (first ++ second) c = taskContexts first c + taskContexts second c := by
  simp [taskContexts]

@[simp] theorem taskClones_dropContext (context : Option Nat) (e : Nat) :
    taskClones (context.map CallbackTask.dropContext).toList e = 0 := by
  cases context <;> rfl

/-- A handle stands for two clones of its entry, its own and the one in the table. -/
def owners (s : CallbackRegistry) (e : Nat) : Nat :=
  2 * s.handles.countP (·.entry = e) + taskClones s.tasks e

def contextOwners (s : CallbackRegistry) (c : Nat) : Nat :=
  s.handles.countP (·.context = some c) + taskContexts s.tasks c

def Describes (s : CallbackRegistry) (e : Nat) (kind : CallbackEntryKind) (context : Option Nat) :
    Prop :=
  ∃ cell, s.entries.cell e = some cell ∧ cell.body.kind = kind ∧ cell.body.context = context

end CallbackRegistry

/-- The tag and the payload fit, and the handle was live and of the trampoline's kind. -/
structure TrampolineCall.Dispatched (call : TrampolineCall) (entry : Nat) (event : CallbackEvent) :
    Prop where
  tag : call.payloadTag = call.trampoline.payloadTag
  event : call.event = some event
  distinct : (call.live.map LeanCallbackHandle.id).Nodup
  live : ∃ handle ∈ call.live, handle.id = call.handle ∧ handle.payload = call.trampoline ∧
    handle.entry = entry

/-- What a call of a trampoline is for: it runs the callback of the live handle that it names, once
and with the event that its arguments make, if there is one and everything fits, and otherwise
nothing. -/
structure TrampolineReport.Faithful (report : TrampolineReport) : Prop where
  once : report.ran.length ≤ 1
  ran : ∀ handle ∈ report.call.live, handle.id = report.call.handle →
    handle.payload = report.call.trampoline →
    report.call.payloadTag = report.call.trampoline.payloadTag →
    ∀ event, report.call.event = some event → ∃ outcome,
      report.ran = [(handle.entry, event, outcome)] ∧ report.status = outcome.status.asAbi
  refused : (∀ handle ∈ report.call.live, handle.id = report.call.handle →
      handle.payload = report.call.trampoline →
      report.call.payloadTag = report.call.trampoline.payloadTag → report.call.event = none) →
    report.ran = [] ∧ (report.status = LeanCallbackStatus.staleHandle.asAbi ∨
      report.status = LeanCallbackStatus.wrongPayload.asAbi)

theorem TrampolineCall.event_kind {call : TrampolineCall} {event : CallbackEvent}
    (fits : call.event = some event) : event.kind = call.trampoline := by
  unfold TrampolineCall.event at fits
  split at fits
  · rename_i same
    cases fits
    rw [same]
    rfl
  · rename_i same
    obtain ⟨value, _, rfl⟩ := Option.map_eq_some_iff.mp fits
    rw [same]
    rfl

theorem TrampolineReport.faithful_refused {call : TrampolineCall} {status : LeanCallbackStatus}
    (refusal : status = .staleHandle ∨ status = .wrongPayload)
    (unfit : ∀ handle ∈ call.live, handle.id = call.handle → handle.payload = call.trampoline →
      call.payloadTag = call.trampoline.payloadTag → call.event = none) :
    TrampolineReport.Faithful ⟨call, [], status.asAbi⟩ where
  once := Nat.zero_le 1
  ran := by
    intro handle held named kind tag event fits
    have nothing := unfit handle held named kind tag
    rw [fits] at nothing
    cases nothing
  refused _ := ⟨rfl, by rcases refusal with rfl | rfl <;> simp⟩

theorem TrampolineCall.Dispatched.faithful {call : TrampolineCall} {e : Nat} {event : CallbackEvent}
    (dispatched : call.Dispatched e event) (outcome : CallbackOutcome) :
    TrampolineReport.Faithful ⟨call, [(e, event, outcome)], outcome.status.asAbi⟩ where
  once := Nat.le_refl 1
  ran := by
    intro handle held named kind tag other fits
    obtain ⟨run, live, ran, _, points⟩ := dispatched.live
    have same : handle = run :=
      List.inj_on_of_nodup_map dispatched.distinct held live (named.trans ran.symm)
    have event_eq := dispatched.event.symm.trans fits
    cases event_eq
    exact ⟨outcome, by rw [same, points], rfl⟩
  refused unfit := by
    obtain ⟨run, live, named, kind, _⟩ := dispatched.live
    have nothing := unfit run live named kind dispatched.tag
    rw [dispatched.event] at nothing
    cases nothing

namespace CallbackRegistry

/-- Where the crate's code is, with the lock held or not. What lies under it waits for user
code. -/
inductive Section (s : CallbackRegistry) : Bool → List CallbackTask → Prop where
  | user (rest : List CallbackTask) (waits : ∀ task ∈ rest, task.waits = true) :
      Section s false rest
  | registering (e : Nat) (kind : CallbackEntryKind) (context : Option Nat)
      (rest : List CallbackTask) (waits : ∀ task ∈ rest, task.waits = true)
      (fresh : s.Describes e kind context) :
      Section s false (.acquire :: .insert e kind context :: rest)
  | inserting (e : Nat) (kind : CallbackEntryKind) (context : Option Nat)
      (rest : List CallbackTask) (waits : ∀ task ∈ rest, task.waits = true)
      (fresh : s.Describes e kind context) : Section s true (.insert e kind context :: rest)
  | registered (rest : List CallbackTask) (waits : ∀ task ∈ rest, task.waits = true) :
      Section s true (.unlock :: rest)
  | unlocking (e : Nat) (rest : List CallbackTask) (waits : ∀ task ∈ rest, task.waits = true) :
      Section s true (.unlock :: .dropEntry e :: rest)
  | dropping (e : Nat) (rest : List CallbackTask) (waits : ∀ task ∈ rest, task.waits = true) :
      Section s false (.dropEntry e :: rest)
  | unregistering (handle : LeanCallbackHandle) (rest : List CallbackTask)
      (waits : ∀ task ∈ rest, task.waits = true) (live : handle ∈ s.handles) :
      Section s false (.acquire :: .remove handle :: rest)
  | removing (handle : LeanCallbackHandle) (rest : List CallbackTask)
      (waits : ∀ task ∈ rest, task.waits = true) (live : handle ∈ s.handles) :
      Section s true (.remove handle :: rest)
  | removed (e : Nat) (rest : List CallbackTask) (waits : ∀ task ∈ rest, task.waits = true) :
      Section s true (.dropEntry e :: .unlock :: .dropEntry e :: rest)
  | calling (call : TrampolineCall) (rest : List CallbackTask)
      (waits : ∀ task ∈ rest, task.waits = true)
      (tag : call.payloadTag = call.trampoline.payloadTag) (live : call.live = s.handles) :
      Section s false (.acquire :: .lookup call :: rest)
  | lookingUp (call : TrampolineCall) (rest : List CallbackTask)
      (waits : ∀ task ∈ rest, task.waits = true)
      (tag : call.payloadTag = call.trampoline.payloadTag) (live : call.live = s.handles) :
      Section s true (.lookup call :: rest)
  | lookedUp (call : TrampolineCall) (found : Option Nat) (rest : List CallbackTask)
      (waits : ∀ task ∈ rest, task.waits = true)
      (tag : call.payloadTag = call.trampoline.payloadTag) (live : call.live = s.handles)
      (found_eq : found = s.table call.handle) :
      Section s true (.unlock :: .report call found :: rest)
  | reporting (call : TrampolineCall) (found : Option Nat) (rest : List CallbackTask)
      (waits : ∀ task ∈ rest, task.waits = true)
      (tag : call.payloadTag = call.trampoline.payloadTag) (live : call.live = s.handles)
      (found_eq : found = s.table call.handle) :
      Section s false (.report call found :: rest)

structure Upright (s : CallbackRegistry) : Prop where
  nonzero : ∀ handle ∈ s.handles, handle.id ≠ 0
  distinct : (s.handles.map LeanCallbackHandle.id).Nodup
  table : ∀ id e, s.table id = some e ↔ ∃ handle ∈ s.handles, handle.id = id ∧ handle.entry = e
  described : ∀ handle ∈ s.handles, s.Describes handle.entry handle.payload handle.context
  owned : Consistent (fun _ => []) s.entries s.owners
  counted : ∀ e cell, s.entries.cell e = some cell → 0 < cell.rc
  contextsOwned : Consistent (fun _ => []) s.contexts s.contextOwners
  single : ∀ c cell, s.contexts.cell c = some cell → cell.rc = 1
  place : s.Section s.locked s.tasks
  dispatched : ∀ call e event, .callback call e event ∈ s.tasks → call.Dispatched e event
  answered : ∀ report ∈ s.returned, report.Faithful

theorem upright_start (nextId : UInt64) : Upright { nextId := nextId } where
  nonzero := nofun
  distinct := List.nodup_nil
  table := by simp
  described := nofun
  owned := ⟨fun a c live => (nomatch live), fun _ _ => rfl⟩
  counted e cell live := nomatch live
  contextsOwned := ⟨fun a c live => (nomatch live), fun _ _ => rfl⟩
  single c cell live := nomatch live
  place := .user [] nofun
  dispatched := nofun
  answered := nofun

section

variable {s t : CallbackRegistry}

theorem Upright.retask (upright : s.Upright) (table : t.table = s.table)
    (entries : t.entries = s.entries) (contexts : t.contexts = s.contexts)
    (handles : t.handles = s.handles) (clones : ∀ e, taskClones t.tasks e = taskClones s.tasks e)
    (owned : ∀ c, taskContexts t.tasks c = taskContexts s.tasks c)
    (place : t.Section t.locked t.tasks)
    (dispatched : ∀ call e event, .callback call e event ∈ t.tasks → call.Dispatched e event)
    (answered : ∀ report ∈ t.returned, report.Faithful) : t.Upright where
  nonzero := handles ▸ upright.nonzero
  distinct := handles ▸ upright.distinct
  table := by rw [table, handles]; exact upright.table
  described := by
    unfold Describes
    rw [entries, handles]
    exact upright.described
  owned := by
    rw [entries]
    exact upright.owned.of_eq fun e => by rw [owners, owners, handles, clones]
  counted := entries ▸ upright.counted
  contextsOwned := by
    rw [contexts]
    exact upright.contextsOwned.of_eq fun c => by rw [contextOwners, contextOwners, handles, owned]
  single := contexts ▸ upright.single
  place := place
  dispatched := dispatched
  answered := answered

theorem Upright.alive (upright : s.Upright) {e : Nat} (used : 0 < s.owners e) :
    ∃ cell, s.entries.cell e = some cell ∧ cell.rc = s.owners e := by
  obtain ⟨cell, live⟩ := upright.owned.alive (a := e) (by omega)
  have positive := upright.counted e cell live
  have counted := upright.owned.counted e cell live (by omega)
  refine ⟨cell, live, ?_⟩
  rw [inRefs_nil] at counted
  omega

theorem describes_put {e e' : Nat} {cell cell' : Cell CallbackEntry} {kind : CallbackEntryKind}
    {context : Option Nat} (live : s.entries.cell e = some cell)
    (entries : t.entries = s.entries.put e cell') (kept : cell'.body.kind = cell.body.kind)
    (keptContext : cell'.body.context = cell.body.context)
    (described : s.Describes e' kind context) :
    t.Describes e' kind context := by
  obtain ⟨other, at_e', rfl, rfl⟩ := described
  by_cases here : e' = e
  · subst here
    rw [live] at at_e'
    cases at_e'
    exact ⟨cell', by rw [entries]; exact Heap.cell_put_same live, kept, keptContext⟩
  · exact ⟨other, by rw [entries, Heap.cell_put_other here]; exact at_e', rfl, rfl⟩

theorem counted_put {h : Heap CallbackEntry} {e : Nat} {cell cell' : Cell CallbackEntry}
    (live : h.cell e = some cell) (counted : ∀ e cell, h.cell e = some cell → 0 < cell.rc)
    (positive : 0 < cell'.rc) :
    ∀ e' found, (h.put e cell').cell e' = some found → 0 < found.rc := by
  intro e' found at_e'
  by_cases here : e' = e
  · subst here
    rw [Heap.cell_put_same live] at at_e'
    cases at_e'
    exact positive
  · rw [Heap.cell_put_other here] at at_e'
    exact counted e' found at_e'

theorem Upright.alive_of_task (upright : s.Upright) {e : Nat} {task : CallbackTask}
    {rest : List CallbackTask} (tasks : s.tasks = task :: rest) (holds : task.clones e = 1) :
    ∃ cell, s.entries.cell e = some cell ∧ cell.rc = s.owners e := by
  apply upright.alive
  rw [owners, tasks, taskClones_cons, holds]
  omega

theorem owners_of_live {handle : LeanCallbackHandle} (live : handle ∈ s.handles) :
    2 + taskClones s.tasks handle.entry ≤ s.owners handle.entry := by
  have counted : 0 < s.handles.countP (·.entry = handle.entry) :=
    List.countP_pos_iff.mpr ⟨handle, live, by simp⟩
  unfold owners
  omega

theorem waits_dropContext {rest : List CallbackTask} (context : Option Nat)
    (waits : ∀ task ∈ rest, task.waits = true) :
    ∀ task ∈ (context.map CallbackTask.dropContext).toList ++ rest, task.waits = true := by
  intro task member
  rcases List.mem_append.mp member with member | member
  · cases context with
    | none => simp at member
    | some c =>
      simp only [Option.map_some, Option.toList_some, List.mem_singleton] at member
      rw [member]
      rfl
  · exact waits task member

theorem allocateId_fresh {table : CallbackTable} {attempts : Nat} {next next' id : UInt64}
    (allocated : allocateId table attempts next = (some id, next')) :
    id ≠ 0 ∧ table id = none := by
  induction attempts generalizing next with
  | zero => cases allocated
  | succ attempts ih =>
    unfold allocateId at allocated
    split at allocated
    · exact ih allocated
    · rename_i nonzero
      split at allocated
      · exact ih allocated
      · rename_i free
        cases allocated
        exact ⟨nonzero, by simpa using free⟩

theorem Upright.beginRegister (upright : s.Upright) (kind : CallbackEntryKind)
    (context : Option Nat) (waits : ∀ task ∈ s.tasks, task.waits = true)
    (entries : t.entries = s.entries.alloc ⟨kind, context, none⟩)
    (tasks : t.tasks = .acquire :: .insert s.entries.length kind context :: s.tasks)
    (locked : t.locked = false) (table : t.table = s.table) (handles : t.handles = s.handles)
    (returned : t.returned = s.returned)
    (contextsOwned : Consistent (fun _ => []) t.contexts t.contextOwners)
    (single : ∀ c cell, t.contexts.cell c = some cell → cell.rc = 1) : t.Upright where
  nonzero := handles ▸ upright.nonzero
  distinct := handles ▸ upright.distinct
  table := by rw [table, handles]; exact upright.table
  described := by
    intro handle live
    rw [handles] at live
    obtain ⟨cell, alive, described⟩ := upright.described handle live
    exact ⟨cell, by rw [entries]; exact Heap.cell_alloc_old _ alive, described⟩
  owned := by
    rw [entries]
    refine upright.owned.alloc _ fun e => ?_
    simp only [owners, handles, tasks, taskClones_cons, CallbackTask.clones, List.count_nil,
      eq_comm (a := e)]
    omega
  counted := by
    intro e cell alive
    rw [entries] at alive
    by_cases fresh : e = s.entries.length
    · subst fresh
      rw [Heap.cell_alloc_new] at alive
      cases alive
      exact Int.zero_lt_one
    · rw [Heap.cell_alloc_other _ fresh] at alive
      exact upright.counted e cell alive
  contextsOwned := contextsOwned
  single := single
  place := by
    rw [locked, tasks]
    refine .registering _ kind context s.tasks waits
      ⟨⟨1, ⟨kind, context, none⟩⟩, ?_, rfl, rfl⟩
    rw [entries]
    exact Heap.cell_alloc_new _
  dispatched call e event member := by
    rw [tasks] at member
    exact upright.dispatched call e event (by simpa using member)
  answered := returned ▸ upright.answered

theorem cloneEntry_apply {e : Nat} {cell : Cell CallbackEntry}
    (live : s.entries.cell e = some cell) :
    s.cloneEntry e = some (s.entries.put e ⟨cell.rc + 1, cell.body⟩) := by
  simp [cloneEntry, live]

theorem Upright.registered (upright : s.Upright) {e : Nat} {kind : CallbackEntryKind}
    {context : Option Nat} {rest : List CallbackTask} {id next : UInt64}
    (waits : ∀ task ∈ rest, task.waits = true) (fresh : s.Describes e kind context)
    (tasks : s.tasks = .insert e kind context :: rest) (locked : s.locked = true)
    (allocated : allocateId s.table allocateIdAttempts s.nextId = (some id, next)) :
    ∃ t, s.registerEntry e kind context rest = some t ∧ t.Upright := by
  obtain ⟨cell, live, counted⟩ := upright.alive_of_task (e := e) tasks (if_pos rfl)
  obtain ⟨nonzero, unused⟩ := allocateId_fresh allocated
  have positive := upright.counted e cell live
  simp only [registerEntry, allocated, cloneEntry_apply live, Option.bind_eq_bind, Option.bind_some]
  refine ⟨_, rfl, ?_⟩
  have unnamed : ∀ handle ∈ s.handles, handle.id ≠ id := by
    rintro handle held rfl
    have named := (upright.table handle.id handle.entry).mpr ⟨handle, held, rfl, rfl⟩
    rw [unused] at named
    cases named
  constructor
  case nonzero =>
    intro handle held
    rcases List.mem_cons.mp held with rfl | held
    · exact nonzero
    · exact upright.nonzero handle held
  case distinct => exact List.nodup_cons.mpr ⟨by simpa using unnamed, upright.distinct⟩
  case table =>
    intro id' e'
    dsimp only
    by_cases here : id' = id
    · subst here
      rw [Function.update_self]
      constructor
      · intro same
        exact ⟨_, List.mem_cons_self, rfl, Option.some.inj same⟩
      · rintro ⟨handle, held, named, rfl⟩
        rcases List.mem_cons.mp held with rfl | held
        · rfl
        · exact absurd named (unnamed handle held)
    · rw [Function.update_of_ne here, upright.table]
      simp [Ne.symm here]
  case described =>
    intro handle held
    rcases List.mem_cons.mp held with rfl | held
    · exact describes_put live rfl rfl rfl fresh
    · exact describes_put live rfl rfl rfl (upright.described handle held)
  case owned =>
    refine upright.owned.recount live (by omega) ?_ fun e' other => ?_
    · simp only [owners, tasks, taskClones_cons, CallbackTask.clones, List.countP_cons]
      simp
      omega
    · simp [owners, tasks, CallbackTask.clones, Ne.symm other]
  case counted => exact counted_put live upright.counted (by dsimp only; omega)
  case contextsOwned =>
    refine upright.contextsOwned.of_eq fun c => ?_
    simp only [contextOwners, tasks, taskContexts_cons, List.countP_cons]
    cases context with
    | none => simp [CallbackTask.contexts]
    | some context =>
      simp only [CallbackTask.contexts, Option.some.injEq, decide_eq_true_eq]
      omega
  case single => exact upright.single
  case place =>
    dsimp only
    rw [locked]
    exact .registered rest waits
  case dispatched =>
    intro call e' event member
    exact upright.dispatched call e' event (by rw [tasks]; simpa using member)
  case answered => exact upright.answered

theorem Upright.refused (upright : s.Upright) {e : Nat} {kind : CallbackEntryKind}
    {context : Option Nat} {rest : List CallbackTask} {next : UInt64}
    (waits : ∀ task ∈ rest, task.waits = true) (tasks : s.tasks = .insert e kind context :: rest)
    (locked : s.locked = true)
    (allocated : allocateId s.table allocateIdAttempts s.nextId = (none, next)) :
    ∃ t, s.registerEntry e kind context rest = some t ∧ t.Upright := by
  simp only [registerEntry, allocated]
  refine ⟨_, rfl, upright.retask rfl rfl rfl rfl ?_ ?_ ?_ ?_ upright.answered⟩
  · intro e'
    simp [tasks, CallbackTask.clones]
  · intro c
    cases context <;> simp [tasks, CallbackTask.contexts]
  · dsimp only
    rw [locked]
    exact .unlocking e _ (waits_dropContext context waits)
  · intro call e' event member
    refine upright.dispatched call e' event ?_
    cases context <;> simpa [tasks] using member

theorem Upright.handle_named (upright : s.Upright) {handle other : LeanCallbackHandle}
    (live : handle ∈ s.handles) (held : other ∈ s.handles) (same : other.id = handle.id) :
    other = handle := List.inj_on_of_nodup_map upright.distinct held live same

theorem Upright.dropHandle (upright : s.Upright) {handle : LeanCallbackHandle}
    {rest : List CallbackTask} (waits : ∀ task ∈ rest, task.waits = true)
    (live : handle ∈ s.handles) (tasks : s.tasks = .remove handle :: rest)
    (locked : s.locked = true) : (s.dropHandle handle rest).Upright := by
  have found : s.table handle.id = some handle.entry :=
    (upright.table _ _).mpr ⟨handle, live, rfl, rfl⟩
  have nodup : s.handles.Nodup := List.Nodup.of_map _ upright.distinct
  have held : ∀ {other}, other ∈ s.handles.erase handle → other ∈ s.handles :=
    List.mem_of_mem_erase
  have erased : ∀ p : LeanCallbackHandle → Bool,
      s.handles.countP p = (s.handles.erase handle).countP p + if p handle then 1 else 0 := by
    intro p
    rw [(List.perm_cons_erase live).countP_eq p, List.countP_cons]
  simp only [CallbackRegistry.dropHandle, found, Option.map_some, Option.toList_some,
    List.cons_append, List.nil_append]
  constructor
  case nonzero => exact fun other member => upright.nonzero other (held member)
  case distinct => exact upright.distinct.sublist (List.erase_sublist.map _)
  case table =>
    intro id e
    dsimp only
    by_cases here : id = handle.id
    · subst here
      rw [Function.update_self]
      constructor
      · nofun
      · rintro ⟨other, member, named, -⟩
        have same := upright.handle_named live (held member) named
        exact absurd same (nodup.mem_erase_iff.mp member).1
    · rw [Function.update_of_ne here, upright.table]
      constructor
      · rintro ⟨other, member, named, points⟩
        refine ⟨other, nodup.mem_erase_iff.mpr ⟨?_, member⟩, named, points⟩
        rintro rfl
        exact here named.symm
      · rintro ⟨other, member, named, points⟩
        exact ⟨other, held member, named, points⟩
  case described => exact fun other member => upright.described other (held member)
  case owned =>
    refine upright.owned.of_eq fun e => ?_
    have count := erased (·.entry = e)
    simp only [owners, tasks, taskClones_cons, taskClones_append, taskClones_dropContext,
      CallbackTask.clones] at count ⊢
    by_cases here : handle.entry = e <;> simp [here] at count ⊢ <;> omega
  case counted => exact upright.counted
  case contextsOwned =>
    refine upright.contextsOwned.of_eq fun c => ?_
    have count := erased (·.context = some c)
    simp only [contextOwners, tasks, taskContexts_cons, taskContexts_append,
      CallbackTask.contexts] at count ⊢
    cases context : handle.context with
    | none => simp [context] at count ⊢; omega
    | some d =>
      by_cases here : d = c <;> simp [context, here, CallbackTask.contexts] at count ⊢ <;>
        omega
  case single => exact upright.single
  case place =>
    dsimp only
    rw [locked]
    exact .removed _ _ (waits_dropContext handle.context waits)
  case dispatched =>
    intro call e event member
    refine upright.dispatched call e event ?_
    cases context : handle.context <;> simpa [tasks, context] using member
  case answered => exact upright.answered

theorem Upright.lookUp (upright : s.Upright) {call : TrampolineCall} {rest : List CallbackTask}
    (waits : ∀ task ∈ rest, task.waits = true)
    (tag : call.payloadTag = call.trampoline.payloadTag) (live : call.live = s.handles)
    (tasks : s.tasks = .lookup call :: rest) (locked : s.locked = true) :
    ∃ t, s.lookUp call rest = some t ∧ t.Upright := by
  unfold CallbackRegistry.lookUp
  cases found : s.table call.handle with
  | none =>
    refine ⟨_, rfl, upright.retask rfl rfl rfl rfl ?_ ?_ ?_ ?_ upright.answered⟩
    · simp [tasks, CallbackTask.clones]
    · simp [tasks, CallbackTask.contexts]
    · dsimp only
      rw [locked]
      exact .lookedUp call none rest waits tag live found.symm
    · intro call' e event member
      exact upright.dispatched call' e event (by rw [tasks]; simpa using member)
  | some e =>
    obtain ⟨handle, held, _, points⟩ := (upright.table _ _).mp found
    obtain ⟨cell, at_e, _⟩ := upright.alive (e := e)
      (by have many := owners_of_live held; rw [points] at many; omega)
    have positive := upright.counted e cell at_e
    simp only [cloneEntry_apply at_e, Option.bind_eq_bind, Option.bind_some]
    refine ⟨_, rfl, ?_⟩
    constructor
    case nonzero => exact upright.nonzero
    case distinct => exact upright.distinct
    case table => exact upright.table
    case described =>
      exact fun other member => describes_put at_e rfl rfl rfl (upright.described other member)
    case owned =>
      refine upright.owned.recount at_e (by omega) ?_ fun e' other => ?_
      · simp only [owners, tasks, taskClones_cons, CallbackTask.clones, if_true]
        omega
      · simp [owners, tasks, CallbackTask.clones, Ne.symm other]
    case counted => exact counted_put at_e upright.counted (by dsimp only; omega)
    case contextsOwned =>
      exact upright.contextsOwned.of_eq fun c => by
        simp [contextOwners, tasks, CallbackTask.contexts]
    case single => exact upright.single
    case place =>
      dsimp only
      rw [locked]
      exact .lookedUp call (some e) rest waits tag live found.symm
    case dispatched =>
      intro call' e' event member
      exact upright.dispatched call' e' event (by rw [tasks]; simpa using member)
    case answered => exact upright.answered

theorem Upright.releaseEntry (upright : s.Upright) {e : Nat} {rest : List CallbackTask}
    (tasks : s.tasks = .dropEntry e :: rest)
    (place : (s.locked = false ∧ ∀ task ∈ rest, task.waits = true) ∨
      (s.locked = true ∧ ∃ under, rest = .unlock :: .dropEntry e :: under ∧
        ∀ task ∈ under, task.waits = true)) :
    ∃ t, s.releaseEntry e rest = some t ∧ t.Upright := by
  obtain ⟨cell, live, counted⟩ := upright.alive_of_task tasks (if_pos rfl)
  have positive := upright.counted e cell live
  have split : s.owners e = 2 * s.handles.countP (·.entry = e) + (1 + taskClones rest e) := by
    rw [owners, tasks, taskClones_cons, CallbackTask.clones, if_pos rfl]
  have others : ∀ e' ≠ e, taskClones s.tasks e' = taskClones rest e' := by
    intro e' other
    simp [tasks, CallbackTask.clones, Ne.symm other]
  have same : ∀ c, taskContexts s.tasks c = taskContexts rest c := by
    intro c
    simp [tasks, CallbackTask.contexts]
  simp only [CallbackRegistry.releaseEntry, live, Option.bind_eq_bind, Option.bind_some]
  split
  · rename_i last
    have unheld : s.handles.countP (·.entry = e) = 0 := by omega
    have apart : ∀ handle ∈ s.handles, handle.entry ≠ e := by
      intro handle held points
      have none := List.countP_eq_zero.mp unheld handle held
      exact none (by simpa using points)
    refine ⟨_, rfl, ?_⟩
    constructor
    case nonzero => exact upright.nonzero
    case distinct => exact upright.distinct
    case table => exact upright.table
    case described =>
      intro handle held
      obtain ⟨other, at_handle, described⟩ := upright.described handle held
      exact ⟨other, (Heap.cell_free_other (apart handle held)).trans at_handle, described⟩
    case owned =>
      refine upright.owned.free live (by omega) (by omega) fun e' => ?_
      by_cases here : e' = e
      · subst here
        simp only [owners, taskClones_cons, CallbackTask.clones, List.count_nil, if_true] at split ⊢
        omega
      · simp only [owners, others e' here, taskClones_cons, CallbackTask.clones, List.count_nil,
          if_neg here]
        omega
    case counted =>
      intro e' found at_e'
      have here : e' ≠ e := by
        rintro rfl
        rw [Heap.cell_free_same] at at_e'
        cases at_e'
      rw [Heap.cell_free_other here] at at_e'
      exact upright.counted e' found at_e'
    case contextsOwned =>
      exact upright.contextsOwned.of_eq fun c => by
        simp [contextOwners, same, CallbackTask.contexts]
    case single => exact upright.single
    case place =>
      rcases place with ⟨unlocked, waits⟩ | ⟨locked, under, rfl, waits⟩
      · dsimp only
        rw [unlocked]
        refine .user _ fun task member => ?_
        rcases List.mem_cons.mp member with rfl | member
        · rfl
        · exact waits task member
      · -- the clone of the handle is one more
        simp only [taskClones_cons, CallbackTask.clones, if_true] at split
        omega
    case dispatched =>
      intro call e' event member
      exact upright.dispatched call e' event (by rw [tasks]; simpa using member)
    case answered => exact upright.answered
  · rename_i more
    refine ⟨_, rfl, ?_⟩
    constructor
    case nonzero => exact upright.nonzero
    case distinct => exact upright.distinct
    case table => exact upright.table
    case described =>
      exact fun handle held => describes_put live rfl rfl rfl (upright.described handle held)
    case owned =>
      refine upright.owned.recount live (by omega) ?_ fun e' other => ?_
      · rw [split, owners]
        dsimp only
        omega
      · rw [owners, owners, others e' other]
    case counted => exact counted_put live upright.counted (by dsimp only; omega)
    case contextsOwned =>
      exact upright.contextsOwned.of_eq fun c => by rw [contextOwners, contextOwners, same]
    case single => exact upright.single
    case place =>
      rcases place with ⟨unlocked, waits⟩ | ⟨locked, under, rfl, waits⟩
      · dsimp only
        rw [unlocked]
        exact .user rest waits
      · dsimp only
        rw [locked]
        exact .unlocking e under waits
    case dispatched =>
      intro call e' event member
      exact upright.dispatched call e' event (by rw [tasks]; simpa using member)
    case answered => exact upright.answered

theorem Upright.dropContext (upright : s.Upright) {c : Nat} {rest : List CallbackTask}
    (waits : ∀ task ∈ rest, task.waits = true) (tasks : s.tasks = .dropContext c :: rest)
    (unlocked : s.locked = false) :
    ({ s with contexts := s.contexts.free c, tasks := .destructor :: rest } :
      CallbackRegistry).Upright := by
  have owned : 0 < s.contextOwners c := by
    rw [contextOwners, tasks, taskContexts_cons, CallbackTask.contexts, if_pos rfl]
    omega
  obtain ⟨cell, live⟩ := upright.contextsOwned.alive (a := c) (by omega)
  have one := upright.single c cell live
  constructor
  case nonzero => exact upright.nonzero
  case distinct => exact upright.distinct
  case table => exact upright.table
  case described => exact upright.described
  case owned => exact upright.owned.of_eq fun e => by simp [owners, tasks, CallbackTask.clones]
  case counted => exact upright.counted
  case contextsOwned =>
    refine upright.contextsOwned.free live (by omega) owned fun c' => ?_
    simp only [contextOwners, tasks, taskContexts_cons, CallbackTask.contexts, List.count_nil,
      eq_comm (a := c)]
    omega
  case single =>
    intro c' found at_c'
    have here : c' ≠ c := by
      rintro rfl
      rw [Heap.cell_free_same] at at_c'
      cases at_c'
    rw [Heap.cell_free_other here] at at_c'
    exact upright.single c' found at_c'
  case place =>
    dsimp only
    rw [unlocked]
    refine .user _ fun task member => ?_
    rcases List.mem_cons.mp member with rfl | member
    · rfl
    · exact waits task member
  case dispatched =>
    intro call e event member
    exact upright.dispatched call e event (by rw [tasks]; simpa using member)
  case answered => exact upright.answered

theorem answered_append {returned : List TrampolineReport} {report : TrampolineReport}
    (answered : ∀ report ∈ returned, report.Faithful) (faithful : report.Faithful) :
    ∀ other ∈ returned ++ [report], other.Faithful := by
  intro other member
  rcases List.mem_append.mp member with member | member
  · exact answered other member
  · rw [List.mem_singleton.mp member]
    exact faithful

theorem Upright.answer (upright : s.Upright) {call : TrampolineCall} {status : LeanCallbackStatus}
    {task : CallbackTask} {rest under : List CallbackTask} (tasks : s.tasks = task :: rest)
    (faithful : TrampolineReport.Faithful ⟨call, [], status.asAbi⟩)
    (clones : ∀ e, taskClones under e = taskClones (task :: rest) e)
    (contexts : ∀ c, taskContexts under c = taskContexts (task :: rest) c)
    (place : (s.answer call [] status under).Section s.locked under)
    (kept : ∀ call e event, .callback call e event ∈ under → .callback call e event ∈ rest) :
    (s.answer call [] status under).Upright := by
  refine upright.retask rfl rfl rfl rfl ?_ ?_ place ?_ (answered_append upright.answered faithful)
  · rw [tasks]
    exact clones
  · rw [tasks]
    exact contexts
  · intro call' e event member
    refine upright.dispatched call' e event ?_
    rw [tasks]
    exact List.mem_cons_of_mem _ (kept call' e event member)

theorem Upright.report (upright : s.Upright) {call : TrampolineCall} {found : Option Nat}
    {rest : List CallbackTask} (waits : ∀ task ∈ rest, task.waits = true)
    (tag : call.payloadTag = call.trampoline.payloadTag) (live : call.live = s.handles)
    (found_eq : found = s.table call.handle) (tasks : s.tasks = .report call found :: rest)
    (unlocked : s.locked = false) : ∃ t, s.tick = some t ∧ t.Upright := by
  cases found with
  | none =>
    refine ⟨s.answer call [] .staleHandle rest, by rw [tick, tasks], upright.answer tasks
      (TrampolineReport.faithful_refused (.inl rfl) fun handle held named => ?_) (fun e => ?_)
      (fun c => ?_) ?_ fun _ _ _ member => member⟩
    · rw [live] at held
      have known := (upright.table _ _).mpr ⟨handle, held, named, rfl⟩
      rw [← found_eq] at known
      cases known
    · simp [CallbackTask.clones]
    · simp [CallbackTask.contexts]
    · rw [unlocked]
      exact .user rest waits
  | some e =>
    obtain ⟨handle, held, named, points⟩ := (upright.table _ _).mp found_eq.symm
    obtain ⟨cell, at_e, kind, context⟩ := upright.described handle held
    rw [points] at at_e
    have only : ∀ other ∈ s.handles, other.id = call.handle → other = handle :=
      fun other member same => upright.handle_named held member (same.trans named.symm)
    have wrong : (∀ event, call.event = some event → handle.payload ≠ call.trampoline) →
        (s.answer call [] .wrongPayload (.dropEntry e :: rest)).Upright := by
      intro unfit
      refine upright.answer tasks (TrampolineReport.faithful_refused (.inr rfl)
        fun other member same kind' _ => ?_) (fun e' => ?_) (fun c => ?_) ?_ fun _ _ _ member => ?_
      · rw [live] at member
        rw [only other member same] at kind'
        cases fits : call.event with
        | none => rfl
        | some event => exact absurd kind' (unfit event fits)
      · simp [CallbackTask.clones]
      · simp [CallbackTask.contexts]
      · rw [unlocked]
        exact .dropping e rest waits
      · simpa using member
    simp only [tick, tasks, dispatch, at_e, Option.bind_eq_bind, Option.bind_some]
    cases fits : call.event with
    | none => exact ⟨_, rfl, wrong fun event same => nomatch fits.symm.trans same⟩
    | some event =>
      have fitsKind := TrampolineCall.event_kind fits
      dsimp only
      split
      · rename_i same
        have alive : s.contextAlive cell.body = true := by
          unfold contextAlive
          rw [context]
          cases owned : handle.context with
          | none => rfl
          | some c =>
            have holder : 0 < s.handles.countP (·.context = some c) :=
              List.countP_pos_iff.mpr ⟨handle, held, by simpa using owned⟩
            obtain ⟨there, found⟩ := upright.contextsOwned.alive (a := c)
              (by rw [contextOwners]; omega)
            simp [found]
        rw [if_pos alive]
        refine ⟨_, rfl, upright.retask rfl rfl rfl rfl ?_ ?_ ?_ ?_ upright.answered⟩
        · simp [tasks, CallbackTask.clones]
        · simp [tasks, CallbackTask.contexts]
        · dsimp only
          rw [unlocked]
          refine .user _ fun task member => ?_
          rcases List.mem_cons.mp member with rfl | member
          · rfl
          · exact waits task member
        · intro call' e' event' member
          rcases List.mem_cons.mp member with same' | member
          · cases same'
            exact ⟨tag, fits, live ▸ upright.distinct, handle, live ▸ held, named,
              (kind.symm.trans same).trans fitsKind, points⟩
          · exact upright.dispatched call' e' event' (by rw [tasks]; exact .tail _ member)
      · rename_i other
        refine ⟨_, rfl, wrong fun event' same => ?_⟩
        cases fits.symm.trans same
        rw [← fitsKind, ← kind]
        exact other

theorem Upright.finish (upright : s.Upright) {call : TrampolineCall} {e : Nat}
    {event : CallbackEvent} {rest : List CallbackTask} (outcome : CallbackOutcome)
    (waits : ∀ task ∈ rest, task.waits = true) (tasks : s.tasks = .callback call e event :: rest)
    (unlocked : s.locked = false) : ∃ t, s.finish call e event outcome rest = some t ∧ t.Upright ∧
      t.table = s.table ∧ t.handles = s.handles := by
  obtain ⟨cell, live, _⟩ := upright.alive_of_task tasks (if_pos rfl)
  have positive := upright.counted e cell live
  have dispatched : call.Dispatched e event :=
    upright.dispatched call e event (by rw [tasks]; exact .head _)
  have answered := answered_append upright.answered (dispatched.faithful outcome)
  have kept : ∀ call' e' event', .callback call' e' event' ∈ CallbackTask.dropEntry e :: rest →
      call'.Dispatched e' event' := by
    intro call' e' event' member
    have below : .callback call' e' event' ∈ rest := by simpa using member
    exact upright.dispatched call' e' event' (by rw [tasks]; exact .tail _ below)
  have clones : ∀ e', taskClones (.dropEntry e :: rest) e' = taskClones s.tasks e' := by
    intro e'
    simp [tasks, CallbackTask.clones]
  have contexts : ∀ c, taskContexts (.dropEntry e :: rest) c = taskContexts s.tasks c := by
    intro c
    simp [tasks, CallbackTask.contexts]
  cases outcome with
  | returned flow =>
    refine ⟨_, rfl, upright.retask rfl rfl rfl rfl clones contexts ?_ kept answered, rfl, rfl⟩
    dsimp only [CallbackRegistry.answer]
    rw [unlocked]
    exact .dropping e rest waits
  | panicked message =>
    simp only [CallbackRegistry.finish, recordOutcome, live, Option.bind_eq_bind, Option.bind_some]
    refine ⟨_, rfl, ?_, rfl, rfl⟩
    constructor
    case nonzero => exact upright.nonzero
    case distinct => exact upright.distinct
    case table => exact upright.table
    case described =>
      exact fun handle held => describes_put live rfl rfl rfl (upright.described handle held)
    case owned =>
      refine (upright.owned.rewrite live fun _ => rfl).of_eq fun e' => ?_
      rw [owners, owners]
      exact congrArg _ (clones e')
    case counted => exact counted_put live upright.counted positive
    case contextsOwned =>
      exact upright.contextsOwned.of_eq fun c => by
        rw [contextOwners, contextOwners]
        exact congrArg _ (contexts c)
    case single => exact upright.single
    case place =>
      dsimp only [CallbackRegistry.answer]
      rw [unlocked]
      exact .dropping e rest waits
    case dispatched => exact kept
    case answered => exact answered

end

end CallbackRegistry

end LeanRs
