import LeanRs.Child.SessionPool
import LeanRs.Worker.Operations

/-! The keys that the supervisor believes its child to hold, beside the sessions that the child
does hold. The two lists are kept by separate rules; the first stays a recent part of the
second. -/
namespace LeanRs

theorem noteOpenSessionKey_eq_use {K : Type} [DecidableEq K] (capacity : Nat) (keys : List K)
    (key : K) : noteOpenSessionKey capacity keys key = Recency.use capacity keys key := by
  unfold noteOpenSessionKey
  cases found : keys.find? (· == key) with
  | none =>
    have unheld : key ∉ keys := fun member => by
      simpa using List.find?_eq_none.mp found key member
    rw [Recency.use, if_neg unheld, Recency.keepLast]
  | some held =>
    have same : held = key := by simpa using List.find?_some found
    have member : key ∈ keys := same ▸ List.mem_of_find?_eq_some found
    have erased : keys.eraseP (· == key) = keys.erase key := (List.erase_eq_eraseP' key keys).symm
    simp only [Recency.use, if_pos member, Recency.touch, same, erased]

structure ReuseHint where
  openSessionKeys : List HostSessionKey
  pool : SessionPool

inductive HintAction where
  /-- One `OpenHostSession`; `observed` is whether the supervisor got to see the answer. -/
  | openSession (request : SessionPool.OpenRequest) (observed : Bool)
  /-- The child is replaced. -/
  | restart (registries : Registries)

namespace ReuseHint

/-- What the supervisor makes of the answer: anything but a confirmation clears the hint. -/
def noteAnswer (capacity : Nat) (keys : List HostSessionKey) (key : HostSessionKey) :
    Response → List HostSessionKey
  | .hostSessionOpened _ | .hostSessionReused _ => noteOpenSessionKey capacity keys key
  | _ => []

def step (capacity : Nat) (s : ReuseHint) : HintAction → Option ReuseHint
  | .openSession request observed =>
    let answer := s.pool.openOrReuseHostSession capacity request.key request.answers
    some {
      openSessionKeys :=
        if observed then noteAnswer capacity s.openSessionKeys request.key answer.1 else []
      pool := answer.2 }
  | .restart registries => some ⟨[], .fresh registries⟩

def new (registries : Registries) : ReuseHint := ⟨[], .fresh registries⟩

end ReuseHint

def HintAction.quiet : HintAction → Bool
  | .openSession request _ => request.answers.registered == ⟨0, 0, 0⟩
  | .restart _ => true

namespace ReuseHint

/-- The supervisor remembers a recent part of what the child holds, and nothing there is stale. -/
structure Follows (capacity : Nat) (s : ReuseHint) : Prop where
  sound : s.pool.Sound capacity
  fresh : ∀ state ∈ s.pool.held, s.pool.isStale state = false
  recent : s.openSessionKeys <:+ s.pool.keys

theorem new_follows (capacity : Nat) (registries : Registries) :
    (new registries).Follows capacity :=
  ⟨SessionPool.fresh_sound capacity registries, List.forall_mem_nil _, List.nil_suffix⟩

theorem fresh_of_held {p q : SessionPool} (registries : q.registries = p.registries)
    (fresh : ∀ state ∈ p.held, p.isStale state = false)
    (states : ∀ state ∈ q.held, q.isStale state = false ∨ state ∈ p.held) :
    ∀ state ∈ q.held, q.isStale state = false := by
  intro state member
  rcases states state member with recent | older
  · exact recent
  · rw [SessionPool.isStale_congr registries]
    exact fresh state older

theorem noteAnswer_recent {capacity : Nat} {keys held : List HostSessionKey}
    (recent : keys <:+ held) (distinct : held.Nodup) (key : HostSessionKey) (observed : Bool) :
    (if observed then noteOpenSessionKey capacity keys key else []) <:+
      Recency.use capacity held key := by
  cases observed with
  | false => exact List.nil_suffix
  | true =>
    rw [if_pos rfl, noteOpenSessionKey_eq_use]
    exact Recency.use_mono capacity recent distinct key

theorem step_follows {capacity : Nat} (positive : 1 ≤ capacity) (s : ReuseHint)
    (action : HintAction) (t : ReuseHint) (follows : s.Follows capacity)
    (quiet : action.quiet = true) (moved : s.step capacity action = some t) :
    t.Follows capacity := by
  cases action with
  | restart registries => exact Option.some.inj moved ▸ new_follows capacity registries
  | openSession request observed =>
    obtain ⟨key, anchor, registered, imported⟩ := request
    have nothing : registered = ⟨0, 0, 0⟩ := by simpa [HintAction.quiet] using quiet
    cases moved
    subst nothing
    have sound := (SessionPool.openOrReuseHostSession_sound positive key
      ⟨anchor, ⟨0, 0, 0⟩, imported⟩ s.pool follows.sound).1
    have opening := SessionPool.openOrReuseHostSession_opening positive key
      ⟨anchor, ⟨0, 0, 0⟩, imported⟩ s.pool follows.sound.distinct
    rw [SessionPool.evictStaleHostSessions_of_fresh s.pool follows.fresh] at opening
    have noted : (if observed then noteOpenSessionKey capacity s.openSessionKeys key else []) <:+
        Recency.use capacity s.pool.keys key :=
      noteAnswer_recent follows.recent follows.sound.distinct key observed
    generalize s.pool.openOrReuseHostSession capacity key ⟨anchor, ⟨0, 0, 0⟩, imported⟩ = answer
      at sound opening
    cases opening with
    | reused state q current requested fresh held keys states registries imports =>
      exact ⟨sound, fresh_of_held registries follows.fresh fun state member =>
        .inr (states state member), keys ▸ noted⟩
    | opened state q current requested fresh unheld keys states registries =>
      have all : ∀ state ∈ q.held, q.isStale state = false :=
        fresh_of_held registries follows.fresh fun earlier member => by
          rcases states earlier member with rfl | older
          · exact .inl fresh
          · exact .inr older
      rw [SessionPool.evictStaleHostSessions_of_fresh q all] at sound ⊢
      exact ⟨sound, all, keys ▸ noted⟩
    | failed err q current unheld keys states registries =>
      have same : q.registries = s.pool.registries := registries.elim id id
      refine ⟨sound, fresh_of_held same follows.fresh fun state member =>
        .inr (states state member), ?_⟩
      cases observed <;> exact List.nil_suffix

theorem Follows.reused {capacity : Nat} {s : ReuseHint} (follows : s.Follows capacity)
    (positive : 1 ≤ capacity) {key : HostSessionKey} (predicted : key ∈ s.openSessionKeys)
    (a : ImportAnswers) : ∃ importStats,
      (s.pool.openOrReuseHostSession capacity key a).1 = .hostSessionReused importStats := by
  have held : key ∈ s.pool.keys := follows.recent.subset predicted
  have opening := SessionPool.openOrReuseHostSession_opening positive key a s.pool
    follows.sound.distinct
  rw [SessionPool.evictStaleHostSessions_of_fresh s.pool follows.fresh] at opening
  generalize s.pool.openOrReuseHostSession capacity key a = answer at opening
  cases opening with
  | reused state q => exact ⟨_, rfl⟩
  | opened state q current requested fresh unheld => exact absurd held unheld
  | failed err q current unheld => exact absurd held unheld

/-- After every request of every run the supervisor's keys are a suffix of the child's, and a
request it predicts to be a reuse is answered as one. -/
theorem reachable_hint_follows {capacity : Nat} (positive : 1 ≤ capacity)
    (registries : Registries) (actions : List HintAction)
    (quiet : ∀ action ∈ actions, action.quiet = true) {s : ReuseHint}
    (reached : Runs.run (step capacity) (new registries) actions = some s) :
    s.openSessionKeys <:+ s.pool.keys ∧
    ∀ key ∈ s.openSessionKeys, ∀ a, ∃ importStats,
      (s.pool.openOrReuseHostSession capacity key a).1 = .hostSessionReused importStats := by
  have follows : s.Follows capacity :=
    Runs.invariant_of_guarded (C := fun _ action => action.quiet = true) (step_follows positive)
      (new_follows capacity registries)
      (Runs.guarded_of_forall _ fun action member _ => quiet action member) reached
  exact ⟨follows.recent, fun key predicted a => follows.reused positive predicted a⟩

def quietOpening (projectRoot : String) (imported : Except LeanError LeanWorkerImportStats) :
    HintAction :=
  .openSession ⟨SessionPool.oneImport projectRoot, ⟨.ok (), ⟨0, 0, 0⟩, imported⟩⟩ true

def turns : List HintAction :=
  [quietOpening "a" (.ok {}), quietOpening "b" (.ok {}), quietOpening "a" (.ok {})]

theorem turns_follow : ∃ s, Runs.run (step 2) (new ⟨0, 0, 0⟩) turns = some s ∧
    s.openSessionKeys = [SessionPool.oneImport "b", SessionPool.oneImport "a"] ∧
    s.openSessionKeys <:+ s.pool.keys := by
  have recent : ∀ s, Runs.run (step 2) (new ⟨0, 0, 0⟩) turns = some s →
      s.openSessionKeys <:+ s.pool.keys := fun s reached =>
    (reachable_hint_follows (by decide) ⟨0, 0, 0⟩ turns (by decide) reached).1
  exact ⟨_, rfl, by decide +kernel, recent _ rfl⟩

end ReuseHint

end LeanRs
