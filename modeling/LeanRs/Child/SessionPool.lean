import LeanRs.General.Recency
import LeanRs.General.Runs
import LeanRs.Worker.Protocol

/-! The imported environments that a worker child holds: the one it serves and the ones it has
parked, least recently used at the front. -/
namespace LeanRs

structure LeanError where
  code : String
  message : String
  deriving DecidableEq

/-- The sizes of the process-global registries that only ever grow. -/
structure Registries where
  persistentExts : Nat
  scopedExts : Nat
  builtinAttributes : Nat
  deriving DecidableEq

namespace Registries

/-- The shim's stamp. It only reads references, so it cannot fail. -/
def extensionRegistryEpoch (r : Registries) : Except LeanError UInt64 :=
  .ok (UInt64.ofNat (r.persistentExts + r.scopedExts + r.builtinAttributes))

def grow (r by' : Registries) : Registries where
  persistentExts := r.persistentExts + by'.persistentExts
  scopedExts := r.scopedExts + by'.scopedExts
  builtinAttributes := r.builtinAttributes + by'.builtinAttributes

end Registries

/-- What determines the environment behind a session. Equality is the reuse predicate. -/
structure HostSessionKey where
  projectRoot : String
  mode : HostSessionMode
  imports : List String
  importProfile : LeanWorkerSessionImportProfile
  deriving DecidableEq

structure LeanSession where
  importStats : LeanWorkerImportStats
  extensionRegistryEpoch : UInt64
  deriving DecidableEq

structure HostSessionState where
  key : HostSessionKey
  session : LeanSession
  deriving DecidableEq

structure HostAnchor where
  projectRoot : String
  mode : HostSessionMode
  deriving DecidableEq

/-- How the calls that leave the child's own code come out in one `OpenHostSession`. -/
structure ImportAnswers where
  /-- `HostAnchor::build`, if it is called. -/
  anchor : Except LeanError Unit
  /-- What the import registers, whether or not it succeeds. -/
  registered : Registries
  imported : Except LeanError LeanWorkerImportStats
  deriving DecidableEq

structure SessionPool where
  anchors : List HostAnchor := []
  hostSession : Option HostSessionState := none
  parked : List HostSessionState := []
  registries : Registries
  /-- The imports that were run, in order. -/
  imports : List HostSessionKey := []
  deriving DecidableEq

namespace SessionPool

/-- `parked` and the current session behind it: the order of use. -/
def held (p : SessionPool) : List HostSessionState := p.parked ++ p.hostSession.toList

def keys (p : SessionPool) : List HostSessionKey := p.held.map HostSessionState.key

def live (p : SessionPool) : Option UInt64 := p.registries.extensionRegistryEpoch.toOption

def isStale (p : SessionPool) (state : HostSessionState) : Bool :=
  p.live != some state.session.extensionRegistryEpoch

def evictStaleHostSessions (p : SessionPool) : SessionPool :=
  match p.hostSession.or p.parked.head? with
  | none => p
  | some _ =>
    if !p.hostSession.any p.isStale && !p.parked.any p.isStale then p
    else { p with
      parked := p.parked.filter fun state => !p.isStale state
      hostSession := if p.hostSession.any p.isStale then none else p.hostSession }

end SessionPool

def evictLru (capacity : Nat) : List HostSessionState → List HostSessionState
  | [] => []
  | oldest :: rest =>
    if capacity ≤ (oldest :: rest).length then evictLru capacity rest else oldest :: rest

namespace SessionPool

def anchor (p : SessionPool) (key : HostSessionKey) (built : Except LeanError Unit) :
    Except LeanError SessionPool :=
  if p.anchors.any fun anchor =>
      anchor.projectRoot == key.projectRoot && anchor.mode == key.mode then
    .ok p
  else match built with
    | .ok () => .ok { p with anchors := p.anchors ++ [⟨key.projectRoot, key.mode⟩] }
    | .error err => .error err

/-- `HostSessionState::open`. The stamp is read when the import is over. -/
def importSession (p : SessionPool) (key : HostSessionKey) (a : ImportAnswers) :
    Except LeanError HostSessionState × SessionPool :=
  let p := { p with
    registries := p.registries.grow a.registered
    imports := p.imports ++ [key] }
  match a.imported, p.registries.extensionRegistryEpoch with
  | .ok importStats, .ok epoch => (.ok ⟨key, importStats, epoch⟩, p)
  | .error err, _ => (.error err, p)
  | _, .error err => (.error err, p)

def errorResponse (err : LeanError) : Response := .error err.code err.message

/-- The current session is parked, and the least recently used make room for one more. -/
def makeRoom (p : SessionPool) (capacity : Nat) : SessionPool :=
  { p with
    parked := evictLru capacity (p.parked ++ p.hostSession.toList)
    hostSession := none }

def openHostSession (capacity : Nat) (key : HostSessionKey) (a : ImportAnswers) (p : SessionPool) :
    Response × SessionPool :=
  let p := p.makeRoom capacity
  match p.anchor key a.anchor with
  | .error err => (errorResponse err, p)
  | .ok p =>
    match p.importSession key a with
    | (.ok state, p) =>
      (.hostSessionOpened state.session.importStats,
        { p with hostSession := some state }.evictStaleHostSessions)
    | (.error err, p) => (errorResponse err, p)

def openOrReuseHostSession (capacity : Nat) (key : HostSessionKey) (a : ImportAnswers)
    (p : SessionPool) : Response × SessionPool :=
  let p := p.evictStaleHostSessions
  match p.hostSession.filter fun state => state.key == key with
  | some state => (.hostSessionReused state.session.importStats, p)
  | none =>
    match p.parked.find? fun state => state.key == key with
    | some state =>
      (.hostSessionReused state.session.importStats,
        { p with
          parked := p.parked.eraseP (fun state => state.key == key) ++ p.hostSession.toList
          hostSession := some state })
    | none => p.openHostSession capacity key a

end SessionPool

namespace SessionPool

theorem evictStaleHostSessions_eq (p : SessionPool) :
    p.evictStaleHostSessions = { p with
      parked := p.parked.filter fun state => !p.isStale state
      hostSession := p.hostSession.filter fun state => !p.isStale state } := by
  have current : (if p.hostSession.any p.isStale then none else p.hostSession) =
      p.hostSession.filter fun state => !p.isStale state := by
    cases p.hostSession with
    | none => rfl
    | some state => cases stale : p.isStale state <;> simp [Option.filter, stale]
  unfold evictStaleHostSessions
  rw [← current]
  split
  · rename_i nothing
    obtain ⟨none, empty⟩ := Option.or_eq_none_iff.mp nothing
    rw [List.head?_eq_none_iff] at empty
    cases p
    cases none
    cases empty
    rfl
  · split
    · rename_i fresh
      simp only [Bool.and_eq_true, Bool.not_eq_true'] at fresh
      have parked : (p.parked.filter fun state => !p.isStale state) = p.parked :=
        List.filter_eq_self.mpr fun state member => by
          simpa using List.any_eq_false.mp fresh.2 state member
      rw [parked, fresh.1]
      rfl
    · rfl

theorem isStale_congr {p q : SessionPool} (same : p.registries = q.registries) :
    p.isStale = q.isStale := by
  unfold isStale live
  rw [same]

theorem evictStaleHostSessions_held (p : SessionPool) :
    p.evictStaleHostSessions.held = p.held.filter fun state => !p.isStale state := by
  rw [evictStaleHostSessions_eq, held, held, List.filter_append]
  cases p.hostSession with
  | none => rfl
  | some state => cases stale : p.isStale state <;> simp [Option.filter, stale]

theorem evictStaleHostSessions_registries (p : SessionPool) :
    p.evictStaleHostSessions.registries = p.registries := by rw [evictStaleHostSessions_eq]

theorem evictStaleHostSessions_imports (p : SessionPool) :
    p.evictStaleHostSessions.imports = p.imports := by rw [evictStaleHostSessions_eq]

theorem evictStaleHostSessions_fresh (p : SessionPool) :
    ∀ state ∈ p.evictStaleHostSessions.held, p.isStale state = false := by
  intro state member
  rw [evictStaleHostSessions_held, List.mem_filter] at member
  simpa using member.2

theorem evictStaleHostSessions_of_fresh (p : SessionPool)
    (fresh : ∀ state ∈ p.held, p.isStale state = false) : p.evictStaleHostSessions = p := by
  have parked : (p.parked.filter fun state => !p.isStale state) = p.parked :=
    List.filter_eq_self.mpr fun state member => by
      simp [fresh state (List.mem_append_left _ member)]
  have current : (p.hostSession.filter fun state => !p.isStale state) = p.hostSession := by
    cases present : p.hostSession with
    | none => rfl
    | some state =>
      have recent := fresh state (List.mem_append_right _ (by simp [present]))
      simp [Option.filter, recent]
  rw [evictStaleHostSessions_eq, parked, current]

theorem evictStaleHostSessions_keys (p : SessionPool) :
    p.evictStaleHostSessions.keys.Sublist p.keys := by
  rw [keys, evictStaleHostSessions_held]
  exact List.filter_sublist.map _

end SessionPool

theorem evictLru_eq {capacity : Nat} (positive : 1 ≤ capacity) (states : List HostSessionState) :
    evictLru capacity states = Recency.keepLast (capacity - 1) states := by
  induction states with
  | nil => rw [evictLru, Recency.keepLast, List.drop_nil]
  | cons oldest rest ih =>
    rw [evictLru]
    split
    · rename_i full
      rw [ih, Recency.keepLast, Recency.keepLast]
      have one : (oldest :: rest).length - (capacity - 1) =
          (rest.length - (capacity - 1)) + 1 := by
        rw [List.length_cons] at full ⊢
        omega
      rw [one, List.drop_succ_cons]
    · rename_i room
      exact (Recency.keepLast_of_le (by omega)).symm

namespace SessionPool

theorem anchor_frame {p q : SessionPool} {key : HostSessionKey} {built : Except LeanError Unit}
    (anchored : p.anchor key built = .ok q) : q = { p with anchors := q.anchors } := by
  unfold anchor at anchored
  split at anchored
  · cases anchored
    rfl
  · cases built with
    | error err => cases anchored
    | ok _ =>
      cases anchored
      rfl

theorem openHostSession_cases (capacity : Nat) (key : HostSessionKey) (a : ImportAnswers)
    (p : SessionPool) :
    (∃ (err : LeanError) (p' : SessionPool),
      p.openHostSession capacity key a = (errorResponse err, p') ∧
      p'.hostSession = none ∧ p'.parked = evictLru capacity p.held ∧
      (p'.registries = p.registries ∨ p'.registries = p.registries.grow a.registered)) ∨
    ∃ (state : HostSessionState) (p' : SessionPool), p.openHostSession capacity key a =
        (.hostSessionOpened state.session.importStats, p'.evictStaleHostSessions) ∧
      p'.hostSession = some state ∧ p'.parked = evictLru capacity p.held ∧ state.key = key ∧
      p'.isStale state = false ∧ p'.registries = p.registries.grow a.registered := by
  obtain ⟨built, registered, imported⟩ := a
  unfold openHostSession
  cases anchored : (p.makeRoom capacity).anchor key built with
  | error err =>
    refine .inl ⟨err, p.makeRoom capacity, ?_, rfl, rfl, .inl rfl⟩
    simp only [anchored]
  | ok q =>
    have frame := anchor_frame anchored
    simp only [anchored]
    have registries : q.registries = p.registries := by rw [frame]; rfl
    have parked : q.parked = evictLru capacity p.held := by rw [frame]; rfl
    have none : q.hostSession = none := by rw [frame]; rfl
    cases imported with
    | error err => exact .inl ⟨err, _, rfl, none, parked, .inr (by simp [registries])⟩
    | ok stats =>
      refine .inr ⟨_, _, rfl, rfl, parked, rfl, ?_, by simp [registries]⟩
      simp [isStale, live, Registries.extensionRegistryEpoch, Except.toOption]

inductive Opening (capacity : Nat) (key : HostSessionKey) (a : ImportAnswers) (p : SessionPool) :
    Response × SessionPool → Prop where
  | reused (state : HostSessionState) (q : SessionPool) (current : q.hostSession = some state)
      (requested : state.key = key) (fresh : q.isStale state = false) (held : key ∈ p.keys)
      (keys : q.keys = Recency.use capacity p.keys key)
      (states : ∀ state ∈ q.held, state ∈ p.held)
      (registries : q.registries = p.registries) (imports : q.imports = p.imports) :
      Opening capacity key a p (.hostSessionReused state.session.importStats, q)
  | opened (state : HostSessionState) (q : SessionPool) (current : q.hostSession = some state)
      (requested : state.key = key) (fresh : q.isStale state = false) (unheld : key ∉ p.keys)
      (keys : q.keys = Recency.use capacity p.keys key)
      (states : ∀ earlier ∈ q.held, earlier = state ∨ earlier ∈ p.held)
      (registries : q.registries = p.registries.grow a.registered) :
      Opening capacity key a p
        (.hostSessionOpened state.session.importStats, q.evictStaleHostSessions)
  | failed (err : LeanError) (q : SessionPool) (current : q.hostSession = none)
      (unheld : key ∉ p.keys) (keys : q.keys = Recency.keepLast (capacity - 1) p.keys)
      (states : ∀ state ∈ q.held, state ∈ p.held)
      (registries : q.registries = p.registries ∨
        q.registries = p.registries.grow a.registered) :
      Opening capacity key a p (errorResponse err, q)

theorem keys_eq {p : SessionPool} {state : HostSessionState}
    (current : p.hostSession = some state) :
    p.keys = p.parked.map HostSessionState.key ++ [state.key] := by
  simp [keys, held, current]

theorem openHostSession_opening {capacity : Nat} (positive : 1 ≤ capacity) (key : HostSessionKey)
    (a : ImportAnswers) (p : SessionPool) (unheld : key ∉ p.keys) :
    Opening capacity key a p (p.openHostSession capacity key a) := by
  have room : (evictLru capacity p.held).map HostSessionState.key =
      Recency.keepLast (capacity - 1) p.keys := by
    rw [evictLru_eq positive, Recency.map_keepLast]
    rfl
  have older : ∀ state ∈ evictLru capacity p.held, state ∈ p.held := by
    rw [evictLru_eq positive]
    exact fun state member => (Recency.keepLast_suffix _ _).subset member
  rcases openHostSession_cases capacity key a p with
    ⟨err, q, ended, current, parked, registries⟩ |
    ⟨state, q, ended, current, parked, requested, fresh, registries⟩
  · rw [ended]
    refine .failed err q current unheld ?_ ?_ registries
    · rw [← room, keys, held, current, parked, Option.toList_none, List.append_nil]
    · simpa [held, current, parked] using older
  · rw [ended]
    refine .opened state q current requested fresh unheld ?_ ?_ registries
    · have succ : capacity - 1 + 1 = capacity := Nat.sub_add_cancel positive
      rw [Recency.use, if_neg unheld, keys_eq current, parked, room, requested,
        ← Recency.keepLast_append_singleton, succ]
    · intro earlier member
      simp only [held, current, parked, Option.toList_some, List.mem_append,
        List.mem_singleton] at member
      exact member.symm.imp_right (older earlier)

theorem openOrReuseHostSession_opening {capacity : Nat} (positive : 1 ≤ capacity)
    (key : HostSessionKey) (a : ImportAnswers) (p : SessionPool) (distinct : p.keys.Nodup) :
    Opening capacity key a p.evictStaleHostSessions
      (p.openOrReuseHostSession capacity key a) := by
  have distinct := distinct.sublist p.evictStaleHostSessions_keys
  have fresh : ∀ state ∈ p.evictStaleHostSessions.held,
      p.evictStaleHostSessions.isStale state = false := by
    rw [isStale_congr p.evictStaleHostSessions_registries]
    exact p.evictStaleHostSessions_fresh
  unfold openOrReuseHostSession
  generalize p.evictStaleHostSessions = q at distinct fresh
  simp only
  split
  · rename_i state hit
    obtain ⟨current, matched⟩ := Option.filter_eq_some_iff.mp hit
    have requested : state.key = key := by simpa using matched
    have last : q.keys = q.parked.map HostSessionState.key ++ [key] := requested ▸ keys_eq current
    have apart : key ∉ q.parked.map HostSessionState.key := by
      rw [last] at distinct
      exact fun member => List.disjoint_of_nodup_append distinct member (List.mem_singleton_self _)
    refine .reused state q current requested
      (fresh state (List.mem_append_right _ (by simp [current]))) (by simp [last]) ?_
      (fun _ member => member) rfl rfl
    rw [Recency.use, if_pos (by simp [last]), Recency.touch, last,
      List.erase_append_right _ apart]
    simp
  · rename_i missed
    split
    · rename_i state found
      have member := List.mem_of_find?_eq_some found
      have requested : state.key = key := by simpa using List.find?_some found
      have parkedKey : key ∈ q.parked.map HostSessionState.key :=
        requested ▸ List.mem_map_of_mem member
      refine .reused state _ rfl requested (fresh state (List.mem_append_left _ member))
        (List.mem_map.mpr ⟨state, List.mem_append_left _ member, requested⟩) ?_ ?_ rfl rfl
      · have heldKey : key ∈ q.keys := by
          rw [keys, held, List.map_append]
          exact List.mem_append_left _ parkedKey
        have erased : (q.parked.eraseP fun state => state.key == key).map HostSessionState.key =
            (q.parked.map HostSessionState.key).erase key := by
          rw [List.erase_eq_eraseP', List.eraseP_map]
          rfl
        rw [Recency.use, if_pos heldKey, Recency.touch, keys_eq rfl, requested, keys, held,
          List.map_append, List.map_append, List.erase_append_left _ parkedKey, erased]
      · intro earlier among
        simp only [held, Option.toList_some, List.mem_append, List.mem_singleton] at among
        rcases among with (kept | outgoing) | same
        · exact List.mem_append_left _ (List.mem_of_mem_eraseP kept)
        · exact List.mem_append_right _ outgoing
        · exact List.mem_append_left _ (same ▸ member)
    · rename_i unparked
      refine openHostSession_opening positive key a q fun member => ?_
      obtain ⟨state, member, requested⟩ := List.mem_map.mp member
      rcases List.mem_append.mp member with parked | current
      · exact List.find?_eq_none.mp unparked state parked (by simp [requested])
      · have present : q.hostSession = some state := by simpa using current
        simp [present, Option.filter, requested] at missed

structure Sound (capacity : Nat) (p : SessionPool) : Prop where
  bounded : p.held.length ≤ capacity
  distinct : p.keys.Nodup
  current : ∀ state, p.hostSession = some state →
    p.live = some state.session.extensionRegistryEpoch

structure Answered (key : HostSessionKey) (before after : SessionPool) (response : Response) :
    Prop where
  /-- A session that is opened or reused is the one that was asked for, and not stale. -/
  served : (∃ importStats, response = .hostSessionOpened importStats ∨
      response = .hostSessionReused importStats) →
    ∃ state, after.hostSession = some state ∧ state.key = key ∧
      after.live = some state.session.extensionRegistryEpoch
  /-- A reuse runs no import. -/
  spared : (∃ importStats, response = .hostSessionReused importStats) →
    after.imports = before.imports

theorem live_of_not_stale {p : SessionPool} {state : HostSessionState}
    (fresh : p.isStale state = false) : p.live = some state.session.extensionRegistryEpoch := by
  simpa [isStale] using fresh

theorem keys_length (p : SessionPool) : p.keys.length = p.held.length := List.length_map ..

theorem keepLast_room (capacity : Nat) (keys : List HostSessionKey) :
    (Recency.keepLast (capacity - 1) keys).length ≤ capacity :=
  Nat.le_trans (Recency.keepLast_length_le _ _) (Nat.sub_le _ _)

/-- The step lemma: whatever the import does, the pool stays sound and the answer is right. -/
theorem openOrReuseHostSession_sound {capacity : Nat} (positive : 1 ≤ capacity)
    (key : HostSessionKey) (a : ImportAnswers) (p : SessionPool) (sound : p.Sound capacity) :
    (p.openOrReuseHostSession capacity key a).2.Sound capacity ∧
      Answered key p (p.openOrReuseHostSession capacity key a).2
        (p.openOrReuseHostSession capacity key a).1 := by
  have distinct := sound.distinct.sublist p.evictStaleHostSessions_keys
  have bounded : p.evictStaleHostSessions.keys.length ≤ capacity :=
    Nat.le_trans p.evictStaleHostSessions_keys.length_le (p.keys_length ▸ sound.bounded)
  have opening := openOrReuseHostSession_opening positive key a p sound.distinct
  generalize p.openOrReuseHostSession capacity key a = result at opening
  cases opening with
  | reused state q current requested fresh held keys states registries imports =>
    have live := live_of_not_stale fresh
    refine ⟨⟨?_, ?_, ?_⟩, ?_, ?_⟩
    · rw [← q.keys_length, keys]
      exact Recency.use_length_le bounded key
    · rw [keys]
      exact Recency.use_nodup capacity distinct key
    · intro served same
      exact Option.some.inj (current.symm.trans same) ▸ live
    · exact fun _ => ⟨state, current, requested, live⟩
    · exact fun _ => imports.trans p.evictStaleHostSessions_imports
  | opened state q current requested fresh unheld keys states registries =>
    have live : q.evictStaleHostSessions.live = some state.session.extensionRegistryEpoch := by
      rw [SessionPool.live, q.evictStaleHostSessions_registries]
      exact live_of_not_stale fresh
    have stays : q.evictStaleHostSessions.hostSession = some state := by
      rw [evictStaleHostSessions_eq]
      simp [current, Option.filter, fresh]
    have smaller := q.evictStaleHostSessions_keys
    refine ⟨⟨?_, ?_, ?_⟩, ?_, ?_⟩
    · rw [← keys_length]
      exact Nat.le_trans smaller.length_le (keys ▸ Recency.use_length_le bounded key)
    · refine List.Nodup.sublist smaller ?_
      rw [keys]
      exact Recency.use_nodup capacity distinct key
    · intro served same
      exact Option.some.inj (stays.symm.trans same) ▸ live
    · exact fun _ => ⟨state, stays, requested, live⟩
    · rintro ⟨importStats, reused⟩
      cases reused
  | failed err q current unheld keys states registries =>
    refine ⟨⟨?_, ?_, ?_⟩, ?_, ?_⟩
    · rw [← q.keys_length, keys]
      exact keepLast_room capacity _
    · rw [keys]
      exact distinct.sublist (Recency.keepLast_suffix _ _).sublist
    · intro served same
      rw [current] at same
      cases same
    · rintro ⟨importStats, opened | reused⟩
      · cases opened
      · cases reused
    · rintro ⟨importStats, reused⟩
      cases reused

def fresh (registries : Registries) : SessionPool where
  registries := registries

theorem fresh_sound (capacity : Nat) (registries : Registries) :
    (fresh registries).Sound capacity :=
  ⟨Nat.zero_le _, List.nodup_nil, fun _ nothing => nomatch nothing⟩

structure OpenRequest where
  key : HostSessionKey
  answers : ImportAnswers
  deriving DecidableEq

def step (capacity : Nat) (p : SessionPool) (request : OpenRequest) : Option SessionPool :=
  some (p.openOrReuseHostSession capacity request.key request.answers).2

theorem reachable_sound {capacity : Nat} (positive : 1 ≤ capacity) (registries : Registries)
    (requests : List OpenRequest) {p : SessionPool}
    (reached : Runs.run (step capacity) (fresh registries) requests = some p) :
    p.Sound capacity := by
  refine Runs.invariant (fun s request t held stepped => ?_) (fresh_sound capacity registries)
    reached
  cases stepped
  exact (openOrReuseHostSession_sound positive request.key request.answers s held).1

/-- After every request of every run the pool is within its capacity, with distinct keys and a
current session that is not stale, and the request has been answered as the pool promises. -/
theorem reachable_pool_answers {capacity : Nat} (positive : 1 ≤ capacity)
    (registries : Registries) (requests : List OpenRequest) (request : OpenRequest)
    {p : SessionPool}
    (reached : Runs.run (step capacity) (fresh registries) requests = some p) :
    (p.openOrReuseHostSession capacity request.key request.answers).2.Sound capacity ∧
      Answered request.key p (p.openOrReuseHostSession capacity request.key request.answers).2
        (p.openOrReuseHostSession capacity request.key request.answers).1 :=
  openOrReuseHostSession_sound positive request.key request.answers p
    (reachable_sound positive registries requests reached)

def oneImport (projectRoot : String) : HostSessionKey where
  projectRoot := projectRoot
  mode := .shimsOnly
  imports := ["Init"]
  importProfile := .server

def registering (scopedExts : Nat) : ImportAnswers where
  anchor := .ok ()
  registered := ⟨0, scopedExts, 0⟩
  imported := .ok {}

/-- Two projects that take turns: the first is parked and comes back without an import, and then
an import that registers an extension costs the other its session. -/
theorem alternating_projects_answers :
    let requests : List OpenRequest := [⟨oneImport "a", registering 1⟩,
      ⟨oneImport "b", registering 0⟩, ⟨oneImport "a", registering 1⟩]
    let p := requests.foldl (fun p r => (p.openOrReuseHostSession 2 r.key r.answers).2)
      (fresh ⟨0, 0, 0⟩)
    p.keys = [oneImport "b", oneImport "a"] ∧
      (p.openOrReuseHostSession 2 (oneImport "c") (registering 1)).2.Sound 2 ∧
      Answered (oneImport "c") p (p.openOrReuseHostSession 2 (oneImport "c") (registering 1)).2
        (p.openOrReuseHostSession 2 (oneImport "c") (registering 1)).1 :=
  ⟨by decide +kernel, reachable_pool_answers (by decide) ⟨0, 0, 0⟩ [⟨oneImport "a", registering 1⟩,
    ⟨oneImport "b", registering 0⟩, ⟨oneImport "a", registering 1⟩]
    ⟨oneImport "c", registering 1⟩ rfl⟩

end SessionPool

end LeanRs
