import LeanRs.Pool.Standing

/-! The timeout that a lease sets for its requests: it is in force while a command of the lease
runs, and the timeout of the entry is in force again when the command has ended. -/
namespace LeanRs

open Procedures Procedure Supervisor

/-- The worker's requests run under the timeout of the entry, which is that of its builder. -/
structure Standing.Posted (standing : Standing) : Prop where
  inForce : standing.config.requestTimeout = standing.baseRequestTimeout
  asked : standing.baseRequestTimeout = standing.builder.poolRequestTimeout

theorem posted_renewable (a : OpenCapabilityAnswers) : Renewable Standing.Posted a := by
  intro standing sessionConfig trusted config posted starts
  obtain ⟨child, rfl⟩ := starts.config
  exact ⟨posted.asked.symm, posted.asked⟩

theorem posted_fresh (builder : LeanWorkerCapabilityBuilder) (key : LeanWorkerSessionKey)
    (a : OpenCapabilityAnswers) : HoldsFresh Standing.Posted builder key a := by
  intro sessionConfig trusted config starts
  obtain ⟨child, rfl⟩ := starts.config
  exact ⟨rfl, rfl⟩

namespace LeanWorkerSessionLease

/-- Before the command: the override of the lease, with the timeout of the entry in force. -/
structure Due (o : Option Duration) (base : Duration) (s : LeaseWorld) : Prop where
  overrides : s.lease.requestTimeoutOverride = o
  based : s.entry.baseRequestTimeout = base
  posted : s.standing.Posted

structure Amid (o : Option Duration) (base : Duration) (s : LeaseWorld) : Prop where
  overrides : s.lease.requestTimeoutOverride = o
  based : s.entry.baseRequestTimeout = base
  asked : s.entry.baseRequestTimeout = s.entry.builder.poolRequestTimeout
  inForce : o = none → s.entry.worker.config.requestTimeout = base

variable {A : Type} {o : Option Duration} {base : Duration}

theorem Due.amid {s : LeaseWorld} (due : Due o base s) : Amid o base s where
  overrides := due.overrides
  based := due.based
  asked := due.posted.asked
  inForce _ := due.posted.inForce.trans due.based

def override (s : LeaseWorld) : Option Duration := s.lease.requestTimeoutOverride

theorem ensureValid_override : Fixes override ensureValid := by
  apply Fixes.bind Fixes.read
  intro s
  cases s.lease.refusal s.entry.workerGeneration with
  | none => exact .pure _
  | some reason => exact .raise _

theorem onEntry_override (m : EntryProcedure A) : Fixes override (onEntry m) :=
  .apart m fun _ _ => rfl

theorem invalidate_override (reason : LeaseReason) : Fixes override (invalidate reason) :=
  .update fun _ => rfl

theorem enforcePolicyBeforeRequest_override (a : PoolEntry.PolicyAnswers) :
    Fixes override (enforcePolicyBeforeRequest a) := by
  apply Fixes.bind Fixes.read
  intro s
  apply Fixes.bind (onEntry_override _)
  intro cycled
  cases cycled with
  | none => exact .pure _
  | some reason => exact .bind (invalidate_override _) fun _ => .raise _

theorem due_of_fixes {m : LeaseProcedure A} (standing : Fixes LeaseWorld.standing m)
    (own : Fixes override m) :
    Triple (Due o base) m (fun _ => Due o base) fun _ => Due o base := by
  have kept := (standing.prod own).keeps fun view =>
    view.2 = o ∧ view.1.baseRequestTimeout = base ∧ view.1.Posted
  apply kept.consequence
  · exact fun _ due => ⟨due.overrides, due.based, due.posted⟩
  · exact fun _ _ held => ⟨held.1, held.2.1, held.2.2⟩
  · exact fun _ _ held => ⟨held.1, held.2.1, held.2.2⟩

theorem onWorker_amid {m : WorkerProcedure A} (keeps : o = none → Fixes World.config m) :
    Triple (Amid o base) (onEntry (PoolEntry.onWorker m)) (fun _ => Amid o base)
      fun _ => Amid o base := by
  intro s amid
  apply focus_meets
  apply focus_meets
  have along : ∀ t : World, (o = none → t.config = s.entry.worker.config) →
      Amid o base ⟨s.entry.withWorker t.worker, s.lease, t.effects⟩ := by
    intro t same
    refine ⟨amid.overrides, amid.based, amid.asked, fun unset => ?_⟩
    exact (congrArg LeanWorkerConfig.requestTimeout (same unset)).trans (amid.inForce unset)
  show (m ⟨s.entry.worker, s.effects⟩).Meets _ _
  cases outcome : m ⟨s.entry.worker, s.effects⟩ with
  | waiting t => trivial
  | returned a t =>
    apply along
    intro unset
    have kept := keeps unset _ ⟨s.entry.worker, s.effects⟩ rfl
    rw [outcome] at kept
    exact kept
  | raised e t =>
    apply along
    intro unset
    have kept := keeps unset _ ⟨s.entry.worker, s.effects⟩ rfl
    rw [outcome] at kept
    exact kept

def LeaveConfig (command : SessionProcedure A) : Prop :=
  Fixes (fun s : LeanWorkerSession => s.world.config) command

theorem attached_config {command : SessionProcedure A} (leaves : LeaveConfig command)
    (unset : o = none) : Fixes World.config (attached o command) := by
  cases unset
  exact .bind (.pure _) fun _ => .focus (.mapError leaves) (fun _ => rfl) fun _ _ => rfl

theorem retried_amid (progress : Bool) (a : CommandAnswers) {again : SessionProcedure A}
    (leaves : LeaveConfig again) (first : Except LeanWorkerPoolError A) :
    Triple (Amid o base) (retried progress a again first) (fun _ => Amid o base)
      fun _ _ => False := by
  cases first with
  | ok value => exact Triple.pure fun _ amid => amid
  | error err =>
    apply Triple.bind (M := fun s t => s.lease.requestTimeoutOverride = o ∧ Amid o base t)
    · exact Triple.read fun _ amid => ⟨amid.overrides, amid⟩
    · rintro s t ⟨own, amid⟩
      split
      · rw [own]
        revert t
        apply Triple.capture
        apply onWorker_amid
        intro unset
        exact .bind (supervised_config (openWorkerSession_config _ _ _)) fun _ =>
          attached_config leaves unset
      · exact amid

theorem restoreTimeout_posts :
    Triple (Amid o base) restoreTimeout (fun _ s => s.standing.Posted) fun _ _ => False := by
  rintro s ⟨own, based, asked, inForce⟩
  cases o with
  | none =>
    have unset : s.lease.requestTimeoutOverride.isSome = false := by rw [own]; rfl
    unfold restoreTimeout
    simp only [bind_apply, read_apply, Outcome.andThen_returned, unset, Bool.false_eq_true,
      if_false]
    exact ⟨(inForce rfl).trans based.symm, asked⟩
  | some timeout =>
    have set : s.lease.requestTimeoutOverride.isSome = true := by rw [own]; rfl
    unfold restoreTimeout
    simp only [bind_apply, read_apply, Outcome.andThen_returned, set, if_true]
    exact ⟨rfl, asked⟩

theorem recorded_fixes (now : Instant) (result : Except LeanWorkerPoolError A) :
    Fixes LeaseWorld.standing (do
      onEntry (PoolEntry.modify fun entry => { entry with lastActivity := now })
      match result with
      | .ok value => pure value
      | .error err => do
        invalidateFor err
        raise err) := by
  refine Fixes.bind (onEntry_standing (modifyEntry_standing _ fun _ => rfl)) fun _ => ?_
  cases result with
  | ok value => exact .pure _
  | error err =>
    apply Fixes.bind _ fun _ => .raise _
    unfold invalidateFor
    cases invalidatedBy err with
    | none => exact .pure _
    | some reason => exact modify_standing _

theorem mapLifecycleResult_posts (now : Instant) (result : Except LeanWorkerPoolError A) :
    Triple (Amid o base) (mapLifecycleResult now result) (fun _ s => s.standing.Posted)
      fun _ s => s.standing.Posted := by
  apply Triple.bind (restoreTimeout_posts.consequence (fun _ amid => amid)
    (fun _ _ posted => posted) fun _ _ never => never.elim)
  intro _
  exact (recorded_fixes now result).keeps Standing.Posted

theorem counted_amid {B : Type} {first : Bool} (elapsed : Duration) {rest : LeaseProcedure B}
    {Q : B → LeaseWorld → Prop} {R : LeanWorkerPoolError → LeaseWorld → Prop}
    (next : Triple (Amid o base) rest Q R) : Triple (Amid o base) (do
      onEntry (PoolEntry.onWorker (supervised (recordCommandTiming first elapsed)))
      onEntry (PoolEntry.modify fun entry => { entry with
        commandsSinceOpen := saturatingAdd entry.commandsSinceOpen 1 })
      rest) Q R := by
  rintro s ⟨own, based, asked, inForce⟩
  exact next _ ⟨own, based, asked, inForce⟩

theorem runWithCurrentSession_due (progress : Bool) (a : CommandAnswers)
    {command again : SessionProcedure A} (leaves : LeaveConfig command)
    (leaves' : LeaveConfig again) :
    Triple (Due o base) (runWithCurrentSession progress a command again)
      (fun _ s => s.standing.Posted) fun _ s => s.standing.Posted := by
  have early {B : Type} {m : LeaseProcedure B} (standing : Fixes LeaseWorld.standing m)
      (own : Fixes override m) :
      Triple (Due o base) m (fun _ => Due o base) fun _ s => s.standing.Posted :=
    (due_of_fixes standing own).consequence (fun _ due => due) (fun _ _ due => due)
      fun _ _ due => due.posted
  apply Triple.bind (early ensureValid_standing ensureValid_override)
  intro _
  apply Triple.bind (early (enforcePolicyBeforeRequest_standing _)
    (enforcePolicyBeforeRequest_override _))
  intro _
  apply Triple.bind (M := fun s t => s.lease.requestTimeoutOverride = o ∧ Amid o base t)
  · exact Triple.read fun _ due => ⟨due.overrides, due.amid⟩
  rintro s t ⟨own, amid⟩
  rw [own]
  revert t
  apply Triple.bind (M := fun _ => Amid o base)
  · exact Triple.capture (onWorker_amid (attached_config leaves))
  intro first
  apply Triple.bind ((retried_amid progress a leaves' first).consequence (fun _ amid => amid)
    (fun _ _ amid => amid) fun _ _ never => never.elim)
  intro result
  exact counted_amid a.elapsed (mapLifecycleResult_posts a.now result)

theorem runWithCurrentSession_posts (progress : Bool) (a : CommandAnswers)
    {command again : SessionProcedure A} (leaves : LeaveConfig command)
    (leaves' : LeaveConfig again) :
    Triple (fun s => s.standing.Posted) (runWithCurrentSession progress a command again)
      (fun _ s => s.standing.Posted) fun _ s => s.standing.Posted :=
  fun s posted => runWithCurrentSession_due progress a leaves leaves' s ⟨rfl, rfl, posted⟩

/-- The command, but for a start under another timeout, from which it would not come back. -/
def begunUnder (timeout : Duration) (command : SessionProcedure A) : SessionProcedure A := fun s =>
  if s.world.worker.config.requestTimeout = timeout then command s else .waiting s

def inSession (command : SessionProcedure A) : WorkerProcedure A :=
  focus (fun world => ⟨world, true⟩) (fun _ session => session.world)
    (mapError .session command)

theorem inSession_begun {timeout : Duration} (command : SessionProcedure A) {w : World}
    (inForce : w.worker.config.requestTimeout = timeout) :
    inSession command w = inSession (begunUnder timeout command) w := by
  have begun : begunUnder timeout command ⟨w, true⟩ = command ⟨w, true⟩ := if_pos inForce
  unfold inSession focus mapError
  rw [begun]

theorem attached_begun {timeout : Duration} (command : SessionProcedure A) (w : World)
    (inForce : o = none → w.worker.config.requestTimeout = timeout)
    (set : ∀ own, o = some own → own = timeout) :
    attached o command w = attached o (begunUnder timeout command) w := by
  cases o with
  | none => exact inSession_begun command (inForce rfl)
  | some own => exact inSession_begun command (set own rfl)

theorem onWorker_congr {m m' : WorkerProcedure A} {s : LeaseWorld}
    (same : m ⟨s.entry.worker, s.effects⟩ = m' ⟨s.entry.worker, s.effects⟩) :
    onEntry (PoolEntry.onWorker m) s = onEntry (PoolEntry.onWorker m') s := by
  unfold onEntry PoolEntry.onWorker focus
  dsimp only [EntryWorld.world]
  rw [same]

theorem retried_begun (progress : Bool) (a : CommandAnswers) (again : SessionProcedure A)
    (first : Except LeanWorkerPoolError A) {s : LeaseWorld} (amid : Amid o base s) :
    retried progress a again first s =
      retried progress a (begunUnder (o.getD base) again) first s := by
  cases first with
  | ok value => rfl
  | error err =>
    unfold retried
    dsimp only
    rw [bind_apply, bind_apply, read_apply, Outcome.andThen_returned, Outcome.andThen_returned]
    split
    · rw [capture_apply, capture_apply]
      apply congrArg Outcome.captured
      apply onWorker_congr
      rw [amid.overrides]
      apply bind_congr_of (M := fun _ t => t.config = s.entry.worker.config)
      · apply (supervised_config (openWorkerSession_config _ _ _) _ ⟨s.entry.worker, s.effects⟩
          rfl).weaken
        · exact fun _ _ same => same
        · exact fun _ _ _ => trivial
      · intro _ t same
        apply attached_begun
        · rintro rfl
          exact (congrArg LeanWorkerConfig.requestTimeout same).trans (amid.inForce rfl)
        · rintro own rfl
          rfl
    · rfl

theorem runWithCurrentSession_begun (progress : Bool) (a : CommandAnswers)
    (command again : SessionProcedure A) (leaves : LeaveConfig command) {s : LeaseWorld}
    (due : Due o base s) :
    runWithCurrentSession progress a command again s =
      runWithCurrentSession progress a (begunUnder (o.getD base) command)
        (begunUnder (o.getD base) again) s := by
  apply bind_congr_of (M := fun _ => Due o base)
  · exact (due_of_fixes ensureValid_standing ensureValid_override s due).weaken
      (fun _ _ due => due) fun _ _ _ => trivial
  intro _ s due
  apply bind_congr_of (M := fun _ => Due o base)
  · exact (due_of_fixes (enforcePolicyBeforeRequest_standing _)
      (enforcePolicyBeforeRequest_override _) s due).weaken (fun _ _ due => due)
      fun _ _ _ => trivial
  intro _ s due
  have same : onEntry (PoolEntry.onWorker (attached o command)) s =
      onEntry (PoolEntry.onWorker (attached o (begunUnder (o.getD base) command))) s := by
    apply onWorker_congr
    apply attached_begun
    · rintro rfl
      exact due.amid.inForce rfl
    · rintro own rfl
      rfl
  rw [bind_apply, bind_apply, read_apply, Outcome.andThen_returned, Outcome.andThen_returned,
    due.overrides, bind_apply, bind_apply, capture_apply, capture_apply, ← same]
  have kept := onWorker_amid (attached_config leaves) s due.amid
  cases outcome : onEntry (PoolEntry.onWorker (attached o command)) s with
  | waiting t => rfl
  | returned value t =>
    rw [outcome] at kept
    rw [Outcome.captured_returned, Outcome.andThen_returned, Outcome.andThen_returned,
      bind_apply, bind_apply, retried_begun progress a again _ kept]
  | raised e t =>
    rw [outcome] at kept
    rw [Outcome.captured_raised, Outcome.andThen_returned, Outcome.andThen_returned,
      bind_apply, bind_apply, retried_begun progress a again _ kept]

theorem call_leaves_config (progress : Bool) (a : RunAnswers) (command : LeaseCommand) :
    LeaveConfig (command.call progress a).perform := by
  cases command with
  | runJsonCommand exportName requestJson decode =>
    apply runJsonCommand_fixes
    exact fun _ => fixes_config (roundTrip_config _ _ _ _ _ _)
  | runStreamingCommand exportName requestValue requestJson decodeRow decodeSummary diagnostics =>
    refine Fixes.bind ?_ fun _ => Fixes.pure _
    apply runStreamingCommand_fixes
    exact fun _ => fixes_config (workerRunDataStream_config _ _ _ _ _ _)
  | processModuleQueryBatch truncate source selectors budgets options =>
    have batch : Moves SameConfig (workerProcessModuleQueryBatch progress truncate source selectors
        budgets options a.request a.recover) :=
      degradable_config _ _ _ _ (roundTrip_config _ _ _ _ _ _)
    exact withSession_fixes (fixes_config (.bind batch fun _ => .pure _))

theorem perform_posts (op : LeaseOp) :
    Triple (fun s => s.standing.Posted) op.perform (fun _ s => s.standing.Posted)
      fun _ s => s.standing.Posted := by
  cases op with
  | cycle a => exact (cycle_standing a).keeps Standing.Posted
  | setRequestTimeout timeout => exact (setRequestTimeout_standing timeout).keeps Standing.Posted
  | run command progress a first second =>
    exact runWithCurrentSession_posts progress a (call_leaves_config progress first command)
      (call_leaves_config progress second command)

end LeanWorkerSessionLease

/-- Between the calls of a run the worker of every entry is under the timeout of the entry, and a
command of the lease that is out begins, both times if it is run twice, under the timeout that the
lease has set, or under that of the entry. -/
theorem timeout_override_stays_with_lease (config : LeanWorkerPoolConfig)
    {actions : List PoolAction} {s : PoolState}
    (reached : Runs.run PoolState.step (.new config) actions = some s) :
    (∀ entry ∈ s.pool.entries,
      entry.worker.config.requestTimeout = entry.baseRequestTimeout) ∧
    ∀ index lease entry, s.outstanding = some (index, lease) →
      s.pool.entries[index]? = some entry → ∀ command progress a first second,
      (LeaseOp.run command progress a first second).perform ⟨entry, lease, []⟩ =
        let timeout := lease.requestTimeoutOverride.getD entry.baseRequestTimeout
        LeanWorkerSessionLease.runWithCurrentSession progress a
          (LeanWorkerSessionLease.begunUnder timeout (command.call progress first).perform)
          (LeanWorkerSessionLease.begunUnder timeout (command.call progress second).perform)
          ⟨entry, lease, []⟩ := by
  have stand : s.Stand Standing.Posted := PoolState.run_stand
    LeanWorkerSessionLease.perform_posts
    (fun builder a _ => ⟨posted_renewable _, posted_fresh builder _ _⟩)
    (PoolState.new_stand config) reached
  obtain ⟨size, -, posted⟩ := stand
  constructor
  · intro entry member
    exact (posted _ (List.mem_map_of_mem member)).inForce
  · intro index lease entry out found command progress a first second
    have member := List.mem_map_of_mem (f := PoolEntry.standing) (List.mem_of_getElem? found)
    exact LeanWorkerSessionLease.runWithCurrentSession_begun progress a _ _
      (LeanWorkerSessionLease.call_leaves_config progress first command)
      ⟨rfl, rfl, posted _ member⟩

/-- A lease that sets a timeout of its own and then runs a command. -/
def overridden : List PoolAction :=
  [.acquire (.plain "a") .smooth, .lease (.setRequestTimeout 5),
    .lease (.run (.runJsonCommand "f" (.ok "1") fun _ => .ok ()) false
      ⟨.smooth, ⟨.smooth [], .smooth, 0⟩, 0, 0⟩
      ⟨.smooth [.smooth (.event (.frame (.response (.jsonCommand "2"))) 0)], .smooth⟩
      ⟨.smooth [], .smooth⟩)]

theorem timeout_override_stays_with_lease_set : ∃ s,
    Runs.run PoolState.step (.new {}) overridden = some s ∧
    s.outstanding.map (fun held => held.2.requestTimeoutOverride) = some (some 5) ∧
    ∀ entry ∈ s.pool.entries,
      entry.worker.config.requestTimeout = entry.baseRequestTimeout := by
  have ran : (Runs.run PoolState.step (.new {}) overridden).map (fun s =>
      s.outstanding.map fun held => held.2.requestTimeoutOverride) = some (some (some 5)) := by
    decide +kernel
  obtain ⟨s, reached, own⟩ := Option.map_eq_some_iff.mp ran
  exact ⟨s, reached, own, (timeout_override_stays_with_lease {} reached).1⟩

end LeanRs
