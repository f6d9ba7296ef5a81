import LeanRs.Worker.Turns

/-! The deadline of a request, at the head of every turn of the read loop. -/
namespace LeanRs

open Procedures Procedure Supervisor

def Effect.punctual : Effect → Prop
  | .deliver _ => False
  | .receive bound => bound.isSome
  | _ => True

theorem Effect.punctual_of_ofStop (e : Effect) (stop : e.ofStop = true) : e.punctual := by
  cases e with
  | deliver event => cases stop
  | receive bound => cases stop
  | _ => trivial

variable (c : RequestContext) (waits : Nat) (a : TurnAnswers)

theorem timeoutExit_punctual : Moves (Appends Effect.punctual) (timeoutExit c waits a) := by
  refine .bind (.choose (fun _ => modify_appends _) fun _ => .pure _) fun _ =>
    .bind (.capture (restartWithReason_appends Effect.punctual_of_ofStop trivial _ trivial _))
    fun result => ?_
  cases result with
  | error err => exact .bind (modify_appends _) fun _ => .raise _
  | ok _ => exact .bind (modify_appends _) fun _ => .bind worker_appends fun _ => .raise _

/-- The turn is the timeout exit, taken after the sample of the memory watch, and nothing has been
delivered or waited for without a bound. -/
def TakesTimeoutExit (s : World) : Prop :=
  (∃ sampled, hardRssLimitExceeded a.rss s = .returned none sampled ∧
    readTurn c waits a s = timeoutExit c waits a sampled) ∧
  Appends Effect.punctual s (readTurn c waits a s).state

/-- The turn meets the deadline: when its clock is read at or past the deadline, it takes the
timeout exit. A turn that the memory watch ends reads no clock. -/
def TurnMeetsDeadline (deadline : Instant) (s : World) : Prop :=
  ∀ sampled, hardRssLimitExceeded a.rss s = .returned none sampled → deadline ≤ a.now →
    TakesTimeoutExit c waits a s

def MeetsDeadline (deadline : Instant) : Nat → List TurnAnswers → World → Prop
  | _, [], _ => True
  | waits, a :: rest, s => TurnMeetsDeadline c waits a deadline s ∧
      ∀ waits' t, readTurn c waits a s = .returned (.again waits') t →
        MeetsDeadline deadline waits' rest t

def RequestContext.overruns (c : RequestContext) (config : LeanWorkerConfig)
    (deadline : Instant) : List TurnAnswers → Bool
  | [] => false
  | a :: rest =>
    (!turnFate.hardLimitHit config a.rss && decide (deadline < a.now)) ||
      (decide (c.turnFate config a = .again) && overruns c config deadline rest)

variable {config : LeanWorkerConfig} {c waits a}

variable {deadline : Instant}

theorem remaining_at (finite : c.deadline = some deadline) (at' : a.now = deadline) :
    c.remaining a.now = some 0 := by
  simp [RequestContext.remaining, finite, Instant.checkedDurationSince, at']

theorem remaining_past (finite : c.deadline = some deadline) (past : deadline < a.now) :
    c.remaining a.now = none := by
  simp [RequestContext.remaining, finite, Instant.checkedDurationSince, past]

theorem readTurn_past (finite : c.deadline = some deadline) (past : deadline < a.now)
    (s sampled : World) (below : hardRssLimitExceeded a.rss s = .returned none sampled)
    (same : sampled.effects = s.effects) :
    ∃ new, (readTurn c waits a s).state.effects = s.effects ++ .receive none :: new := by
  have onwards : ∀ reception : Reception, Moves (Appends fun _ => True)
      (handleReception c waits a reception) := by
    intro reception
    cases reception with
    | event event => exact handleEvent_moves c waits a event
    | sampleAgain => exact .pure _
    | timedOut => exact replaceAndFail_moves c waits a _ _
    | disconnected => exact .bind finish_moves fun _ => .raise _
  have extends' : ∀ reception : Reception, ∃ new, (handleReception c waits a reception
      { sampled with effects := sampled.effects ++ [.receive none] }).state.effects =
        s.effects ++ .receive none :: new := by
    intro reception
    obtain ⟨new, joined, _⟩ := onwards reception
      { sampled with effects := sampled.effects ++ [.receive none] }
    exact ⟨new, by rw [joined, same]; simp⟩
  simp only [readTurn, bind_apply, below, Outcome.andThen_returned]
  cases received : a.received with
  | nothing => exact ⟨[], by simp [receiveEvent, remaining_past finite past, received, same]⟩
  | disconnected =>
    obtain ⟨new, joined⟩ := extends' .disconnected
    exact ⟨new, by simpa [receiveEvent, remaining_past finite past, received] using joined⟩
  | event frame backpressure =>
    obtain ⟨new, joined⟩ :=
      extends' (.event (readerEvent c.generation (some c.requestId) backpressure frame))
    exact ⟨new, by simpa [receiveEvent, remaining_past finite past, received] using joined⟩

theorem turnMeetsDeadline_iff (finite : c.deadline = some deadline) (s : World)
    (inLoop : s.worker.InLoop c config) :
    TurnMeetsDeadline c waits a deadline s ↔
      (!RequestContext.turnFate.hardLimitHit config a.rss &&
        decide (deadline < a.now)) = false := by
  obtain ⟨exceeded, sampled, sampledBy, inLoop', same, _, hit⟩ :=
    hardRssLimitExceeded_inLoop a.rss s inLoop
  cases exceeded with
  | some pair =>
    simp only [← hit, Option.isSome_some, Bool.not_true, Bool.false_and, iff_true]
    intro t below
    rw [sampledBy] at below
    cases below
  | none =>
    simp only [← hit, Option.isSome_none, Bool.not_false, Bool.true_and, decide_eq_false_iff_not]
    constructor
    · intro meets past
      obtain ⟨_, new, joined, quiet⟩ := meets sampled sampledBy (Nat.le_of_lt past)
      obtain ⟨new', joined'⟩ :=
        @readTurn_past c waits a deadline finite past s sampled sampledBy same
      rw [joined] at joined'
      have unbounded : Effect.receive none ∈ new := by
        rw [List.append_cancel_left joined']; exact List.mem_cons_self
      exact absurd (quiet _ unbounded) (by simp [Effect.punctual])
    · intro notPast t below reached
      have now : a.now = deadline := Nat.le_antisymm (Nat.not_lt.mp notPast) reached
      have exits : readTurn c waits a s = timeoutExit c waits a sampled := by
        simp [readTurn, sampledBy, receiveEvent, remaining_at finite now, handleReception]
      refine ⟨⟨sampled, sampledBy, exits⟩, ?_⟩
      rw [exits]
      have quiet := timeoutExit_punctual c waits a sampled
      unfold Appends at quiet ⊢
      rwa [same] at quiet

theorem meetsDeadline_iff (finite : c.deadline = some deadline) (turns : List TurnAnswers)
    (s : World) (inLoop : s.worker.InLoop c config) :
    MeetsDeadline c deadline waits turns s ↔ c.overruns config deadline turns = false := by
  induction turns generalizing waits s with
  | nil => simp [MeetsDeadline, RequestContext.overruns]
  | cons a rest ih =>
    rw [MeetsDeadline, RequestContext.overruns, Bool.or_eq_false_iff,
      turnMeetsDeadline_iff finite s inLoop]
    refine and_congr_right fun _ => ?_
    have turn := @readTurn_looping c config waits a s inLoop
    constructor
    · intro onwards
      by_cases goesOn : c.turnFate config a = .again
      · obtain ⟨waits', t, continued, _⟩ := readTurn_again goesOn s inLoop
        rw [continued] at turn
        simpa [goesOn] using (ih t turn.2).mp (onwards waits' t continued)
      · simp [goesOn]
    · intro later waits' t continued
      rw [continued] at turn
      obtain ⟨goesOn, inLoop'⟩ := turn
      exact (ih t inLoop').mpr (by simpa [goesOn] using later)

/-- A request with a finite timeout, on a worker that accepts it: every turn of its read loop
meets the deadline exactly when no turn that it comes to, and that the memory watch lets through,
reads its clock after the deadline. -/
theorem readResponseWithEvents_meetsDeadline_iff (w : LeanWorker) (ready : w.Ready)
    (effects : List Effect) (operation : String) (sinks : Sinks) (started deadline : Instant)
    (finite : Instant.checkedAdd started w.config.requestTimeout = some deadline)
    (turns : List TurnAnswers) :
    MeetsDeadline (w.requestContext operation sinks started) deadline 0 turns
        ⟨LeanWorker.beginInFlight { w with stdout := false } operation, effects⟩ ↔
      (w.requestContext operation sinks started).overruns w.config deadline turns = false :=
  meetsDeadline_iff finite turns _
    ⟨⟨ready.child, ready.lastExit, ready.stdin⟩, rfl, rfl, rfl, _, rfl, .inl rfl⟩

def LeanWorker.hasty : LeanWorker :=
  .fresh { executable := ⟨[]⟩, requestTimeout := 10 } 1 true 0 0

def TurnAnswers.diagnosticAt (now : Instant) : TurnAnswers :=
  { smooth (.event (.frame (.diagnostic ⟨"code", "message"⟩)) 0) with now := now }

theorem hasty_meetsDeadline :
    MeetsDeadline (LeanWorker.hasty.requestContext "health" { diagnostics := true } 0) 10 0
      [.diagnosticAt 9, .diagnosticAt 10]
      ⟨LeanWorker.beginInFlight { LeanWorker.hasty with stdout := false } "health", []⟩ :=
  (readResponseWithEvents_meetsDeadline_iff .hasty ⟨⟨rfl, rfl, rfl⟩, rfl, rfl⟩ [] "health"
    { diagnostics := true } 0 10 (by decide) _).mpr (by decide)

/-- A clock read one nanosecond late: the turn waits without a bound and delivers what comes. -/
theorem late_turn_waits_without_bound :
    ¬MeetsDeadline (LeanWorker.hasty.requestContext "health" { diagnostics := true } 0) 10 0
      [.diagnosticAt 11]
      ⟨LeanWorker.beginInFlight { LeanWorker.hasty with stdout := false } "health", []⟩ ∧
    (readTurn (LeanWorker.hasty.requestContext "health" { diagnostics := true } 0) 0
      (.diagnosticAt 11)
      ⟨LeanWorker.beginInFlight { LeanWorker.hasty with stdout := false } "health",
        []⟩).state.effects =
      [.receive none, .deliver (.diagnostic ⟨"code", "message"⟩)] := by
  refine ⟨?_, rfl⟩
  rw [@meetsDeadline_iff _ 0 LeanWorker.hasty.config 10 rfl _ _
    ⟨⟨rfl, rfl, rfl⟩, rfl, rfl, rfl, _, rfl, .inl rfl⟩]
  decide

end LeanRs
