import LeanRs.Worker.Stopping

/-! What a stop comes to, read off the answers it gets: the child is reaped, or the stop
escalates to a kill, or the stop is abandoned with the child still there. -/
namespace LeanRs

open Procedures Procedure Supervisor

/-- The first poll that finds anything decides. -/
def pollVerdict (last : TryWait) : List TryWait → TryWait
  | [] => last
  | .running :: rest => pollVerdict last rest
  | poll :: _ => poll

def ExitPolls.verdict (polls : ExitPolls) : TryWait := pollVerdict polls.last polls.early

inductive StopVerdict where
  | reaped
  | escalated
  | abandoned
  deriving DecidableEq

/-- A poll that finds the child running leaves the decision to what follows. -/
def TryWait.decide (poll : TryWait) (otherwise : StopVerdict) : StopVerdict :=
  match poll with
  | .failed _ => .abandoned
  | .exited _ _ => .reaped
  | .running => otherwise

namespace ShutdownAnswers

variable (a : ShutdownAnswers)

def graceVerdict : List (TryWait × GraceEvent) → StopVerdict
  | [] => a.graceLast.decide .escalated
  | (poll, event) :: rest => poll.decide <|
    match event with
    | .terminal .terminating | .readError true => a.exitWait.verdict.decide .escalated
    | .message | .timeout => graceVerdict rest
    | .terminal _ | .readError false | .disconnected => .escalated

/-- `stdout` says whether the supervisor holds the output pipe when the stop begins. -/
def verdict (intent : ShutdownIntent) (stdout : Bool) : StopVerdict :=
  a.status.decide <|
    match intent, a.write with
    | .graceful, .written => if stdout then a.graceVerdict a.grace else .abandoned
    | .graceful, _ | .killOnly, _ => .escalated

/-- An escalated stop ends well when the kill is asked for and the child is seen to exit. -/
def killReaps : Bool :=
  match a.kill, a.killWait.verdict with
  | .asked, .exited _ _ => true
  | _, _ => false

def reaps (intent : ShutdownIntent) (stdout : Bool) : Bool :=
  match a.verdict intent stdout with
  | .reaped => true
  | .escalated => a.killReaps
  | .abandoned => false

def carries : StopVerdict → Bool
  | .reaped => true
  | .escalated => a.killReaps
  | .abandoned => false

theorem ne_abandoned_of_carries {verdict : StopVerdict} (carried : a.carries verdict = true) :
    verdict ≠ .abandoned := by
  rintro rfl
  cases carried

end ShutdownAnswers

def Killed (effects : List Effect) : Prop := ∃ answer, .kill answer ∈ effects

def Reaped (effects : List Effect) : Prop :=
  ∃ exitStatus stderr, .tryWait (.exited exitStatus stderr) ∈ effects

/-- The failures of the operating system that a stop reports. -/
def LeanWorkerError.ofSystem : LeanWorkerError → Bool
  | .wait _ | .kill _ | .waitTimeout _ _ => true
  | _ => false

theorem Killed.append {effects : List Effect} (killed : Killed effects) (e : Effect) :
    Killed (effects ++ [e]) := by
  obtain ⟨answer, member⟩ := killed
  exact ⟨answer, List.mem_append_left _ member⟩

/-- A fact about the history that polls and the `Terminate` frame leave alone. -/
structure BeforeKill (H : List Effect → Prop) : Prop where
  polled : ∀ effects answer, H effects → H (effects ++ [.tryWait answer])
  wrote : ∀ effects answer, H effects → H (effects ++ [.write .terminate answer])

theorem not_killed_append {effects : List Effect} (unkilled : ¬Killed effects) (e : Effect)
    (quiet : ∀ answer, e ≠ .kill answer) : ¬Killed (effects ++ [e]) := by
  rintro ⟨kill, member⟩
  rcases List.mem_append.mp member with member | member
  · exact unkilled ⟨kill, member⟩
  · exact quiet kill (List.mem_singleton.mp member).symm

theorem beforeKill_unkilled : BeforeKill fun effects => ¬Killed effects where
  polled _ answer unkilled := not_killed_append unkilled (.tryWait answer) fun _ => nofun
  wrote _ answer unkilled := not_killed_append unkilled (.write .terminate answer) fun _ => nofun

theorem beforeKill_true : BeforeKill fun _ => True := ⟨fun _ _ h => h, fun _ _ h => h⟩

theorem reaped_append (effects : List Effect) (exitStatus : ExitStatus) (stderr : String) :
    Reaped (effects ++ [.tryWait (.exited exitStatus stderr)]) :=
  ⟨exitStatus, stderr, List.mem_append_right _ (List.mem_singleton.mpr rfl)⟩

def StopReaped (exit : LeanWorkerExit) (s : World) : Prop :=
  s.worker.Gone ∧ s.worker.lastExit = some exit ∧ Reaped s.effects

section Polls

variable {H : List Effect → Prop} (polled : ∀ effects answer, H effects →
  H (effects ++ [.tryWait answer]))

include polled

theorem pollExit_history (answer : TryWait) :
    Triple (fun s => s.worker.Owned ∧ H s.effects) (pollExit answer)
      (fun found s => match found with
        | some exit => StopReaped exit s ∧ ∃ exitStatus stderr, answer = .exited exitStatus stderr
        | none => (s.worker.Owned ∧ H s.effects) ∧ answer = .running)
      (fun e s => H s.effects ∧ ∃ source, answer = .failed source ∧ e = .wait source) := by
  intro s held
  rw [pollExit_owned answer s held.1]
  cases answer with
  | failed source => exact ⟨polled _ _ held.2, source, rfl, rfl⟩
  | running => exact ⟨⟨held.1.reaping.toOwned, polled _ _ held.2⟩, rfl⟩
  | exited exitStatus stderr =>
    exact ⟨⟨LeanWorker.gone_reaped _ _ _ _, rfl, reaped_append _ _ _⟩, exitStatus, stderr, rfl⟩

theorem waitForExitPolls_history (operation : String) (timeout : Duration) (last : TryWait)
    (elapsed : Duration) (early : List TryWait) :
    Triple (fun s => s.worker.Owned ∧ H s.effects)
      (waitForExitPolls operation timeout last elapsed early)
      (fun found s => StopReaped found.1 s ∧
        ∃ exitStatus stderr, pollVerdict last early = .exited exitStatus stderr)
      (fun e s => H s.effects ∧
        ((∃ source, pollVerdict last early = .failed source ∧ e = .wait source) ∨
          ((s.worker.Owned ∧ pollVerdict last early = .running) ∧
            e = .waitTimeout operation timeout))) := by
  induction early with
  | nil =>
    refine Triple.bind ((pollExit_history polled last).consequence (fun _ h => h) (fun _ _ h => h)
      (fun _ _ h => ⟨h.1, .inl h.2⟩)) fun found => ?_
    cases found with
    | some exit => exact Triple.pure fun s reaped => reaped
    | none => exact Triple.raise fun s held => ⟨held.1.2, .inr ⟨⟨held.1.1, held.2⟩, rfl⟩⟩
  | cons poll rest ih =>
    refine Triple.bind ((pollExit_history polled poll).consequence (fun _ h => h) (fun _ _ h => h)
      (fun _ _ h => ⟨h.1, .inl ?_⟩)) fun found => ?_
    · obtain ⟨source, rfl, same⟩ := h.2
      exact ⟨source, rfl, same⟩
    · cases found with
      | some exit =>
        refine Triple.pure fun s reaped => ?_
        obtain ⟨reaped, exitStatus, stderr, rfl⟩ := reaped
        exact ⟨reaped, exitStatus, stderr, rfl⟩
      | none =>
        intro s held
        obtain ⟨start, rfl⟩ := held
        exact ih s start

end Polls

/-- How a stop fails, by its verdict. Only a graceful stop without the output pipe fails with
an error that is not the operating system's. -/
def StopFailed (H : List Effect → Prop) (a : ShutdownAnswers) (verdict : StopVerdict)
    (piped : Prop) (e : LeanWorkerError) (s : World) : Prop :=
  match verdict with
  | .reaped => False
  | .escalated => e.ofSystem ∧ Killed s.effects ∧ a.killReaps = false
  | .abandoned => H s.effects ∧ (piped → e.ofSystem)

variable {H : List Effect → Prop} (a : ShutdownAnswers) (gracefulTimeout : Duration)

theorem killThenWait_verdict (build : LeanWorkerExit × Duration → LeanWorkerShutdownReport)
    (exits : ∀ found, (build found).exit = found.1) (piped : Prop) :
    Triple (fun s => s.worker.Owned)
      (killChild a.kill >>= fun _ =>
        waitForExitBounded "kill_wait" killWaitTimeout a.killWait >>= fun found =>
        pure (build found))
      (fun report s => StopReaped report.exit s ∧ a.carries .escalated = true)
      (StopFailed H a .escalated piped) := by
  refine Triple.bind (M := fun _ s => (s.worker.Owned ∧ Killed s.effects) ∧ a.kill = .asked) ?_
    fun _ s held => ?_
  · intro s owned
    have killed : Killed (s.effects ++ [.kill a.kill]) :=
      ⟨a.kill, List.mem_append_right _ (List.mem_singleton.mpr rfl)⟩
    cases answer : a.kill with
    | failed source =>
      rw [answer] at killed
      simp [killChild, owned.child, StopFailed, LeanWorkerError.ofSystem, killed,
        ShutdownAnswers.killReaps, answer]
    | asked =>
      rw [answer] at killed
      simpa [killChild, owned.child, killed] using owned
  · obtain ⟨start, asked⟩ := held
    refine Triple.bind ((waitForExitPolls_history
      (H := Killed) (fun _ _ killed => killed.append _) "kill_wait" killWaitTimeout
      a.killWait.last a.killWait.elapsed a.killWait.early).consequence (fun _ h => h)
      (fun _ _ h => h) (fun e t h => ?_)) (fun found => Triple.pure fun t reaped => ?_) s start
    · refine ⟨?_, h.1, ?_⟩
      · rcases h.2 with ⟨source, _, rfl⟩ | ⟨_, rfl⟩ <;> rfl
      · rcases h.2 with ⟨source, verdict, _⟩ | ⟨⟨_, verdict⟩, _⟩ <;>
          simp [ShutdownAnswers.killReaps, asked, ExitPolls.verdict, verdict]
    · obtain ⟨reaped, exitStatus, stderr, verdict⟩ := reaped
      refine ⟨by rw [exits]; exact reaped, ?_⟩
      simp [ShutdownAnswers.carries, ShutdownAnswers.killReaps, asked, ExitPolls.verdict, verdict]

theorem killAndReport_verdict (outcome : LeanWorkerShutdownOutcome) (piped : Prop) :
    Triple (fun s => s.worker.Owned) (killAndReport a gracefulTimeout outcome)
      (fun report s => StopReaped report.exit s ∧ a.carries .escalated = true)
      (StopFailed H a .escalated piped) :=
  Triple.bind (M := fun _ s => s.worker.Owned)
    (Triple.update fun _ owned => ⟨owned.child, owned.lastExit, owned.stdin⟩) fun _ =>
    killThenWait_verdict a _ (fun _ => rfl) piped

/-- How a part of a stop ends when its verdict is `verdict`. -/
abbrev StopEnds (H : List Effect → Prop) (a : ShutdownAnswers) (verdict : StopVerdict)
    (piped : Prop) (m : Supervisor LeanWorkerShutdownReport) : Prop :=
  Triple (fun s => s.worker.Owned ∧ H s.effects) m
    (fun report s => StopReaped report.exit s ∧ a.carries verdict = true)
    (StopFailed H a verdict piped)

theorem StopEnds.ofKill {a : ShutdownAnswers} {piped : Prop}
    {m : Supervisor LeanWorkerShutdownReport}
    (kill : Triple (fun s => s.worker.Owned) m
      (fun report s => StopReaped report.exit s ∧ a.carries .escalated = true)
      (StopFailed H a .escalated piped)) : StopEnds H a .escalated piped m :=
  kill.consequence (fun _ h => h.1) (fun _ _ h => h) (fun _ _ h => h)

theorem writeTerminate_owned (answer : WriteAnswer) (s : World) (owned : s.worker.Owned) :
    writeRequest .terminate answer s =
      match answer with
      | .written => .returned () { s with effects := s.effects ++ [.write .terminate answer] }
      | .tooLarge text | .broken text => .raised (.protocol (.frame text))
          { s with effects := s.effects ++ [.write .terminate answer] } := by
  cases answer <;> simp [writeRequest, owned.stdin]

section Verdicts

variable (before : BeforeKill H)
include before

theorem waitForTerminating_verdict (piped : Prop) :
    StopEnds H a (a.exitWait.verdict.decide .escalated) piped
      (waitForTerminating a gracefulTimeout) := by
  refine Triple.bind (M := fun found s => match found with
      | .ok (exit, _) => StopReaped exit s ∧
          ∃ exitStatus stderr, a.exitWait.verdict = .exited exitStatus stderr
      | .error e => H s.effects ∧
          ((∃ source, a.exitWait.verdict = .failed source ∧ e = .wait source) ∨
            ((s.worker.Owned ∧ a.exitWait.verdict = .running) ∧
              e = .waitTimeout "shutdown" (gracefulTimeout - a.graceElapsed))))
    (Triple.capture (waitForExitPolls_history before.polled "shutdown"
      (gracefulTimeout - a.graceElapsed) a.exitWait.last a.exitWait.elapsed a.exitWait.early))
    fun found s held => ?_
  cases found with
  | ok found =>
    obtain ⟨reaped, exitStatus, stderr, verdict⟩ := held
    exact ⟨reaped, by rw [verdict]; rfl⟩
  | error err =>
    obtain ⟨history, ⟨source, verdict, rfl⟩ | ⟨⟨owned, verdict⟩, rfl⟩⟩ := held
    · rw [verdict]
      exact ⟨history, fun _ => rfl⟩
    · rw [verdict]
      exact StopEnds.ofKill (killAndReport_verdict a gracefulTimeout _ piped) s ⟨owned, history⟩

theorem gracePoll_verdict (answer : TryWait) (otherwise : StopVerdict) (piped : Prop) :
    Triple (fun s => s.worker.Owned ∧ H s.effects) (gracePoll answer)
      (fun found s => match found with
        | some exit => StopReaped exit s ∧ a.carries (answer.decide otherwise) = true
        | none => (s.worker.Owned ∧ H s.effects) ∧ answer = .running)
      (StopFailed H a (answer.decide otherwise) piped) := by
  intro s held
  have polled := before.polled _ answer held.2
  cases answer with
  | failed source =>
    simpa [gracePoll, held.1.child] using ⟨polled, fun _ => rfl⟩
  | running => simpa [gracePoll, held.1.child, polled] using held.1
  | exited exitStatus stderr =>
    simpa [gracePoll, held.1.child, finalizeChildExit, TryWait.decide, ShutdownAnswers.carries]
      using ⟨LeanWorker.gone_reaped _ _ _ _, rfl, reaped_append _ _ _⟩

theorem graceLoop_verdict (piped : Prop) (turns : List (TryWait × GraceEvent)) :
    StopEnds H a (a.graceVerdict turns) piped (graceLoop a gracefulTimeout turns) := by
  have kill : StopEnds H a .escalated piped
      (killAndReport a gracefulTimeout .gracefulProtocolFailedKilled) :=
    .ofKill (killAndReport_verdict a gracefulTimeout _ piped)
  have restored : ∀ verdict (m : Supervisor LeanWorkerShutdownReport),
      StopEnds H a verdict piped m →
        StopEnds H a verdict piped
          (modify (fun w => { w with stdout := true }) >>= fun _ => m) :=
    fun verdict m body => Triple.bind (M := fun _ s => s.worker.Owned ∧ H s.effects)
      (Triple.update fun _ held => ⟨⟨held.1.child, held.1.lastExit, held.1.stdin⟩, held.2⟩)
      fun _ => body
  induction turns with
  | nil =>
    refine Triple.bind (gracePoll_verdict a before a.graceLast .escalated piped) fun found => ?_
    cases found with
    | some exit => exact Triple.pure fun s reaped => reaped
    | none =>
      intro s held
      have running : a.graceVerdict [] = .escalated := by
        rw [ShutdownAnswers.graceVerdict, held.2]; rfl
      rw [running]
      exact StopEnds.ofKill (killThenWait_verdict a _ (fun _ => rfl) piped) s held.1
  | cons turn rest ih =>
    obtain ⟨poll, event⟩ := turn
    refine Triple.bind (gracePoll_verdict a before poll _ piped) fun found => ?_
    cases found with
    | some exit => exact Triple.pure fun s reaped => reaped
    | none =>
      intro s held
      obtain ⟨start, rfl⟩ := held
      cases event with
      | message => exact ih s start
      | timeout => exact ih s start
      | disconnected => exact kill s start
      | readError eof =>
        cases eof with
        | false => exact kill s start
        | true => exact waitForTerminating_verdict a gracefulTimeout before piped s start
      | terminal response =>
        cases response with
        | terminating =>
          exact restored _ _ (waitForTerminating_verdict a gracefulTimeout before piped) s start
        | _ => exact restored _ _ kill s start

theorem stopRunning_verdict (intent : ShutdownIntent) (s : World)
    (start : s.worker.Owned ∧ H s.effects)
    (running : a.status = .running) :
    (stopRunning a intent gracefulTimeout s).Meets
      (fun report t => StopReaped report.exit t ∧
        a.carries (a.verdict intent s.worker.stdout) = true)
      (StopFailed H a (a.verdict intent s.worker.stdout)
        (intent = .killOnly ∨ s.worker.stdout = true)) := by
  have kill := fun outcome => StopEnds.ofKill (H := H)
    (killAndReport_verdict a gracefulTimeout outcome
      (intent = .killOnly ∨ s.worker.stdout = true))
  cases intent with
  | killOnly =>
    have verdict : a.verdict .killOnly s.worker.stdout = .escalated := by
      simp [ShutdownAnswers.verdict, running, TryWait.decide]
    rw [verdict]
    exact kill _ _ ⟨⟨start.1.child, start.1.lastExit, start.1.stdin⟩, start.2⟩
  | graceful =>
    have owned : ({ s.worker with state := .stopping s.worker.generation } : LeanWorker).Owned :=
      ⟨start.1.child, start.1.lastExit, start.1.stdin⟩
    have wrote := writeTerminate_owned a.write
      ⟨{ s.worker with state := .stopping s.worker.generation }, s.effects⟩ owned
    simp only [stopRunning, bind_apply, modify_apply, capture_apply, Outcome.andThen_returned,
      wrote]
    have history := before.wrote _ a.write start.2
    cases written : a.write with
    | written =>
      rw [written] at history
      simp only [Outcome.captured_returned, Outcome.andThen_returned, waitForGracefulShutdown,
        bind_apply, worker_apply]
      cases held : s.worker.stdout with
      | true =>
        have verdict : a.verdict .graceful true = a.graceVerdict a.grace := by
          simp [ShutdownAnswers.verdict, running, written, TryWait.decide]
        rw [verdict]
        exact graceLoop_verdict a gracefulTimeout before _ a.grace _
          ⟨⟨owned.child, owned.lastExit, owned.stdin⟩, history⟩
      | false =>
        have verdict : a.verdict .graceful false = .abandoned := by
          simp [ShutdownAnswers.verdict, running, written, TryWait.decide]
        rw [verdict]
        exact ⟨history, by simp⟩
    | tooLarge text =>
      rw [written] at history
      have verdict : a.verdict .graceful s.worker.stdout = .escalated := by
        simp [ShutdownAnswers.verdict, running, written, TryWait.decide]
      rw [verdict]
      exact kill _ _ ⟨owned, history⟩
    | broken text =>
      rw [written] at history
      have verdict : a.verdict .graceful s.worker.stdout = .escalated := by
        simp [ShutdownAnswers.verdict, running, written, TryWait.decide]
      rw [verdict]
      exact kill _ _ ⟨owned, history⟩

theorem shutdownChild_verdict (intent : ShutdownIntent) (s : World)
    (start : s.worker.Owned ∧ H s.effects) :
    (shutdownChild a intent s).Meets
      (fun report t => StopReaped report.exit t ∧
        a.carries (a.verdict intent s.worker.stdout) = true)
      (StopFailed H a (a.verdict intent s.worker.stdout)
        (intent = .killOnly ∨ s.worker.stdout = true)) := by
  simp only [shutdownChild, bind_apply, worker_apply, Outcome.andThen_returned,
    status_owned a.status s start.1]
  have history := before.polled _ a.status start.2
  cases polled : a.status with
  | failed source =>
    rw [polled] at history
    have verdict : a.verdict intent s.worker.stdout = .abandoned := by
      simp [ShutdownAnswers.verdict, polled, TryWait.decide]
    rw [verdict]
    exact ⟨history, fun _ => rfl⟩
  | exited exitStatus stderr =>
    have verdict : a.verdict intent s.worker.stdout = .reaped := by
      simp [ShutdownAnswers.verdict, polled, TryWait.decide]
    rw [verdict]
    exact ⟨⟨LeanWorker.gone_reaped _ _ _ _, rfl, reaped_append _ _ _⟩, rfl⟩
  | running =>
    rw [polled] at history
    exact stopRunning_verdict a _ before intent _ ⟨start.1, history⟩ polled

end Verdicts

theorem LeanWorkerError.saysNotRunning_of_ofSystem {e : LeanWorkerError} (system : e.ofSystem) :
    e.saysNotRunning = false := by
  cases e <;> first | rfl | cases system

theorem shutdownChild_fails (intent : ShutdownIntent) (s : World) (formed : s.worker.WellFormed) :
    (shutdownChild a intent s).Meets (fun _ _ => True)
      (fun e _ => s.worker.Owned ∧ a.reaps intent s.worker.stdout = false ∧
        (intent = .killOnly ∨ s.worker.stdout = true → e.ofSystem)) := by
  rcases formed with owned | gone
  · refine (shutdownChild_verdict a beforeKill_true intent s ⟨owned, trivial⟩).weaken
      (fun _ _ _ => trivial) fun e t failed => ⟨owned, ?_⟩
    cases verdict : a.verdict intent s.worker.stdout <;> rw [verdict] at failed
    · exact failed.elim
    · exact ⟨by simp [ShutdownAnswers.reaps, verdict, failed.2.2], fun _ => failed.1⟩
    · exact ⟨by simp [ShutdownAnswers.reaps, verdict], failed.2⟩
  · obtain ⟨exit, _, _, polled⟩ := status_gone a.status s gone
    simp [shutdownChild, polled]

theorem status_ends (answer : TryWait) : Ends (status answer) := by
  refine .bind (fun _ => rfl) fun w => ?_
  split
  · exact .bind (.update _) fun _ => .pure _
  · split
    · exact .bind (.update _) fun _ => .pure _
    · refine .bind (.update _) fun _ => ?_
      cases answer
      · exact .raise _
      · exact .pure _
      · exact .bind (.update _) fun _ => .pure _

theorem finalizeChildExit_ends (exitStatus : ExitStatus) (stderr : String) :
    Ends (finalizeChildExit exitStatus stderr) :=
  .bind (fun _ => rfl) fun _ => .bind (.update _) fun _ => .pure _

theorem pollExit_ends (answer : TryWait) : Ends (pollExit answer) := by
  refine .bind (fun _ => rfl) fun w => ?_
  split
  · exact .raise _
  · refine .bind (.update _) fun _ => .bind (.update _) fun _ => ?_
    cases answer
    · exact .raise _
    · exact .pure _
    · exact .bind (finalizeChildExit_ends _ _) fun _ => .pure _

theorem waitForExitPolls_ends (operation : String) (timeout : Duration) (last : TryWait)
    (elapsed : Duration) (early : List TryWait) :
    Ends (waitForExitPolls operation timeout last elapsed early) := by
  induction early with
  | nil =>
    refine .bind (pollExit_ends last) fun found => ?_
    cases found
    · exact .raise _
    · exact .pure _
  | cons poll rest ih =>
    refine .bind (pollExit_ends poll) fun found => ?_
    cases found
    · exact ih
    · exact .pure _

theorem killChild_ends (answer : KillAnswer) : Ends (killChild answer) := by
  refine .bind (fun _ => rfl) fun w => .choose (fun _ => .bind (.update _) fun _ => ?_)
    fun _ => .pure _
  cases answer
  · exact .raise _
  · exact .pure _

theorem killAndReport_ends (outcome : LeanWorkerShutdownOutcome) :
    Ends (killAndReport a gracefulTimeout outcome) :=
  .bind (.update _) fun _ => .bind (killChild_ends _) fun _ =>
    .bind (waitForExitPolls_ends _ _ _ _ _) fun _ => .pure _

theorem waitForTerminating_ends : Ends (waitForTerminating a gracefulTimeout) := by
  refine .bind (.capture (waitForExitPolls_ends _ _ _ _ _)) fun found => ?_
  cases found with
  | ok _ => exact .pure _
  | error err =>
    cases err with
    | waitTimeout operation duration => exact killAndReport_ends a gracefulTimeout _
    | _ => exact .raise _

theorem gracePoll_ends (answer : TryWait) : Ends (gracePoll answer) := by
  refine .bind (fun _ => rfl) fun w => .choose (fun _ => .bind (.update _) fun _ => ?_)
    fun _ => .pure _
  cases answer
  · exact .raise _
  · exact .pure _
  · exact .bind (finalizeChildExit_ends _ _) fun _ => .pure _

theorem graceLoop_ends (turns : List (TryWait × GraceEvent)) :
    Ends (graceLoop a gracefulTimeout turns) := by
  induction turns with
  | nil =>
    refine .bind (gracePoll_ends _) fun found => ?_
    cases found
    · exact .bind (killChild_ends _) fun _ => .bind (waitForExitPolls_ends _ _ _ _ _) fun _ =>
        .pure _
    · exact .pure _
  | cons turn rest ih =>
    obtain ⟨poll, event⟩ := turn
    refine .bind (gracePoll_ends _) fun found => ?_
    cases found with
    | some exit => exact .pure _
    | none =>
      cases event with
      | message => exact ih
      | timeout => exact ih
      | disconnected => exact killAndReport_ends _ _ _
      | readError eof =>
        cases eof
        · exact killAndReport_ends _ _ _
        · exact waitForTerminating_ends _ _
      | terminal response =>
        cases response with
        | terminating => exact .bind (.update _) fun _ => waitForTerminating_ends _ _
        | _ => exact .bind (.update _) fun _ => killAndReport_ends _ _ _

theorem writeRequest_ends (request : Request) (answer : WriteAnswer) :
    Ends (writeRequest request answer) := by
  refine .bind (fun _ => rfl) fun w => .choose (fun _ => .bind (.update _) fun _ => ?_)
    fun _ => .raise _
  cases answer
  · exact .pure _
  · exact .raise _
  · exact .raise _

theorem shutdownChild_ends (intent : ShutdownIntent) : Ends (shutdownChild a intent) := by
  refine .bind (fun _ => rfl) fun w => .bind (status_ends _) fun found => ?_
  cases found with
  | exited exit => exact .pure _
  | running =>
    cases intent with
    | killOnly => exact .bind (.update _) fun _ => killAndReport_ends _ _ _
    | graceful =>
      refine .bind (.update _) fun _ => .bind (.capture (writeRequest_ends _ _)) fun written => ?_
      cases written with
      | ok _ =>
        exact .bind (fun _ => rfl) fun _ => .choose
          (fun _ => .bind (.update _) fun _ => graceLoop_ends _ _ _) fun _ => .raise _
      | error err =>
        cases err with
        | protocol text => exact killAndReport_ends _ _ _
        | worker code message => exact killAndReport_ends _ _ _
        | _ => exact .raise _

end LeanRs
