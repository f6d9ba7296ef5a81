import LeanRs.Worker.Handles

/-! Parent-owned cleanup: when a stop either reaps the child or has tried to kill it. -/
namespace LeanRs

open Procedures Procedure Supervisor

/-- The child is reaped and its exit recorded, or the failure is the operating system's and
comes after a kill was asked for. -/
def CleansUp : Outcome World LeanWorkerError LeanWorkerShutdownReport → Prop
  | .returned report t => t.worker.child = none ∧ Reaped t.effects ∧
      t.worker.lastExit = some report.exit
  | .raised e t => e.ofSystem = true ∧ Killed t.effects
  | .waiting _ => False

theorem shutdownChild_cleansUp_iff (a : ShutdownAnswers) (intent : ShutdownIntent)
    (w : LeanWorker) (owned : w.Owned) :
    CleansUp (shutdownChild a intent ⟨w, []⟩) ↔ a.verdict intent w.stdout ≠ .abandoned := by
  have comes := shutdownChild_verdict a beforeKill_unkilled intent ⟨w, []⟩
    ⟨owned, fun ⟨_, member⟩ => nomatch member⟩
  have ends := shutdownChild_ends a intent ⟨w, []⟩
  cases outcome : shutdownChild a intent ⟨w, []⟩ with
  | waiting t => rw [outcome] at ends; cases ends
  | returned report t =>
    rw [outcome] at comes
    obtain ⟨⟨gone, recorded, reaped⟩, held⟩ := comes
    exact ⟨fun _ => a.ne_abandoned_of_carries held, fun _ => ⟨gone.child, reaped, recorded⟩⟩
  | raised e t =>
    rw [outcome] at comes
    have failed : StopFailed (fun effects => ¬Killed effects) a (a.verdict intent w.stdout)
      (intent = .killOnly ∨ w.stdout = true) e t := comes
    cases verdict : a.verdict intent w.stdout with
    | reaped => rw [verdict] at failed; exact failed.elim
    | escalated =>
      rw [verdict] at failed
      exact ⟨fun _ => by decide, fun _ => ⟨failed.1, failed.2.1⟩⟩
    | abandoned =>
      rw [verdict] at failed
      exact ⟨fun cleans => absurd cleans.2 failed.1, fun held => absurd rfl held⟩

/-- From every reachable state with a child, for both intents, a stop cleans up exactly when its
answers do not abandon it. -/
theorem reachable_shutdown_cleansUp_iff (config : LeanWorkerConfig) (pid : Nat) (stderr : Bool)
    (elapsed : Duration) (now : Instant) (ops : List Op) (w : LeanWorker)
    (reached : Runs.run operate (.fresh config pid stderr elapsed now) ops = some w)
    (alive : w.child.isSome) (a : ShutdownAnswers) (intent : ShutdownIntent) :
    CleansUp (shutdownChild a intent ⟨w, []⟩) ↔ a.verdict intent w.stdout ≠ .abandoned := by
  refine shutdownChild_cleansUp_iff a intent w ?_
  rcases (reachable_settled config pid stderr elapsed now ops w reached).formed with owned | gone
  · exact owned
  · rw [gone.child] at alive; cases alive

/-- After a row request, and by force even after one whose sink has panicked. -/
theorem spawned_shutdown_cleansUp :
    (∃ w : LeanWorker, Runs.run operate (.spawned {}) [.acceptedRows] = some w ∧
      CleansUp (shutdownChild .smooth .graceful ⟨w, []⟩)) ∧
      ∃ w : LeanWorker, Runs.run operate (.spawned {}) [.panickingRows] = some w ∧
        CleansUp (shutdownChild .smooth .killOnly ⟨w, []⟩) :=
  ⟨⟨_, rfl, (reachable_shutdown_cleansUp_iff { executable := ⟨[]⟩ } 1 true 0 0 [.acceptedRows] _
      rfl rfl .smooth .graceful).mpr (by decide)⟩,
    _, rfl, (reachable_shutdown_cleansUp_iff { executable := ⟨[]⟩ } 1 true 0 0 [.panickingRows] _
      rfl rfl .smooth .killOnly).mpr (by decide)⟩

/-- After a row sink has panicked, a graceful stop writes `Terminate`, finds no output pipe and
gives up on a child that is still there. -/
theorem panicking_sink_abandons_child :
    ∃ w : LeanWorker, Runs.run operate (.spawned {}) [.panickingRows] = some w ∧
      w.child.isSome = true ∧
      ∃ t, shutdownChild .smooth .graceful ⟨w, []⟩ = .raised w.deadError t ∧
        t.worker.child.isSome = true ∧ ¬Killed t.effects ∧ .wait ∉ t.effects ∧
        ¬CleansUp (shutdownChild .smooth .graceful ⟨w, []⟩) := by
  refine ⟨_, rfl, rfl, _, rfl, rfl, ?_, ?_, ?_⟩
  · rintro ⟨answer, member⟩
    simp [ShutdownAnswers.smooth] at member
  · simp [ShutdownAnswers.smooth]
  · exact fun cleans => absurd cleans.1 (by decide)

end LeanRs
