import LeanRs.Worker.Supervisor

/-! Polling, killing and reaping the child: `status`, the bounded waits and `shutdown_child`. -/
namespace LeanRs

open Procedures

inductive LeanWorkerStatus where
  | running
  | exited (exit : LeanWorkerExit)
  deriving DecidableEq

inductive ShutdownIntent where
  | graceful
  | killOnly
  deriving DecidableEq

inductive LeanWorkerShutdownOutcome where
  | alreadyExited
  | graceful
  | gracefulTimedOutKilled
  | gracefulProtocolFailedKilled
  | killOnly
  deriving DecidableEq

structure LeanWorkerShutdownReport where
  outcome : LeanWorkerShutdownOutcome
  exit : LeanWorkerExit
  gracefulTimeout : Duration
  elapsed : Duration
  killElapsed : Option Duration
  waitElapsed : Duration
  deriving DecidableEq

/-- The polls of one bounded wait: after an early one there is time left, after the last one
there is none. -/
structure ExitPolls where
  early : List TryWait
  last : TryWait
  elapsed : Duration
  deriving DecidableEq

/-- What the reader of the graceful stop has to say in one turn of its loop. -/
inductive GraceEvent where
  | message
  | terminal (response : Response)
  | readError (eof : Bool)
  | disconnected
  | timeout
  deriving DecidableEq

/-- A blocking `Child::wait`; a child that closed its pipe and lives on keeps it blocked. -/
inductive WaitAnswer where
  | failed (source : String)
  | exited (status : ExitStatus) (stderr : String)
  | never
  deriving DecidableEq

structure ShutdownAnswers where
  status : TryWait
  write : WriteAnswer
  /-- Turns of the grace loop that start before the grace period is over. -/
  grace : List (TryWait × GraceEvent)
  /-- The poll of the turn that finds the grace period over. -/
  graceLast : TryWait
  graceElapsed : Duration
  exitWait : ExitPolls
  kill : KillAnswer
  killWait : ExitPolls
  killElapsed : Duration
  elapsed : Duration
  deriving DecidableEq

open Procedure Supervisor in
def status (answer : TryWait) : Supervisor LeanWorkerStatus := do
  let w ← worker
  match w.lastExit with
  | some exit =>
    modify fun w => { w with state := .exited w.generation }
    pure (.exited exit)
  | none =>
    match w.child with
    | none =>
      modify fun w => { w with state := .exited w.generation }
      pure (.exited .notRunning)
    | some _ =>
      emit (.tryWait answer)
      match answer with
      | .failed source => raise (.wait source)
      | .exited exitStatus stderr =>
        let exit := w.exitOf exitStatus stderr
        modify fun w => w.reaped exit
        pure (.exited exit)
      | .running => pure .running

open Procedure Supervisor in
def ensureRunning (answer : TryWait) : Supervisor Unit := do
  let w ← worker
  if w.state.rejectsNewRequests then
    raise (.shutdownInProgress (w.state.currentOperation.getD "worker_request"))
  else
    match ← status answer with
    | .running => pure ()
    | .exited exit => raise (.ofExit exit)

open Procedure Supervisor in
def finalizeChildExit (exitStatus : ExitStatus) (stderr : String) : Supervisor LeanWorkerExit := do
  let w ← worker
  let exit := w.exitOf exitStatus stderr
  modify fun w => w.reaped exit
  pure exit

open Procedure Supervisor in
def waitForExit (answer : WaitAnswer) : Supervisor LeanWorkerExit := do
  let w ← worker
  match w.child with
  | none => raise w.deadError
  | some _ =>
    modify fun w => { w with state := .reaping w.generation }
    emit .wait
    match answer with
    | .failed source => raise (.wait source)
    | .exited exitStatus stderr => finalizeChildExit exitStatus stderr
    | .never => Procedure.wait

open Procedure Supervisor in
/-- One turn of `wait_for_exit_bounded`: the exit, if the poll finds one. -/
def pollExit (answer : TryWait) : Supervisor (Option LeanWorkerExit) := do
  let w ← worker
  match w.child with
  | none => raise w.deadError
  | some _ =>
    modify fun w => { w with state := .reaping w.generation }
    emit (.tryWait answer)
    match answer with
    | .failed source => raise (.wait source)
    | .exited exitStatus stderr => do
      let exit ← finalizeChildExit exitStatus stderr
      pure (some exit)
    | .running => pure none

open Procedure Supervisor in
def waitForExitPolls (operation : String) (timeout : Duration) (last : TryWait)
    (elapsed : Duration) : List TryWait → Supervisor (LeanWorkerExit × Duration)
  | [] => do
    match ← pollExit last with
    | some exit => pure (exit, elapsed)
    | none => raise (.waitTimeout operation timeout)
  | poll :: rest => do
    match ← pollExit poll with
    | some exit => pure (exit, elapsed)
    | none => waitForExitPolls operation timeout last elapsed rest

def waitForExitBounded (operation : String) (timeout : Duration) (polls : ExitPolls) :
    Supervisor (LeanWorkerExit × Duration) :=
  waitForExitPolls operation timeout polls.last polls.elapsed polls.early

open Procedure Supervisor in
def writeRequest (request : Request) (answer : WriteAnswer) : Supervisor Unit := do
  let w ← worker
  if w.stdin then
    emit (.write request answer)
    match answer with
    | .written => pure ()
    | .tooLarge text | .broken text => raise (.protocol (.frame text))
  else
    raise w.deadError

def killWaitTimeout : Duration := Duration.fromSecs 5

open Procedure Supervisor in
/-- `child.kill()`, skipped when there is no child to kill. -/
def killChild (answer : KillAnswer) : Supervisor Unit := do
  let w ← worker
  if w.child.isSome then
    emit (.kill answer)
    match answer with
    | .failed source => raise (.kill source)
    | .asked => pure ()
  else
    pure ()

open Procedure Supervisor in
def killAndReport (a : ShutdownAnswers) (gracefulTimeout : Duration)
    (outcome : LeanWorkerShutdownOutcome) : Supervisor LeanWorkerShutdownReport := do
  modify fun w => { w with state := .killing w.generation }
  killChild a.kill
  let (exit, waitElapsed) ← waitForExitBounded "kill_wait" killWaitTimeout a.killWait
  pure ⟨outcome, exit, gracefulTimeout, a.elapsed, some a.killElapsed, waitElapsed⟩

/-- The bounded wait of a child that said it was terminating, escalated to a kill when it is
still there at the end. -/
def waitForTerminating (a : ShutdownAnswers) (gracefulTimeout : Duration) :
    Supervisor LeanWorkerShutdownReport := do
  let remaining := gracefulTimeout - a.graceElapsed
  match ← Procedure.capture (waitForExitBounded "shutdown" remaining a.exitWait) with
  | .ok (exit, waitElapsed) =>
    pure ⟨.graceful, exit, gracefulTimeout, a.elapsed, none, waitElapsed⟩
  | .error (.waitTimeout _ _) => killAndReport a gracefulTimeout .gracefulTimedOutKilled
  | .error err => Procedure.raise err

def graceExpired (a : ShutdownAnswers) (gracefulTimeout : Duration) :
    Supervisor LeanWorkerShutdownReport := do
  killChild a.kill
  let (exit, waitElapsed) ← waitForExitBounded "kill_wait" killWaitTimeout a.killWait
  pure ⟨.gracefulTimedOutKilled, exit, gracefulTimeout, a.elapsed, some a.killElapsed, waitElapsed⟩

open Procedure Supervisor in
def gracePoll (answer : TryWait) : Supervisor (Option LeanWorkerExit) := do
  let w ← worker
  if w.child.isSome then
    emit (.tryWait answer)
    match answer with
    | .failed source => raise (.wait source)
    | .exited exitStatus stderr => do
      let exit ← finalizeChildExit exitStatus stderr
      pure (some exit)
    | .running => pure none
  else
    pure none

open Procedure Supervisor in
def graceLoop (a : ShutdownAnswers) (gracefulTimeout : Duration) :
    List (TryWait × GraceEvent) → Supervisor LeanWorkerShutdownReport
  | [] => do
    match ← gracePoll a.graceLast with
    | some exit => pure ⟨.graceful, exit, gracefulTimeout, a.elapsed, none, a.graceElapsed⟩
    | none => graceExpired a gracefulTimeout
  | (poll, event) :: rest => do
    match ← gracePoll poll with
    | some exit => pure ⟨.graceful, exit, gracefulTimeout, a.elapsed, none, a.graceElapsed⟩
    | none =>
      match event with
      | .terminal .terminating =>
        modify fun w => { w with stdout := true }
        waitForTerminating a gracefulTimeout
      | .terminal _ =>
        modify fun w => { w with stdout := true }
        killAndReport a gracefulTimeout .gracefulProtocolFailedKilled
      | .readError true => waitForTerminating a gracefulTimeout
      | .readError false | .disconnected =>
        killAndReport a gracefulTimeout .gracefulProtocolFailedKilled
      | .message | .timeout => graceLoop a gracefulTimeout rest

open Procedure Supervisor in
def waitForGracefulShutdown (a : ShutdownAnswers) (gracefulTimeout : Duration) :
    Supervisor LeanWorkerShutdownReport := do
  let w ← worker
  if w.stdout then
    modify fun w => { w with stdout := false }
    graceLoop a gracefulTimeout a.grace
  else
    raise w.deadError

open Procedure Supervisor in
def stopRunning (a : ShutdownAnswers) (intent : ShutdownIntent) (gracefulTimeout : Duration) :
    Supervisor LeanWorkerShutdownReport := do
  match intent with
  | .graceful =>
    modify fun w => { w with state := .stopping w.generation }
    match ← Procedure.capture (writeRequest .terminate a.write) with
    | .ok () => waitForGracefulShutdown a gracefulTimeout
    | .error (.protocol _) | .error (.worker _ _) =>
      killAndReport a gracefulTimeout .gracefulProtocolFailedKilled
    | .error err => raise err
  | .killOnly =>
    modify fun w => { w with state := .killing w.generation }
    killAndReport a gracefulTimeout .killOnly

open Procedure Supervisor in
def shutdownChild (a : ShutdownAnswers) (intent : ShutdownIntent) :
    Supervisor LeanWorkerShutdownReport := do
  let w ← worker
  match ← status a.status with
  | .exited exit => pure ⟨.alreadyExited, exit, w.config.shutdownTimeout, a.elapsed, none, 0⟩
  | .running => stopRunning a intent w.config.shutdownTimeout

end LeanRs
