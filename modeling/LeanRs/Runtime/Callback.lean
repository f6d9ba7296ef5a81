import LeanRs.Abi.Types
import LeanRs.General.RefCount
import LeanRs.General.Runs
import Mathlib.Logic.Function.Basic

/-! The registry of Rust callbacks that Lean may call: handles, the entries they share with the
registry, the two trampolines, and the lock that guards the table. The crate's own code runs as a
stack of small tasks between two pieces of user code, so that every point where a lock is taken or
a clone is dropped is a step of its own. -/
namespace LeanRs

open RefCounting

structure LeanProgressTick where
  current : UInt64
  total : UInt64
  deriving DecidableEq

structure LeanStringEvent where
  value : String
  deriving DecidableEq

/-- What the object argument of a trampoline points at. The bytes of a string are without the
trailing NUL. -/
inductive CallbackPayload where
  | null
  | scalar
  | object
  | string (bytes : ByteArray)

def decodeStringPayload : CallbackPayload → Option String
  | .string bytes => String.fromUTF8? bytes
  | .null | .scalar | .object => none

inductive CallbackEntryKind where
  | progress
  | string
  deriving DecidableEq

def CallbackEntryKind.payloadTag : CallbackEntryKind → UInt8
  | progress => 0
  | string => 1

inductive CallbackEvent where
  | tick (tick : LeanProgressTick)
  | text (event : LeanStringEvent)
  deriving DecidableEq

def CallbackEvent.kind : CallbackEvent → CallbackEntryKind
  | tick _ => .progress
  | text _ => .string

inductive LeanCallbackFlow where
  | continues
  | stop
  deriving DecidableEq

inductive LeanCallbackStatus where
  | ok
  | staleHandle
  | panic
  | wrongPayload
  | stopped
  deriving DecidableEq

namespace LeanCallbackStatus

def asAbi : LeanCallbackStatus → UInt8
  | ok => 0
  | staleHandle => 1
  | panic => 2
  | wrongPayload => 3
  | stopped => 4

def fromAbi (value : UInt8) : Option LeanCallbackStatus :=
  if value = 0 then some ok
  else if value = 1 then some staleHandle
  else if value = 2 then some panic
  else if value = 3 then some wrongPayload
  else if value = 4 then some stopped
  else none

theorem fromAbi_asAbi (status : LeanCallbackStatus) : fromAbi status.asAbi = some status := by
  cases status <;> rfl

end LeanCallbackStatus

inductive CallbackOutcome where
  | returned (flow : LeanCallbackFlow)
  | panicked (message : String)
  deriving DecidableEq

def CallbackOutcome.status : CallbackOutcome → LeanCallbackStatus
  | returned .continues => .ok
  | returned .stop => .stopped
  | panicked _ => .panic

/-- The registered closure is known by the address of its entry. The closure of a scoped progress
callback reaches the context at `context`. -/
structure CallbackEntry where
  kind : CallbackEntryKind
  context : Option Nat
  lastError : Option String
  deriving DecidableEq

/-- A registration: the handle, with its payload type, and the borrowed context that a
`LeanProgressCallback` keeps alive beside it. -/
structure LeanCallbackHandle where
  id : UInt64
  entry : Nat
  payload : CallbackEntryKind
  context : Option Nat
  deriving DecidableEq

/-- A call of a trampoline. `live` is the observer's note of the handles at that moment. -/
structure TrampolineCall where
  trampoline : CallbackEntryKind
  handle : UInt64
  payloadTag : UInt8
  arg0 : UInt64
  arg1 : UInt64
  payload : CallbackPayload
  live : List LeanCallbackHandle

def TrampolineCall.event (call : TrampolineCall) : Option CallbackEvent :=
  match call.trampoline with
  | .progress => some (.tick ⟨call.arg0, call.arg1⟩)
  | .string => (decodeStringPayload call.payload).map fun value => .text ⟨value⟩

structure TrampolineReport where
  call : TrampolineCall
  ran : List (Nat × CallbackEvent × CallbackOutcome)
  status : UInt8

inductive CallbackTask where
  | acquire
  | unlock
  /-- `register_entry` behind the lock. -/
  | insert (entry : Nat) (kind : CallbackEntryKind) (context : Option Nat)
  /-- `LeanCallbackHandle::drop` behind the lock. -/
  | remove (handle : LeanCallbackHandle)
  /-- The lookup of a trampoline behind the lock. -/
  | lookup (call : TrampolineCall)
  /-- A trampoline with what it has found. -/
  | report (call : TrampolineCall) (found : Option Nat)
  /-- One clone of an entry goes out of scope. -/
  | dropEntry (entry : Nat)
  | dropContext (context : Nat)
  /-- User code: the closure of an entry runs. -/
  | callback (call : TrampolineCall) (entry : Nat) (event : CallbackEvent)
  /-- User code: what a closure has captured is dropped. -/
  | destructor

def CallbackTask.user : CallbackTask → Bool
  | callback _ _ _ | destructor => true
  | _ => false

abbrev CallbackTable := UInt64 → Option Nat

structure CallbackRegistry where
  nextId : UInt64
  table : CallbackTable := fun _ => none
  locked : Bool := false
  entries : Heap CallbackEntry := []
  contexts : Heap Unit := []
  handles : List LeanCallbackHandle := []
  tasks : List CallbackTask := []
  registered : List (Except String LeanCallbackHandle) := []
  returned : List TrampolineReport := []

/-- `NEXT_ID.fetch_add`, up to the first id that is neither zero nor taken. The second part is the
counter afterwards. -/
def allocateId (table : CallbackTable) : Nat → UInt64 → Option UInt64 × UInt64
  | 0, next => (none, next)
  | attempts + 1, raw =>
    if raw = 0 then allocateId table attempts (raw + 1)
    else if (table raw).isSome then allocateId table attempts (raw + 1)
    else (some raw, raw + 1)

def allocateIdAttempts : Nat := 1024

namespace CallbackRegistry

def cloneEntry (s : CallbackRegistry) (entry : Nat) : Option (Heap CallbackEntry) := do
  let cell ← s.entries.cell entry
  some (s.entries.put entry ⟨cell.rc + 1, cell.body⟩)

def registerEntry (s : CallbackRegistry) (entry : Nat) (kind : CallbackEntryKind)
    (context : Option Nat) (rest : List CallbackTask) : Option CallbackRegistry :=
  match allocateId s.table allocateIdAttempts s.nextId with
  | (some id, next) => do
    let entries ← s.cloneEntry entry
    let handle : LeanCallbackHandle := ⟨id, entry, kind, context⟩
    some { s with
      nextId := next
      table := Function.update s.table id (some entry)
      entries := entries
      handles := handle :: s.handles
      registered := s.registered ++ [.ok handle]
      tasks := .unlock :: rest }
  | (none, next) =>
    some { s with
      nextId := next
      registered := s.registered ++
        [.error "callback registry could not allocate a fresh nonzero handle id"]
      tasks := .unlock :: .dropEntry entry :: (context.map .dropContext).toList ++ rest }

/-- The removed clone is dropped under the lock, the handle's own clone and the context after it. -/
def dropHandle (s : CallbackRegistry) (handle : LeanCallbackHandle) (rest : List CallbackTask) :
    CallbackRegistry :=
  { s with
    table := Function.update s.table handle.id none
    handles := s.handles.erase handle
    tasks := ((s.table handle.id).map .dropEntry).toList ++
      .unlock :: .dropEntry handle.entry :: (handle.context.map .dropContext).toList ++ rest }

def lookUp (s : CallbackRegistry) (call : TrampolineCall) (rest : List CallbackTask) :
    Option CallbackRegistry :=
  match s.table call.handle with
  | some entry => do
    let entries ← s.cloneEntry entry
    some { s with entries := entries, tasks := .unlock :: .report call (some entry) :: rest }
  | none => some { s with tasks := .unlock :: .report call none :: rest }

def answer (s : CallbackRegistry) (call : TrampolineCall)
    (ran : List (Nat × CallbackEvent × CallbackOutcome)) (status : LeanCallbackStatus)
    (rest : List CallbackTask) : CallbackRegistry :=
  { s with returned := s.returned ++ [⟨call, ran, status.asAbi⟩], tasks := rest }

/-- A closure is run only as long as it and the context that it reaches are there. -/
def contextAlive (s : CallbackRegistry) (entry : CallbackEntry) : Bool :=
  entry.context.all fun context => (s.contexts.cell context).isSome

/-- `report_progress` and `report_string`, after the string payload has been decoded. -/
def dispatch (s : CallbackRegistry) (call : TrampolineCall) (entry : Nat)
    (rest : List CallbackTask) : Option CallbackRegistry := do
  match call.event with
  | none => some (s.answer call [] .wrongPayload (.dropEntry entry :: rest))
  | some event =>
    let cell ← s.entries.cell entry
    if cell.body.kind = event.kind then
      if s.contextAlive cell.body then
        some { s with tasks := .callback call entry event :: rest }
      else none
    else some (s.answer call [] .wrongPayload (.dropEntry entry :: rest))

/-- The last clone takes the closure with it. -/
def releaseEntry (s : CallbackRegistry) (entry : Nat) (rest : List CallbackTask) :
    Option CallbackRegistry := do
  let cell ← s.entries.cell entry
  if cell.rc = 1 then
    some { s with entries := s.entries.free entry, tasks := .destructor :: rest }
  else
    some { s with entries := s.entries.put entry ⟨cell.rc - 1, cell.body⟩, tasks := rest }

/-- One step of the crate's code. A lock that is held is waited for, and it is this thread that
would have to let it go. -/
def tick (s : CallbackRegistry) : Option CallbackRegistry :=
  match s.tasks with
  | .acquire :: rest => if s.locked then none else some { s with locked := true, tasks := rest }
  | .unlock :: rest => some { s with locked := false, tasks := rest }
  | .insert entry kind context :: rest => s.registerEntry entry kind context rest
  | .remove handle :: rest => some (s.dropHandle handle rest)
  | .lookup call :: rest => s.lookUp call rest
  | .report call none :: rest => some (s.answer call [] .staleHandle rest)
  | .report call (some entry) :: rest => s.dispatch call entry rest
  | .dropEntry entry :: rest => s.releaseEntry entry rest
  | .dropContext context :: rest =>
    some { s with contexts := s.contexts.free context, tasks := .destructor :: rest }
  | .callback _ _ _ :: _ | .destructor :: _ | [] => none

def userRuns (s : CallbackRegistry) : Bool :=
  match s.tasks with
  | task :: _ => task.user
  | [] => true

def recordOutcome (s : CallbackRegistry) (entry : Nat) :
    CallbackOutcome → Option (Heap CallbackEntry)
  | .returned _ => some s.entries
  | .panicked message => do
    let cell ← s.entries.cell entry
    let body := { cell.body with lastError := some (boundMessage message) }
    some (s.entries.put entry ⟨cell.rc, body⟩)

/-- The callback has ended, and the clone that the trampoline holds goes out of scope. -/
def finish (s : CallbackRegistry) (call : TrampolineCall) (entry : Nat) (event : CallbackEvent)
    (outcome : CallbackOutcome) (rest : List CallbackTask) : Option CallbackRegistry := do
  let entries ← s.recordOutcome entry outcome
  let recorded := { s with entries := entries }
  some (recorded.answer call [(entry, event, outcome)] outcome.status (.dropEntry entry :: rest))

def lastError (s : CallbackRegistry) (handle : LeanCallbackHandle) : Option String :=
  (s.entries.cell handle.entry).bind fun cell => cell.body.lastError

end CallbackRegistry

/-- What can happen next: an action of the user code that runs, its end, or a step of the crate's
own code. -/
inductive CallbackMove where
  | register (kind : CallbackEntryKind)
  /-- `LeanProgressCallback::register`. -/
  | registerScoped
  | drop (handle : LeanCallbackHandle)
  | call (trampoline : CallbackEntryKind) (handle : UInt64) (payloadTag : UInt8)
      (arg0 arg1 : UInt64) (payload : CallbackPayload)
  | finish (outcome : CallbackOutcome)
  | destroyed
  | tick

namespace CallbackRegistry

def beginRegister (s : CallbackRegistry) (kind : CallbackEntryKind) (context : Option Nat) :
    CallbackRegistry :=
  { s with
    entries := s.entries.alloc ⟨kind, context, none⟩
    tasks := .acquire :: .insert s.entries.length kind context :: s.tasks }

def beginRegisterScoped (s : CallbackRegistry) : CallbackRegistry :=
  { s.beginRegister .progress (some s.contexts.length) with contexts := s.contexts.alloc () }

/-- A payload tag that is not the trampoline's own is answered before the table is looked at. -/
def beginCall (s : CallbackRegistry) (call : TrampolineCall) : CallbackRegistry :=
  if call.payloadTag = call.trampoline.payloadTag then
    { s with tasks := .acquire :: .lookup call :: s.tasks }
  else s.answer call [] .wrongPayload s.tasks

def act (s : CallbackRegistry) : CallbackMove → Option CallbackRegistry
  | .register kind => some (s.beginRegister kind none)
  | .registerScoped => some s.beginRegisterScoped
  | .drop handle =>
    if handle ∈ s.handles then some { s with tasks := .acquire :: .remove handle :: s.tasks }
    else none
  | .call trampoline handle payloadTag arg0 arg1 payload =>
    some (s.beginCall ⟨trampoline, handle, payloadTag, arg0, arg1, payload, s.handles⟩)
  | .finish outcome =>
    match s.tasks with
    | .callback call entry event :: rest => s.finish call entry event outcome rest
    | _ => none
  | .destroyed =>
    match s.tasks with
    | .destructor :: rest => some { s with tasks := rest }
    | _ => none
  | .tick => none

def step (s : CallbackRegistry) (move : CallbackMove) : Option CallbackRegistry :=
  match move with
  | .tick => s.tick
  | move => if s.userRuns then s.act move else none

end CallbackRegistry

end LeanRs
