import Dagmar.Json
import Dagmar.Library.Interleaving
import Dagmar.Library.Paging
import Dagmar.Library.Table

/-! The queue in which the browser keeps what could not be sent. It lives in the storage of the
browser, which all pages share: any of them may add to it or replay it, and all of them may
be closed at any time. -/

namespace Dagmar.Offline
open Library

section Operations

inductive OperationKind where
  | attendance
  | dayStatus
  | shiftPlan
deriving DecidableEq

/-- What `queueOperation` is given. -/
structure Operation where
  kind : OperationKind
  employmentId : Int
  payload : Json

structure QueuedOperation extends Operation where
  id : Int
  createdAt : String
  attempts : Nat
  lastError : Option String

/-- The methods of `api` that replay an operation. -/
inductive Method where
  | createAttendanceEvent
  | savePortalAttendanceStatus
  | savePortalStatus
  | saveShiftPlan
deriving DecidableEq

def Operation.method (operation : Operation) : Method :=
  match operation.kind with
  | .attendance => .createAttendanceEvent
  | .dayStatus =>
    if (operation.payload.find "status_scope").isText "attendance" then .savePortalAttendanceStatus else .savePortalStatus
  | .shiftPlan => .saveShiftPlan

end Operations

section Storage

/-- The object store `operations`: its rows by their keys, and the number its key generator gives next. -/
structure OperationStore where
  rows : Table QueuedOperation QueuedOperation.id
  nextKey : Int

def OperationStore.empty : OperationStore := ⟨∅, 1⟩

def OperationStore.put (store : OperationStore) (operation : QueuedOperation) : OperationStore :=
  ⟨store.rows.put operation, max store.nextKey (operation.id + 1)⟩

def OperationStore.delete (store : OperationStore) (id : Int) : OperationStore :=
  { store with rows := store.rows.deleteWhere (·.id = id) }

def OperationStore.queueOperation (store : OperationStore) (operation : Operation) (now : String) : QueuedOperation :=
  { operation with id := store.nextKey, createdAt := now, attempts := 0, lastError := none }

/-- `getAll` gives the rows in the order of their keys. -/
def listOperations (store : OperationStore) : List QueuedOperation := ordered QueuedOperation.id store.rows.rows

end Storage

section Flush

/-- What is thrown by a method of `api` or by the storage. -/
inductive Thrown where
  | api (message : String) (status : Int)
  | error (message : String)
  | other
deriving DecidableEq

/-- `conflict` and `authenticationExpired` of `ApiError`. -/
def Thrown.blocks : Thrown → Bool
  | .api _ status => (status = 409 ∨ status = 423) ∨ status = 401
  | _ => false

structure Texts where
  offlineQueueBlocked : String
  offlineUnknown : String

def Thrown.message (texts : Texts) : Thrown → String
  | .api message _ | .error message => message
  | .other => texts.offlineUnknown

structure FlushResult where
  completed : Nat
  blocked : Option QueuedOperation

/-- A call of `flushOperations` at its awaits: for the answer to an operation, for its deletion, and
for the note of why the call ends. The operations after it are those that were listed at the start. -/
inductive Flush where
  | idle
  | sending (allowed : Option (List Int)) (operation : QueuedOperation) (rest : List QueuedOperation) (completed : Nat)
  | deleting (allowed : Option (List Int)) (operation : QueuedOperation) (rest : List QueuedOperation) (completed : Nat)
  | storing (operation : QueuedOperation) (result : FlushResult)
  | returned (result : FlushResult)

/-- `!allowedEmploymentIds || allowedEmploymentIds.has(…)`. -/
def permits (allowed : Option (List Int)) (operation : QueuedOperation) : Bool :=
  allowed.all fun ids => operation.employmentId ∈ ids

variable (texts : Texts)

/-- One turn of the loop, up to its first await. -/
def advance (allowed : Option (List Int)) (operations : List QueuedOperation) (completed : Nat) : Flush :=
  match operations with
  | [] => .returned ⟨completed, none⟩
  | operation :: rest =>
    if permits allowed operation then .sending allowed operation rest completed
    else
      let noted := { operation with lastError := some texts.offlineQueueBlocked }
      .storing noted ⟨completed, some noted⟩

/-- The `catch` of the loop. The attempt is counted in the row and not in what is returned. -/
def caught (operation : QueuedOperation) (completed : Nat) (thrown : Thrown) : Flush :=
  let message := thrown.message texts
  .storing { operation with attempts := operation.attempts + 1, lastError := some message }
    ⟨completed, if thrown.blocks then some { operation with lastError := some message } else none⟩

end Flush

section Runs

/-- What happens at the queue and at the server. -/
inductive Entry where
  | queued (operation : QueuedOperation)
  | sent (allowed : Option (List Int)) (operation : QueuedOperation)
  | acknowledged (operation : QueuedOperation)
  | failed (operation : QueuedOperation)

/-- The latest entry is the first. -/
structure State where
  store : OperationStore
  history : List Entry

def Flush.sent : Flush → List Entry
  | .sending allowed operation _ _ => [.sent allowed operation]
  | _ => []

def State.record (state : State) (entries : List Entry) : State := { state with history := entries ++ state.history }

inductive Act where
  | queue (operation : Operation) (now : String)
  | start (texts : Texts) (allowed : Option (List Int))
  | confirm
  /-- The server refuses, or its answer is lost; then it may have done what it was asked. -/
  | refuse (texts : Texts) (thrown : Thrown)
  | delete (texts : Texts)
  | deleteFails (texts : Texts) (message : String)
  | put
  /-- The page is closed, or the storage fails where nothing catches it. -/
  | abandon

def State.resume (state : State) (flush : Flush) : State × Flush := (state.record flush.sent, flush)

def startFlush (state : State) (texts : Texts) (allowed : Option (List Int)) : State × Flush :=
  state.resume (advance texts allowed (ordered QueuedOperation.id (listOperations state.store)) 0)

/-- What a page does next, and what becomes of its call. -/
def step (state : State) (flush : Flush) (act : Act) : Option (State × Flush) :=
  match act, flush with
  | .queue operation now, flush =>
    let queued := state.store.queueOperation operation now
    some ({ store := state.store.put queued, history := .queued queued :: state.history }, flush)
  | .start texts allowed, .idle => some (startFlush state texts allowed)
  | .start texts allowed, .returned _ => some (startFlush state texts allowed)
  | .confirm, .sending allowed operation rest completed =>
    some (state.record [.acknowledged operation], .deleting allowed operation rest completed)
  | .refuse texts thrown, .sending _ operation _ completed =>
    some (state.record [.failed operation], caught texts operation completed thrown)
  | .delete texts, .deleting allowed operation rest completed =>
    some ({ state with store := state.store.delete operation.id }.resume (advance texts allowed rest (completed + 1)))
  | .deleteFails texts message, .deleting _ operation _ completed => some (state, caught texts operation completed (.error message))
  | .put, .storing operation result => some ({ state with store := state.store.put operation }, .returned result)
  | .abandon, _ => some (state, .idle)
  | _, _ => none

/-- Any page may act next. -/
def Acts : Rule State Flush := fun world who state flush => ∃ act, step world.state (world.sessions who) act = some (state, flush)

def start : World State Flush := .quiet ⟨.empty, []⟩ .idle

end Runs

end Dagmar.Offline
