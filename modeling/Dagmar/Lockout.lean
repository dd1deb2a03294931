import Dagmar.Library.Interleaving
import Dagmar.Library.Table
import Mathlib.Data.List.Sort
import Mathlib.Data.Option.Basic

/-! Failed logins of one principal that run side by side. A login loads the rows of
the principal, counts in the program and writes with its commit; it holds no lock.
The sessions keep what they have loaded: a row that is read again is not refreshed,
and an update sends the columns that differ from what was loaded. -/

namespace Dagmar.Lockout
open Library

section Policy

def minutes (count : Int) : Int := count * 60000000

def hours (count : Int) : Int := minutes (60 * count)

def lockoutThreshold : Nat := 3
def lockoutWindow : Int := hours 1
def portalLockoutDuration : Int := hours 1
def adminLockoutThreshold : Nat := 5
def adminLockoutWindow : Int := minutes 15
def adminLockoutDuration : Int := minutes 15

structure Policy where
  threshold : Nat
  window : Int
  lockDuration : Int

inductive Actor where
  | portal
  | admin
deriving DecidableEq, Repr

def Actor.policy : Actor → Policy
  | .portal => ⟨lockoutThreshold, lockoutWindow, portalLockoutDuration⟩
  | .admin => ⟨adminLockoutThreshold, adminLockoutWindow, adminLockoutDuration⟩

end Policy

section Rows

/-- What a row has recorded. -/
structure Marks where
  failedAttempts : Nat
  firstFailedAt : Option Int
  lastFailedAt : Option Int
  lockedUntil : Option Int
  lastForgotSentAt : Option Int
deriving DecidableEq

def Marks.unmarked : Marks := ⟨0, none, none, none, none⟩

/-- Of two rows of one principal: the most failures, the first and the last instant. -/
def Marks.join (first second : Marks) : Marks where
  failedAttempts := max first.failedAttempts second.failedAttempts
  firstFailedAt := Option.merge min first.firstFailedAt second.firstFailedAt
  lastFailedAt := Option.merge max first.lastFailedAt second.lastFailedAt
  lockedUntil := Option.merge max first.lockedUntil second.lockedUntil
  lastForgotSentAt := Option.merge max first.lastForgotSentAt second.lastForgotSentAt

def isLocked (marks : Marks) (now : Int) : Prop := ∃ lockedUntil ∈ marks.lockedUntil, now < lockedUntil

instance (marks : Marks) (now : Int) : Decidable (isLocked marks now) :=
  match shape : marks.lockedUntil with
  | none => isFalse (by simp [isLocked, shape])
  | some lockedUntil => decidable_of_iff (now < lockedUntil) (by simp [isLocked, shape])

def resetLockState (state : Marks) : Marks :=
  { state with failedAttempts := 0, firstFailedAt := none, lastFailedAt := none, lockedUntil := none }

def windowReset (policy : Policy) (now : Int) (marks : Marks) : Prop :=
  ∀ firstFailedAt ∈ marks.firstFailedAt, policy.window < now - firstFailedAt

instance (policy : Policy) (now : Int) (marks : Marks) : Decidable (windowReset policy now marks) :=
  inferInstanceAs (Decidable (∀ firstFailedAt ∈ marks.firstFailedAt, _))

def recordFailedLogin (policy : Policy) (now : Int) (state : Marks) : Marks :=
  if isLocked state now then state
  else
    let opened :=
      if windowReset policy now state then { state with failedAttempts := 0, firstFailedAt := some now } else state
    let counted := { opened with failedAttempts := opened.failedAttempts + 1, lastFailedAt := some now }
    if policy.threshold ≤ counted.failedAttempts then { counted with lockedUntil := some (now + policy.lockDuration) }
    else counted

/-- The rows of the one principal. -/
structure AuthLockoutState where
  id : Int
  marks : Marks
deriving DecidableEq

abbrev States := Table AuthLockoutState AuthLockoutState.id

end Rows

section Sessions

/-- A row in a session: as it was loaded, what it says now, and whether the session has inserted it. -/
structure Loaded where
  stored : AuthLockoutState
  marks : Marks
  own : Bool
deriving DecidableEq

/-- The row that counts, and the others, which are deleted with the commit. -/
structure LockState where
  state : Loaded
  duplicates : List Loaded
deriving DecidableEq

def LockState.objects (lock : LockState) : List Loaded := lock.state :: lock.duplicates

/-- The committed rows that the session has loaded. -/
def LockState.loaded (lock : LockState) : List AuthLockoutState :=
  (lock.objects.filter fun object => object.own = false).map Loaded.stored

/-- A row that the session has loaded already stays as it is. -/
def load (known : List Loaded) (row : AuthLockoutState) : Loaded :=
  (known.find? fun object => object.own = false ∧ object.stored.id = row.id).getD ⟨row, row.marks, false⟩

def merged (states : List Loaded) : Marks := (states.map Loaded.marks).foldl Marks.join .unmarked

/-- What `SELECT` finds in the order of ids: the committed rows and the session's own. -/
def visible (known : List Loaded) (rows : States) : List Loaded :=
  (rows.rows.map (load known) ++ known.filter fun object => object.own = true).insertionSort
    fun first second => first.stored.id ≤ second.stored.id

def getLockoutState (known : List Loaded) (rows : States) (id : Int) : LockState :=
  match visible known rows with
  | [] => ⟨⟨⟨id, .unmarked⟩, .unmarked, true⟩, []⟩
  | [state] => ⟨state, []⟩
  | state :: duplicates => ⟨{ state with marks := merged (state :: duplicates) }, duplicates⟩

/-- `UPDATE` sends a column that has changed since it was loaded. -/
def changed {α : Type} [DecidableEq α] (stored mine current : α) : α := if mine = stored then current else mine

def Marks.update (stored mine current : Marks) : Marks where
  failedAttempts := changed stored.failedAttempts mine.failedAttempts current.failedAttempts
  firstFailedAt := changed stored.firstFailedAt mine.firstFailedAt current.firstFailedAt
  lastFailedAt := changed stored.lastFailedAt mine.lastFailedAt current.lastFailedAt
  lockedUntil := changed stored.lockedUntil mine.lockedUntil current.lockedUntil
  lastForgotSentAt := changed stored.lastForgotSentAt mine.lastForgotSentAt current.lastForgotSentAt

/-- The row that counts as the commit writes it; an update of a row that is gone fails. -/
def Loaded.flush (object : Loaded) (rows : States) : Option States :=
  if object.own then some (rows.put ⟨object.stored.id, object.marks⟩)
  else if object.marks = object.stored.marks then some rows
  else (rows.get object.stored.id).map fun current =>
    rows.put ⟨current.id, object.stored.marks.update object.marks current.marks⟩

def LockState.flush (lock : LockState) (rows : States) : Option States :=
  lock.state.flush
    (rows.deleteWhere fun row => ∃ duplicate ∈ lock.duplicates, duplicate.own = false ∧ duplicate.stored.id = row.id)

end Sessions

section Steps

/-- The clock, what has been committed, and when the failures that were counted have happened, the latest first. -/
structure Store where
  clock : Int
  nextId : Int
  rows : States
  failures : List Int

inductive Attempt where
  | idle
  | refused (lock : LockState)
  | entered (lock : LockState)
  | again (lock : LockState)
  | recorded (lock : LockState) (now : Int) (counted : Bool)
deriving DecidableEq

/-- `_record_login_failure` of the portal looks for the state once more. -/
def Actor.beforeRecord (actor : Actor) (lock : LockState) : Attempt :=
  match actor with
  | .portal => .again lock
  | .admin => .entered lock

def LockState.record (lock : LockState) (policy : Policy) (now : Int) : LockState :=
  { lock with state := { lock.state with marks := recordFailedLogin policy now lock.state.marks } }

/-- The steps of `portal_login` and `admin_login` with wrong credentials. -/
inductive FailsLogin (actor : Actor) (world : World Store Attempt) (who : Nat) : Store → Attempt → Prop where
  | tick (later : Int) (ordered : world.state.clock ≤ later) :
      FailsLogin actor world who { world.state with clock := later } (world.sessions who)
  /-- An error or a lost connection. -/
  | abandon : FailsLogin actor world who world.state .idle
  | look (id : Int) (idle : world.sessions who = .idle) (numbered : world.state.nextId ≤ id) :
      FailsLogin actor world who { world.state with nextId := id + 1 }
        (if isLocked (getLockoutState [] world.state.rows id).state.marks world.state.clock then
          .refused (getLockoutState [] world.state.rows id)
        else .entered (getLockoutState [] world.state.rows id))
  | refuse {lock : LockState} {rows : States} (refused : world.sessions who = .refused lock)
      (flushed : lock.flush world.state.rows = some rows) :
      FailsLogin actor world who { world.state with rows := rows } .idle
  -- A row that is gone must have nothing to write.
  | lookAgain {lock : LockState} (id : Int) (entered : world.sessions who = .entered lock) (portal : actor = .portal)
      (numbered : world.state.nextId ≤ id) (writable : (lock.state.flush world.state.rows).isSome) :
      FailsLogin actor world who { world.state with nextId := id + 1 }
        (.again (getLockoutState lock.objects world.state.rows id))
  | record {lock : LockState} (stands : world.sessions who = actor.beforeRecord lock) :
      FailsLogin actor world who world.state
        (.recorded (lock.record actor.policy world.state.clock) world.state.clock
          (¬ isLocked lock.state.marks world.state.clock))
  | commit {lock : LockState} {now : Int} {counted : Bool} {rows : States}
      (recorded : world.sessions who = .recorded lock now counted)
      (flushed : lock.flush world.state.rows = some rows) :
      FailsLogin actor world who
        { world.state with
          rows := rows
          failures := if counted then now :: world.state.failures else world.state.failures }
        .idle

end Steps

end Dagmar.Lockout
