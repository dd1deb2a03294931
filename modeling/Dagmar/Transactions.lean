import Dagmar.Requests
import Dagmar.Library.Interleaving
import Mathlib.Data.List.Sort

/-! Requests as transactions of a database at the level READ COMMITTED. A request
finds out which employments it is about, takes their row locks one after another,
reads with any number of statements, each of which sees what is committed when it
runs, and commits what it changed. Inserting a row takes a share of the key of its
employment, which waits for the row lock and keeps it waiting. -/

namespace Dagmar
open Library

section Statements

/-- The keys that a statement reads, in the tables that these transactions change. -/
structure Selection where
  events : Int → Bool
  attendance : Int × Int → Bool
  shiftPlans : Int × Int → Bool
  metrics : Int × Int × DailyMetricSource → Bool
  locks : LockType → Int × Int × Nat → Bool
  autoLockRuns : Int × Nat → Bool

/-- What a transaction has seen after one more statement. -/
def Db.reread (view db : Db) (selection : Selection) : Db :=
  { view with
    events := view.events.refresh db.events (selection.events ·)
    attendance := view.attendance.refresh db.attendance (selection.attendance ·)
    shiftPlans := view.shiftPlans.refresh db.shiftPlans (selection.shiftPlans ·)
    metrics := view.metrics.refresh db.metrics (selection.metrics ·)
    attendanceLocks := view.attendanceLocks.refresh db.attendanceLocks (selection.locks .attendance ·)
    shiftPlanLocks := view.shiftPlanLocks.refresh db.shiftPlanLocks (selection.locks .shiftPlan ·)
    autoLockRuns := view.autoLockRuns.refresh db.autoLockRuns (selection.autoLockRuns ·) }

/-- Commit the changes between what a transaction saw and what it leaves; `none` is
a violated constraint or an update of a row that somebody else deleted. -/
def Db.patch (db before after : Db) : Option Db := do
  let events ← db.events.patch before.events after.events
  let events ← flushEvents events.rows
  let attendance ← db.attendance.patch before.attendance after.attendance
  let shiftPlans ← db.shiftPlans.patch before.shiftPlans after.shiftPlans
  let metrics ← db.metrics.patch before.metrics after.metrics
  let attendanceLocks ← db.attendanceLocks.patch before.attendanceLocks after.attendanceLocks
  let shiftPlanLocks ← db.shiftPlanLocks.patch before.shiftPlanLocks after.shiftPlanLocks
  let autoLockRuns ← db.autoLockRuns.patch before.autoLockRuns after.autoLockRuns
  return { db with
    events := events, attendance := attendance, shiftPlans := shiftPlans, metrics := metrics
    attendanceLocks := attendanceLocks, shiftPlanLocks := shiftPlanLocks, autoLockRuns := autoLockRuns
    nextEventId := after.nextEventId }

/-- The employments that inserted rows refer to. -/
inductive Inserts (before after : Db) : Int → Prop where
  | event {row : AttendanceEvent} (present : row ∈ after.events) (new : before.events.get row.id = none) :
      Inserts before after row.employmentId
  | attendance {row : Attendance} (present : row ∈ after.attendance) (new : before.attendance.get row.key = none) :
      Inserts before after row.employmentId
  | shiftPlan {row : ShiftPlan} (present : row ∈ after.shiftPlans) (new : before.shiftPlans.get row.key = none) :
      Inserts before after row.employmentId
  | metric {row : EmploymentDailyTimeMetric} (present : row ∈ after.metrics) (new : before.metrics.get row.key = none) :
      Inserts before after row.employmentId
  | lock {lockType : LockType} {row : MonthLock} (present : row ∈ after.locks lockType)
      (new : (before.locks lockType).get row.key = none) : Inserts before after row.employmentId

end Statements

section Sessions

/-- A transaction that is taking its row locks, or one that has them; `shared` are
the keys it has taken a share of, `view` is what it has read. -/
inductive Session where
  | idle
  | locking (call : Call) (held waiting : List Int)
  | writing (call : Call) (held shared : List Int) (view : Db)

/-- `SELECT ... FOR UPDATE`. -/
def Session.Holds : Session → Int → Prop
  | .idle, _ => False
  | .locking _ held _, id => id ∈ held
  | .writing _ held _ _, id => id ∈ held

/-- `FOR KEY SHARE`. -/
def Session.Shares : Session → Int → Prop
  | .writing _ _ shared _, id => id ∈ shared
  | _, _ => False

/-- The employments whose rows a transaction locks before it reads anything it
relies on, in order. The job that locks a month of the plans locks none. -/
def Request.lockOrder (db : Db) : Request → Option (List Int)
  | .setLocks _ body => some (body.employmentIds.dedup.insertionSort (· ≤ ·))
  | .autoLock => some []
  | request => (request.subject db).map fun id => [id]

variable (zone : Zone) (world : World Db Session) (who : Nat)

/-- One step of a transaction. Numbers of events come from a sequence, which may skip some. -/
inductive Transacts : Db → Session → Prop where
  | start {call : Call} {order : List Int} (now : world.sessions who = .idle)
      (found : call.request.lockOrder world.state = some order) : Transacts world.state (.locking call [] order)
  | lock {call : Call} {held waiting : List Int} {id : Int} (now : world.sessions who = .locking call held (id :: waiting))
      (free : Available Session.Holds world who id) (unshared : Available Session.Shares world who id) :
      Transacts world.state (.locking call (id :: held) waiting)
  | locked {call : Call} {held : List Int} (now : world.sessions who = .locking call held []) :
      Transacts world.state (.writing call held [] world.state)
  | read {call : Call} {held shared : List Int} {view : Db} (now : world.sessions who = .writing call held shared view)
      (selection : Selection) : Transacts world.state (.writing call held shared (view.reread world.state selection))
  | share {call : Call} {held shared : List Int} {view : Db} {id : Int}
      (now : world.sessions who = .writing call held shared view) (free : Available Session.Holds world who id) :
      Transacts world.state (.writing call held (id :: shared) view)
  | commit {call : Call} {held shared : List Int} {view next state : Db} {number : Int}
      (now : world.sessions who = .writing call held shared view) (unused : world.state.nextEventId ≤ number)
      (handled : call.request.handle zone call.clock { view with nextEventId := number } = .ok next)
      (keyed : ∀ id, Inserts view next id → id ∈ held ∨ id ∈ shared)
      (patched : world.state.patch { view with nextEventId := number } next = some state) : Transacts state .idle
  | abort : Transacts world.state .idle

end Sessions

end Dagmar
