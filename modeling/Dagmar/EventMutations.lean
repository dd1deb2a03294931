import Dagmar.DayStatus
import Dagmar.DailyMetrics

/-! Creating attendance events with their automatic pauses, and finding the days
and months a change of events touches. -/

namespace Dagmar
open Library Library.Calendar Library.Outcome

section Additions

/-- A closed pair with the pauses that fall into it. -/
def addClosedIntervalWithBreaks (zone : Zone) (employment : Employment) (start finish : Timestamp) :
    Except String (List Timestamp) := do
  raiseIf (finish.date ≠ start.date) "Uzavřený pár průchodů musí zůstat ve stejném dni."
  raiseIf (finish.wall ≤ start.wall) "Odchod musí následovat po příchodu."
  let breaks :=
    if employment.profile.automaticBreaksEnabled then (automaticBreakEvents start.wall finish.wall).map zone.attach
    else []
  return start :: breaks ++ [finish]

/-- The event before a new one on its day, when the new one closes an interval.
A pending event has no number and sorts before a stored one of the same wall time. -/
def previousEvent (db : Db) (employmentId : Int) (time : Timestamp) : Option AttendanceEvent :=
  let pending : AttendanceEvent := ⟨0, employmentId, time⟩
  let sameDay := (db.eventsOf employmentId).filter (·.occurredAt.date = time.date)
  let ordered := orderedEvents (sameDay ++ [pending])
  let index := ordered.idxOf pending
  if index % 2 = 1 then ordered[index - 1]? else none

def addEventWithBreaks (zone : Zone) (db : Db) (employment : Employment) (time : Timestamp) : List Timestamp :=
  match previousEvent db employment.id time with
  | some previous =>
    if employment.profile.automaticBreaksEnabled then
      time :: (automaticBreakEvents previous.occurredAt.wall time.wall).map zone.attach
    else [time]
  | none => [time]

/-- The additions of a request, as one flush writes them; `none` is an `IntegrityError`. -/
def insertEvents (db : Db) (employmentId : Int) (times : List Timestamp) : Option Db := do
  let added := times.mapIdx fun index time => ⟨db.nextEventId + index, employmentId, time⟩
  let events ← flushEvents (db.events.rows ++ added)
  return { db with events := events, nextEventId := db.nextEventId + times.length }

/-- Rewrite one event in place; `none` is an `IntegrityError`. -/
def updateEvent (db : Db) (event : AttendanceEvent) : Option Db := do
  let events ← flushEvents (db.events.rows.map fun row => if row.id = event.id then event else row)
  return { db with events := events }

end Additions

section Impact

def intervalSignatures (events : List AttendanceEvent) : List WorkInterval := pairEvents events

def changedEventDays (before after : List WorkInterval) (timestamps : List Timestamp) : List Int :=
  timestamps.map Timestamp.date ++
    (before.filter (· ∉ after) ++ after.filter (· ∉ before)).flatMap fun interval => (splitByDay interval).map Prod.fst

def monthsForDays (days : List Int) : List (Int × Nat) := (days.map yearMonth).dedup

/-- `ensure_days_have_no_status` raises exactly when this holds. -/
def daysHaveStatus (db : Db) (employmentId : Int) (days : List Int) : Prop :=
  (∃ row ∈ db.attendanceOf employmentId, row.date ∈ days ∧ row.status ≠ none) ∨
    ∃ plan ∈ db.plansOf employmentId, plan.date ∈ days ∧ plan.status ≠ none

instance (db : Db) (employmentId : Int) (days : List Int) : Decidable (daysHaveStatus db employmentId days) :=
  inferInstanceAs (Decidable (_ ∨ _))

end Impact

/-- After a commit the next request reads every event back from its instant. -/
def AttendanceEvent.reload (zone : Zone) (event : AttendanceEvent) : AttendanceEvent :=
  { event with occurredAt := zone.load event.occurredAt.utc }

theorem AttendanceEvent.reload_id (zone : Zone) (event : AttendanceEvent) : (event.reload zone).id = event.id := rfl

def commit (zone : Zone) (db : Db) : Db :=
  { db with events := db.events.mapRows (AttendanceEvent.reload zone) (AttendanceEvent.reload_id zone) }

end Dagmar
