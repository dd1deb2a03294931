import Dagmar.TimeIntervals
import Dagmar.IsoText

/-! Revision 0022: the two pairs of clock times of a day become events. A legacy row
says which time is an arrival and which a departure; an event does not. -/

namespace Dagmar.Migration
open Library.Outcome

/-- The columns of `attendance` that the revision converts and drops. -/
structure LegacyAttendance where
  employmentId : Int
  date : Int
  arrivalTime : Option ClockTime
  departureTime : Option ClockTime
  arrivalTime2 : Option ClockTime
  departureTime2 : Option ClockTime

def LegacyAttendance.intervals (row : LegacyAttendance) : List (Option ClockTime × Option ClockTime) :=
  [(row.arrivalTime, row.departureTime), (row.arrivalTime2, row.departureTime2)]

/-- A `RuntimeError` of the revision, or the `IntegrityError` of the unique constraint on events. -/
inductive MigrationError where
  | runtime (message : String)
  | integrity

section Upgrade
variable (zone : Zone)

/-- `_at`. -/
def legacyAt (date : Int) (value : ClockTime) : Timestamp := zone.attach (midnight date + value.minutes * minute)

def LegacyAttendance.refuse (row : LegacyAttendance) (condition : Prop) [Decidable condition] (complaint : String) :
    Except MigrationError Unit :=
  raiseIf condition (.runtime s!"Attendance {row.employmentId}/{String.ofList (isoDate row.date)} {complaint}")

/-- One row of an `INSERT`; the numbers come from the sequence of a new table. -/
def insertEvent (employmentId : Int) (occurredAt : Timestamp) (events : List AttendanceEvent) :
    Except MigrationError (List AttendanceEvent) := do
  raiseIf (∃ event ∈ events, event.employmentId = employmentId ∧ event.occurredAt.utc = occurredAt.utc) .integrity
  return events ++ [⟨events.length + 1, employmentId, zone.load occurredAt.utc⟩]

/-- The last time that was converted, and the events so far. -/
structure Progress where
  previous : Option Timestamp
  events : List AttendanceEvent

def migrateInterval (row : LegacyAttendance) (progress : Progress) (interval : Option ClockTime × Option ClockTime) :
    Except MigrationError Progress :=
  match interval with
  | (none, none) => return progress
  | (none, some _) => do
    row.refuse True "has an end without a start"
    return progress
  | (some start, finish) => do
    let startAt := legacyAt zone row.date start
    row.refuse (∃ previous ∈ progress.previous, startAt.wall ≤ previous.wall) "cannot be ordered in one day"
    match finish with
    | some finish => do
      let endAt := legacyAt zone row.date finish
      row.refuse (endAt.wall ≤ startAt.wall) "must end on the same day"
      row.refuse (∃ previous ∈ progress.previous, endAt.wall ≤ previous.wall) "cannot be ordered"
      let events ← insertEvent zone row.employmentId startAt progress.events
      let events ← insertEvent zone row.employmentId endAt events
      return ⟨some endAt, events⟩
    | none => do
      let events ← insertEvent zone row.employmentId startAt progress.events
      return ⟨some startAt, events⟩

def migrateRow (events : List AttendanceEvent) (row : LegacyAttendance) : Except MigrationError (List AttendanceEvent) := do
  let progress ← row.intervals.foldlM (migrateInterval zone row) ⟨none, events⟩
  return progress.events

/-- The `WHERE` of the rows that `upgrade` reads. -/
def LegacyAttendance.isTimed (row : LegacyAttendance) : Bool :=
  row.arrivalTime.isSome || row.departureTime.isSome || row.arrivalTime2.isSome || row.departureTime2.isSome

/-- The events that `upgrade` inserts into the new table. -/
def upgrade (rows : List LegacyAttendance) : Except MigrationError (List AttendanceEvent) :=
  (rows.filter LegacyAttendance.isTimed).foldlM (migrateRow zone) []

end Upgrade

section Meaning
variable (zone : Zone)

def intervalTimes (interval : Option ClockTime × Option ClockTime) : List ClockTime := interval.1.toList ++ interval.2.toList

/-- The times of the columns, in their order. -/
def LegacyAttendance.times (row : LegacyAttendance) : List ClockTime := row.intervals.flatMap intervalTimes

def legacyInterval (date : Int) : Option ClockTime × Option ClockTime → Option WorkInterval
  | (some start, some finish) => some ⟨(legacyAt zone date start).wall, (legacyAt zone date finish).wall⟩
  | _ => none

/-- The closed intervals of the row: each arrival with its own departure. -/
def LegacyAttendance.closed (row : LegacyAttendance) : List WorkInterval :=
  row.intervals.filterMap (legacyInterval zone row.date)

end Meaning

end Dagmar.Migration
