import Dagmar.Access

/-! Full-day statuses. Sickness and care leave stand in the attendance row of a
day, holiday and day off in its plan row, and either replaces what it conflicts with. -/

namespace Dagmar
open Library Library.Calendar Library.Outcome

structure DayStatusConflicts where
  attendanceExists : Bool
  shiftPlanExists : Bool
deriving DecidableEq

def DayStatusConflicts.hasConflicts (conflicts : DayStatusConflicts) : Bool :=
  conflicts.attendanceExists || conflicts.shiftPlanExists

def dayStatusConflictMessage : String :=
  "V tomto dni už existuje plán směny nebo docházka. Potvrzením budou stávající údaje smazány."

def DayStatusConflicts.toDetail (conflicts : DayStatusConflicts) (employmentId date : Int) (next : DayStatus) : ApiError :=
  .api 409 "day_status_conflict" dayStatusConflictMessage
    [("employment_id", .number employmentId), ("date", .date date), ("next_status", .status next),
      ("requires_confirmation", .flag true), ("attendance_exists", .flag conflicts.attendanceExists),
      ("shift_plan_exists", .flag conflicts.shiftPlanExists)]

def DayStatus.ofText : String → Option DayStatus
  | "HOLIDAY" => some .holiday
  | "OFF" => some .off
  | "SICKNESS" => some .sickness
  | "PARAGRAPH" => some .paragraph
  | _ => none

/-- The pattern of a status field: one of the allowed names, the empty text or null. -/
def checkStatusPattern (allowed : List DayStatus) : Option String → Api Unit
  | none => .ok ()
  | some "" => .ok ()
  | some text => raiseIf (¬ (DayStatus.ofText text).any (· ∈ allowed)) (.invalid "String should match pattern")

/-- `normalize_day_status`; the pattern has left only exact names and the empty text. -/
def normalizeDayStatus : Option String → Option (Option DayStatus)
  | none => some none
  | some text => (DayStatus.ofText text).map some

def dayStatusLabel : DayStatus → String
  | .holiday => "DOVOLENÁ"
  | .off => "VOLNO"
  | .sickness => "NEMOC"
  | .paragraph => "PARAGRAF"

/-- Holiday and day off belong to the plan. -/
def DayStatus.isPlan (status : DayStatus) : Bool := status = .holiday || status = .off

def getShiftPlanDay (db : Db) (employmentId date : Int) : Option ShiftPlan := db.shiftPlans.get (employmentId, date)

def getAttendanceDay (db : Db) (employmentId date : Int) : Option Attendance := db.attendance.get (employmentId, date)

def getDayStatus (db : Db) (employmentId date : Int) : Option DayStatus :=
  match (getAttendanceDay db employmentId date).bind Attendance.status with
  | some status => some status
  | none => (getShiftPlanDay db employmentId date).bind ShiftPlan.status

def conflictingShiftPlans (db : Db) (employmentId date : Int) : List ShiftPlan :=
  db.shiftPlans.select fun plan => plan.employmentId = employmentId ∧ plan.date = date

def conflictingShiftPlanMonths (db : Db) (employmentId date : Int) : List (Int × Nat) :=
  (conflictingShiftPlans db employmentId date).flatMap fun plan => shiftPlanMonths (some plan)

/-- Events on the day, and both ends of every pair that overlaps it. -/
def conflictingAttendanceEvents (db : Db) (employmentId date : Int) : List AttendanceEvent :=
  let events := db.eventsOf employmentId
  let dayStart := midnight date
  let dayEnd := midnight (date + 1)
  let overlapping := (pairEventRows events).filter fun pair =>
    pair.1.occurredAt.wall < dayEnd ∧ dayStart < pair.2.occurredAt.wall
  events.filter fun event =>
    dayStart ≤ event.occurredAt.wall ∧ event.occurredAt.wall < dayEnd ∨
      ∃ pair ∈ overlapping, event.id = pair.1.id ∨ event.id = pair.2.id

def dayStatusConflicts (db : Db) (employmentId date : Int) : DayStatusConflicts where
  attendanceExists := ((getAttendanceDay db employmentId date).bind Attendance.status).isSome ||
    conflictingAttendanceEvents db employmentId date ≠ []
  shiftPlanExists := conflictingShiftPlans db employmentId date ≠ []

/-- No day follows the last one of the calendar. -/
def collectDayStatusConflicts (db : Db) (employmentId date : Int) : Api DayStatusConflicts := do
  raiseIf (date = ordinal 9999 12 31) (.uncaught "OverflowError")
  return dayStatusConflicts db employmentId date

def setShiftPlanStatus (db : Db) (employment : Employment) (date : Int) (status : Option DayStatus)
    (confirmResetExistingPlan : Bool) (instanceId : Option String) : Api (DayStatusConflicts × Db) := do
  raiseIf (status.any fun status => !status.isPlan) (.uncaught "ValueError")
  let conflicts := dayStatusConflicts db employment.id date
  if status.isSome ∧ conflicts.shiftPlanExists ∧ ¬ confirmResetExistingPlan then return (conflicts, db)
  match status, getShiftPlanDay db employment.id date with
  | none, none => return (conflicts, db)
  | none, some plan =>
    if plan.arrivalTime = none ∧ plan.departureTime = none then
      return (conflicts, { db with shiftPlans := db.shiftPlans.deleteWhere (·.key = plan.key) })
    let cleared := { plan with status := none, instanceId := instanceId }
    return (conflicts, { db with shiftPlans := db.shiftPlans.put cleared })
  | some status, _ =>
    let plan : ShiftPlan := ⟨employment.id, date, none, none, some status, instanceId⟩
    return (conflicts, { db with shiftPlans := db.shiftPlans.put plan })

/-- Whether an event is stored between two midnights; the query compares instants. -/
def hasEventOnDay (zone : Zone) (db : Db) (employmentId date : Int) : Prop :=
  ∃ event ∈ db.eventsOf employmentId,
    zone.toUtc (midnight date) ≤ event.occurredAt.utc ∧ event.occurredAt.utc < zone.toUtc (midnight (date + 1))

instance (zone : Zone) (db : Db) (employmentId date : Int) : Decidable (hasEventOnDay zone db employmentId date) :=
  inferInstanceAs (Decidable (∃ event ∈ _, _))

def setAttendanceStatus (zone : Zone) (db : Db) (employment : Employment) (date : Int) (status : Option DayStatus)
    (confirmResetExistingAttendance : Bool) (instanceId : Option String) : Api (DayStatusConflicts × Db) := do
  raiseIf (status.any DayStatus.isPlan) (.uncaught "ValueError")
  let conflicts := dayStatusConflicts db employment.id date
  if status.isSome ∧ conflicts.attendanceExists ∧ ¬ confirmResetExistingAttendance then return (conflicts, db)
  match status, getAttendanceDay db employment.id date with
  | none, none => return (conflicts, db)
  | none, some attendance =>
    if hasEventOnDay zone db employment.id date then
      let cleared := { attendance with status := none, instanceId := instanceId }
      return (conflicts, { db with attendance := db.attendance.put cleared })
    return (conflicts, { db with attendance := db.attendance.deleteWhere (·.key = attendance.key) })
  | some status, _ =>
    let attendance : Attendance := ⟨employment.id, date, some status, instanceId⟩
    return (conflicts, { db with attendance := db.attendance.put attendance })

def replaceDayStatus (zone : Zone) (db : Db) (employment : Employment) (date : Int) (status : Option DayStatus)
    (confirmDeleteConflicts : Bool) (instanceId : Option String) : Api (DayStatusConflicts × Db) := do
  let conflicts := dayStatusConflicts db employment.id date
  let current := getDayStatus db employment.id date
  if status.isSome ∧ status ≠ current ∧ conflicts.hasConflicts ∧ ¬ confirmDeleteConflicts then return (conflicts, db)
  match status with
  | none =>
    let (_, db) ← setAttendanceStatus zone db employment date none true instanceId
    let (_, db) ← setShiftPlanStatus db employment date none true instanceId
    return (conflicts, db)
  | some status =>
    let removed := conflictingAttendanceEvents db employment.id date
    let db := { db with events := db.events.deleteWhere (· ∈ removed) }
    if status.isPlan then
      let db := { db with attendance := db.attendance.deleteWhere (·.key = (employment.id, date)) }
      let (_, db) ← setShiftPlanStatus db employment date (some status) true instanceId
      return (conflicts, db)
    else
      let db := { db with shiftPlans := db.shiftPlans.deleteWhere (·.key = (employment.id, date)) }
      let (_, db) ← setAttendanceStatus zone db employment date (some status) true instanceId
      return (conflicts, db)

end Dagmar
