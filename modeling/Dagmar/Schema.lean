import Dagmar.PragueTime
import Dagmar.Text
import Dagmar.Library.Table
import Dagmar.Library.Outcome
import Mathlib.Data.Rat.Defs

/-! The rows of the database and what a request can raise. A row of a table with
a unique constraint is identified by its constrained columns; only events and
employments are referred to by number. -/

namespace Dagmar
open Library

inductive EmploymentType where
  | workContract
  | dppDpc
  | taskShiftBased
  | externalHourly
deriving DecidableEq, Repr

/-- The columns of an employment that a change of its time profile rewrites. -/
structure TimeProfile where
  workloadFraction : Option ℚ := none
  totalHoursEnabled : Bool := true
  automaticBreaksEnabled : Bool := false
  afternoonHoursEnabled : Bool := false
  afternoonStartMinutes : Option Int := none
  nightHoursEnabled : Bool := false
  weekendHoursEnabled : Bool := false
  publicHolidayHoursEnabled : Bool := false
deriving DecidableEq

structure Employment where
  id : Int
  userId : Int
  employmentType : EmploymentType
  profile : TimeProfile
  startDate : Int
  endDate : Option Int
deriving DecidableEq

structure PortalUser where
  id : Int
  isActive : Bool
  instanceId : Option String
deriving DecidableEq

structure AttendanceEvent where
  id : Int
  employmentId : Int
  occurredAt : Timestamp
deriving DecidableEq

inductive DayStatus where
  | holiday
  | off
  | sickness
  | paragraph
deriving DecidableEq, Repr

structure Attendance where
  employmentId : Int
  date : Int
  status : Option DayStatus
  instanceId : Option String
deriving DecidableEq

structure ShiftPlan where
  employmentId : Int
  date : Int
  arrivalTime : Option ClockTime
  departureTime : Option ClockTime
  status : Option DayStatus
  instanceId : Option String
deriving DecidableEq

inductive DailyMetricSource where
  | attendance
  | shiftPlan
deriving DecidableEq, Repr

structure EmploymentDailyTimeMetric where
  employmentId : Int
  metricDate : Int
  source : DailyMetricSource
  totalMinutes : Int
  totalTenths : Int
  afternoonMinutes : Option Int
  afternoonTenths : Option Int
  nightMinutes : Option Int
  nightTenths : Option Int
  weekendMinutes : Option Int
  weekendTenths : Option Int
  publicHolidayMinutes : Option Int
  publicHolidayTenths : Option Int
  calculationRevision : Int
deriving DecidableEq

/-- A row of `attendance_locks` or of `shift_plan_locks`. -/
structure MonthLock where
  employmentId : Int
  year : Int
  month : Nat
  instanceId : Option String
  lockedBy : Option String
deriving DecidableEq

structure ShiftPlanMonthInstance where
  year : Int
  month : Nat
  employmentId : Int
deriving DecidableEq

structure AttendanceReminderEvent where
  employmentId : Int
  attendanceDate : Int
  reminderType : String
  sequenceNo : Int
deriving DecidableEq

structure ShiftPlanAutoLockRun where
  year : Int
  month : Nat
  lockedCount : Nat
deriving DecidableEq

def Attendance.key (row : Attendance) : Int × Int := (row.employmentId, row.date)
def ShiftPlan.key (row : ShiftPlan) : Int × Int := (row.employmentId, row.date)
def MonthLock.key (row : MonthLock) : Int × Int × Nat := (row.employmentId, row.year, row.month)
def ShiftPlanMonthInstance.key (row : ShiftPlanMonthInstance) : Int × Nat × Int := (row.year, row.month, row.employmentId)
def ShiftPlanAutoLockRun.key (row : ShiftPlanAutoLockRun) : Int × Nat := (row.year, row.month)
def AttendanceReminderEvent.key (row : AttendanceReminderEvent) : Int × Int × String × Int :=
  (row.employmentId, row.attendanceDate, row.reminderType, row.sequenceNo)
def EmploymentDailyTimeMetric.key (row : EmploymentDailyTimeMetric) : Int × Int × DailyMetricSource :=
  (row.employmentId, row.metricDate, row.source)

structure Db where
  users : Table PortalUser PortalUser.id
  employments : Table Employment Employment.id
  events : Table AttendanceEvent AttendanceEvent.id
  attendance : Table Attendance Attendance.key
  shiftPlans : Table ShiftPlan ShiftPlan.key
  metrics : Table EmploymentDailyTimeMetric EmploymentDailyTimeMetric.key
  attendanceLocks : Table MonthLock MonthLock.key
  shiftPlanLocks : Table MonthLock MonthLock.key
  monthInstances : Table ShiftPlanMonthInstance ShiftPlanMonthInstance.key
  reminders : Table AttendanceReminderEvent AttendanceReminderEvent.key
  autoLockRuns : Table ShiftPlanAutoLockRun ShiftPlanAutoLockRun.key
  nextEventId : Int
  nextEmploymentId : Int

/-- A database with users and employments, and nothing recorded about them. -/
def Db.blank (users : Table PortalUser PortalUser.id) (employments : Table Employment Employment.id)
    (nextEmploymentId : Int) : Db :=
  ⟨users, employments, ∅, ∅, ∅, ∅, ∅, ∅, ∅, ∅, ∅, 1, nextEmploymentId⟩

/-- The values of the `params` of an error. -/
inductive Param where
  | text (value : String)
  | number (value : Int)
  | numbers (values : List Int)
  | date (value : Int)
  | status (value : DayStatus)
  | flag (value : Bool)
deriving DecidableEq

/-- What a request raises. `http` carries a plain detail, `invalid` is a body that
fails validation, and `uncaught` is an exception that no handler turns into an answer. -/
inductive ApiError where
  | api (status : Nat) (code message : String) (params : List (String × Param))
  | http (status : Nat) (detail : String)
  | invalid (message : String)
  | uncaught (exception : String)
deriving DecidableEq

abbrev Api := Except ApiError

def raiseApiError {α : Type} (status : Nat) (code message : String) : Api α := .error (.api status code message [])

/-- The events of one employment, in table order. -/
def Db.eventsOf (db : Db) (employmentId : Int) : List AttendanceEvent :=
  db.events.select (·.employmentId = employmentId)

def Db.plansOf (db : Db) (employmentId : Int) : List ShiftPlan := db.shiftPlans.select (·.employmentId = employmentId)

def Db.attendanceOf (db : Db) (employmentId : Int) : List Attendance :=
  db.attendance.select (·.employmentId = employmentId)

def Db.metricsOf (db : Db) (employmentId : Int) : List EmploymentDailyTimeMetric :=
  db.metrics.select (·.employmentId = employmentId)

@[simp] theorem Db.mem_eventsOf {db : Db} {employmentId : Int} {event : AttendanceEvent} :
    event ∈ db.eventsOf employmentId ↔ event ∈ db.events ∧ event.employmentId = employmentId := by
  simp [Db.eventsOf]

@[simp] theorem Db.mem_plansOf {db : Db} {employmentId : Int} {plan : ShiftPlan} :
    plan ∈ db.plansOf employmentId ↔ plan ∈ db.shiftPlans ∧ plan.employmentId = employmentId := by
  simp [Db.plansOf]

@[simp] theorem Db.mem_attendanceOf {db : Db} {employmentId : Int} {row : Attendance} :
    row ∈ db.attendanceOf employmentId ↔ row ∈ db.attendance ∧ row.employmentId = employmentId := by
  simp [Db.attendanceOf]

@[simp] theorem Db.mem_metricsOf {db : Db} {employmentId : Int} {row : EmploymentDailyTimeMetric} :
    row ∈ db.metricsOf employmentId ↔ row ∈ db.metrics ∧ row.employmentId = employmentId := by
  simp [Db.metricsOf]

/-- The unique constraint on employment and instant, and the primary key. -/
def flushEvents (rows : List AttendanceEvent) : Option (Table AttendanceEvent AttendanceEvent.id) :=
  if (rows.map fun event => (event.employmentId, event.occurredAt.utc)).Nodup then
    if unique : (rows.map AttendanceEvent.id).Nodup then some ⟨rows, unique⟩ else none
  else none

end Dagmar
