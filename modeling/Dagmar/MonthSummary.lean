import Dagmar.TimeMetrics

/-! The summary of one employment and month, from the raw facts or from the
metric rows stored for them. -/

namespace Dagmar
open Library.Calendar

inductive WorkedState where
  | complete
  | incomplete
  | empty
deriving DecidableEq, Repr

inductive PlannedState where
  | complete
  | empty
deriving DecidableEq, Repr

structure DaySummary where
  date : Int
  attendance : Option Attendance
  plan : Option ShiftPlan
  effectiveStatus : Option DayStatus
  worked : Option DailyMetrics
  planned : Option DailyMetrics
  workedState : WorkedState
  plannedState : PlannedState
  statusMetrics : DayStatusMetrics
deriving DecidableEq

/-- Monthly sums under the keys `total`, `afternoon`, `night`, `weekend` and `public_holiday`. -/
structure MonthMetrics where
  total : Option MetricValue
  afternoon : Option MetricValue
  night : Option MetricValue
  weekend : Option MetricValue
  publicHoliday : Option MetricValue
deriving DecidableEq, Repr

structure MonthSummary where
  daySummaries : List DaySummary
  worked : Option MonthMetrics
  planned : Option MonthMetrics
  statusMetrics : DayStatusMetrics
deriving DecidableEq

/-- The first day of a month and of the next one; `none` is a `ValueError`. -/
def monthRange (year : Int) (month : Nat) : Option (Int × Int) := do
  let start ← date? year month 1
  let finish ← if month = 12 then date? (year + 1) 1 1 else date? year (month + 1) 1
  return (start, finish)

def sumMetrics {α : Type} (values : List α) (key : α → Option MetricValue) : Option MetricValue :=
  match values.filterMap key with
  | [] => none
  | items => some ⟨(items.map MetricValue.minutes).sum, (items.map MetricValue.tenths).sum⟩

def monthMetrics (values : List DailyMetrics) : Option MonthMetrics :=
  match values with
  | [] => none
  | values => some {
      total := sumMetrics values (some ∘ DailyMetrics.total)
      afternoon := sumMetrics values DailyMetrics.afternoon
      night := sumMetrics values DailyMetrics.night
      weekend := sumMetrics values DailyMetrics.weekend
      publicHoliday := sumMetrics values DailyMetrics.publicHoliday }

/-- Both columns of a metric, or no metric. -/
def storedValue (minutes tenths : Option Int) : Option MetricValue :=
  match minutes, tenths with
  | some minutes, some tenths => some ⟨minutes, tenths⟩
  | _, _ => none

def storedMetrics (row : Option EmploymentDailyTimeMetric) (employment : Employment) : Option DailyMetrics :=
  match row with
  | none => emptyDailyMetrics employment
  | some row => some {
      total := ⟨row.totalMinutes, row.totalTenths⟩
      afternoon := storedValue row.afternoonMinutes row.afternoonTenths
      night := storedValue row.nightMinutes row.nightTenths
      weekend := storedValue row.weekendMinutes row.weekendTenths
      publicHoliday := storedValue row.publicHolidayMinutes row.publicHolidayTenths }

def workedState (events : List AttendanceEvent) (date : Int) : WorkedState :=
  let dayEvents := events.filter (·.occurredAt.date = date)
  if dayEvents = [] then .empty
  else if ∀ event ∈ dayEvents, event.id ∈ pairedEventIds events then .complete else .incomplete

def plannedState (planned : Option DailyMetrics) : PlannedState :=
  match planned with
  | none => .empty
  | some metrics => if metrics.total.minutes = 0 then .empty else .complete

def effectiveStatus (attendance : Option Attendance) (plan : Option ShiftPlan) : Option DayStatus :=
  match attendance.bind Attendance.status with
  | some status => some status
  | none => plan.bind ShiftPlan.status

/-- The plans of an employment in a half-open run of days. -/
def Db.plansBetween (db : Db) (employmentId start finish : Int) : List ShiftPlan :=
  db.shiftPlans.select fun plan => plan.employmentId = employmentId ∧ start ≤ plan.date ∧ plan.date < finish

def daySummary (db : Db) (employment : Employment) (start finish : Int) (usePersisted : Bool) (date : Int) : DaySummary :=
  let events := db.eventsOf employment.id
  let attendance := db.attendance.get (employment.id, date)
  let plan := db.shiftPlans.get (employment.id, date)
  let worked :=
    if usePersisted then storedMetrics (db.metrics.get (employment.id, date, .attendance)) employment
    else calculateDailyMetrics employment date (pairEvents events)
  let planned :=
    if usePersisted then storedMetrics (db.metrics.get (employment.id, date, .shiftPlan)) employment
    else calculateDailyMetrics employment date (shiftPlanIntervals (db.plansBetween employment.id start finish))
  { date := date
    attendance := attendance
    plan := plan
    effectiveStatus := effectiveStatus attendance plan
    worked := worked
    planned := planned
    workedState := workedState events date
    plannedState := plannedState planned
    statusMetrics := calculateDayStatusMetrics employment (effectiveStatus attendance plan) }

def monthDays (start finish : Int) : List Int :=
  (List.range (finish - start).toNat).map fun (offset : Nat) => start + offset

def monthSummary (days : List DaySummary) : MonthSummary :=
  { daySummaries := days
    worked := monthMetrics (days.filterMap DaySummary.worked)
    planned := monthMetrics (days.filterMap DaySummary.planned)
    statusMetrics := {
      holiday := sumMetrics (days.map DaySummary.statusMetrics) DayStatusMetrics.holiday
      sickness := sumMetrics (days.map DaySummary.statusMetrics) DayStatusMetrics.sickness
      paragraph := sumMetrics (days.map DaySummary.statusMetrics) DayStatusMetrics.paragraph } }

/-- The summaries by employment number. -/
def buildMonthSummaries (db : Db) (employments : List Employment) (year : Int) (month : Nat) (usePersisted : Bool) :
    Option (List (Int × MonthSummary)) := do
  let (start, finish) ← monthRange year month
  return employments.map fun employment =>
    (employment.id, monthSummary ((monthDays start finish).map (daySummary db employment start finish usePersisted)))

def buildMonthSummary (db : Db) (employment : Employment) (year : Int) (month : Nat) (usePersisted : Bool) :
    Option MonthSummary := do
  let summaries ← buildMonthSummaries db [employment] year month usePersisted
  summaries.lookup employment.id

end Dagmar
