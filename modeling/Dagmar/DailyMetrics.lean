import Dagmar.MonthSummary

/-! The stored daily metrics: how a month of them is written from the facts, and
the script that rebuilds the whole table. -/

namespace Dagmar
open Library Library.Calendar Library.Outcome

def calculationRevision : Int := 2

/-- Whether attendance facts and plan facts exist anywhere in the month. -/
def monthSummarySourcePresence (summary : MonthSummary) : Bool × Bool :=
  (summary.daySummaries.any fun day =>
      day.attendance.isSome || day.workedState ≠ .empty || day.worked.any fun worked => 0 < worked.total.minutes,
    summary.daySummaries.any fun day =>
      day.plan.isSome || day.plannedState ≠ .empty || day.planned.any fun planned => 0 < planned.total.minutes)

/-- `_row`, and `_metric_row` of the script. -/
def metricRow (employmentId metricDate : Int) (source : DailyMetricSource) (metrics : DailyMetrics) :
    EmploymentDailyTimeMetric where
  employmentId := employmentId
  metricDate := metricDate
  source := source
  totalMinutes := metrics.total.minutes
  totalTenths := metrics.total.tenths
  afternoonMinutes := metrics.afternoon.map MetricValue.minutes
  afternoonTenths := metrics.afternoon.map MetricValue.tenths
  nightMinutes := metrics.night.map MetricValue.minutes
  nightTenths := metrics.night.map MetricValue.tenths
  weekendMinutes := metrics.weekend.map MetricValue.minutes
  weekendTenths := metrics.weekend.map MetricValue.tenths
  publicHolidayMinutes := metrics.publicHoliday.map MetricValue.minutes
  publicHolidayTenths := metrics.publicHoliday.map MetricValue.tenths
  calculationRevision := calculationRevision

/-- The rows of one day of a summary. -/
def dayRows (employmentId : Int) (presence : Bool × Bool) (summary : DaySummary) : List EmploymentDailyTimeMetric :=
  (if presence.1 then summary.worked.toList.map (metricRow employmentId summary.date .attendance) else []) ++
    (if presence.2 then summary.planned.toList.map (metricRow employmentId summary.date .shiftPlan) else [])

def summaryRows (employmentId : Int) (summary : MonthSummary) : List EmploymentDailyTimeMetric :=
  summary.daySummaries.flatMap (dayRows employmentId (monthSummarySourcePresence summary))

/-- The rows that the facts and the profile ask for in a month. -/
def monthRows (db : Db) (employment : Employment) (month : Int × Nat) : List EmploymentDailyTimeMetric :=
  match buildMonthSummary db employment month.1 month.2 false with
  | some summary => summaryRows employment.id summary
  | none => []

def syncEmploymentMonthMetrics (db : Db) (employment : Employment) (year : Int) (month : Nat) : Api Db := do
  let (start, finish) ← require (monthRange year month) (.uncaught "ValueError")
  let kept := db.metrics.deleteWhere fun row =>
    row.employmentId = employment.id ∧ start ≤ row.metricDate ∧ row.metricDate < finish
  let summary ← require (buildMonthSummary db employment year month false) (.uncaught "ValueError")
  let metrics ← require (kept.insertAll (summaryRows employment.id summary)) (.uncaught "IntegrityError")
  return { db with metrics := metrics }

def monthLe (left right : Int × Nat) : Prop := left.1 < right.1 ∨ left.1 = right.1 ∧ left.2 ≤ right.2

instance : DecidableRel monthLe := fun _ _ => inferInstanceAs (Decidable (_ ∨ _))

/-- The set of months is visited in order. -/
def syncEmploymentMetricMonths (db : Db) (employment : Employment) (months : List (Int × Nat)) : Api Db :=
  (months.dedup.insertionSort monthLe).foldlM
    (fun db month => syncEmploymentMonthMetrics db employment month.1 month.2) db

/-- Every day with a fact of the employment. -/
def factDates (db : Db) (employmentId : Int) : List Int :=
  let events := db.eventsOf employmentId
  let plans := db.plansOf employmentId
  events.map (·.occurredAt.date) ++
    (pairEvents events).flatMap (fun interval => (splitByDay interval).map Prod.fst) ++
    (db.attendanceOf employmentId).map Attendance.date ++ plans.map ShiftPlan.date ++
    (shiftPlanIntervals plans).flatMap fun interval => (splitByDay interval).map Prod.fst

def factMonths (db : Db) (employmentId : Int) : List (Int × Nat) := (factDates db employmentId).map yearMonth

def syncEmploymentMetrics (db : Db) (employment : Employment) : Api Db :=
  let months := factMonths db employment.id
  let kept := db.metrics.deleteWhere fun row =>
    row.employmentId = employment.id ∧ yearMonth row.metricDate ∉ months
  syncEmploymentMetricMonths { db with metrics := kept } employment months

section Rebuild

/-- The expected metrics of one month by day and source, under the presence rule. -/
def expectedOfMonth (summary : MonthSummary) : List ((Int × DailyMetricSource) × DailyMetrics) :=
  let presence := monthSummarySourcePresence summary
  (if presence.1 then summary.daySummaries.filterMap fun day => day.worked.map ((day.date, .attendance), ·) else []) ++
    (if presence.2 then summary.daySummaries.filterMap fun day => day.planned.map ((day.date, .shiftPlan), ·) else [])

def expectedMetrics (db : Db) (employment : Employment) : Option (List ((Int × DailyMetricSource) × DailyMetrics)) := do
  let parts ← (factMonths db employment.id).dedup.mapM fun month => do
    let summaries ← buildMonthSummaries db [employment] month.1 month.2 false
    let summary ← summaries.lookup employment.id
    return expectedOfMonth summary
  return parts.flatten

/-- Write one expected metric over the row under its key, counting a difference. -/
def rebuildKey (apply : Bool) (employmentId : Int) (state : Nat × Db)
    (expected : (Int × DailyMetricSource) × DailyMetrics) : Nat × Db :=
  let row := state.2.metrics.get (employmentId, expected.1.1, expected.1.2)
  let expectedRow := metricRow employmentId expected.1.1 expected.1.2 expected.2
  if row = some expectedRow then state
  else (state.1 + 1, if apply then { state.2 with metrics := state.2.metrics.put expectedRow } else state.2)

/-- The keys of the rows are compared by value. -/
instance : LawfulBEq (Int × DailyMetricSource) := inferInstance

def rebuildEmployment (apply : Bool) (state : Nat × Db) (employment : Employment) : Option (Nat × Db) := do
  let (changed, db) := state
  let existing := db.metricsOf employment.id
  if factDates db employment.id = [] then
    return (changed + existing.length,
      if apply then { db with metrics := db.metrics.deleteWhere (·.employmentId = employment.id) } else db)
  else
    let expected ← expectedMetrics db employment
    let unexpected := fun (row : EmploymentDailyTimeMetric) => (row.metricDate, row.source) ∉ expected.map Prod.fst
    let changed := changed + (existing.filter fun row => unexpected row).length
    let db :=
      if apply then { db with metrics := db.metrics.deleteWhere fun row =>
        row.employmentId = employment.id ∧ unexpected row } else db
    return expected.foldl (rebuildKey apply employment.id) (changed, db)

/-- The number of changes and the database left behind; `none` is an exception. -/
def rebuild (apply : Bool) (db : Db) : Option (Nat × Db) :=
  db.employments.rows.foldlM (rebuildEmployment apply) (0, db)

end Rebuild

end Dagmar
