import Dagmar.IntegrationLists

/-! What the portal is shown of a month of one employment. Dates stand for their ISO
texts, and hours are exact. -/

namespace Dagmar.Payloads
open Library Library.Calendar Integration

section Metrics

inductive MetricKey where
  | total
  | afternoon
  | night
  | weekend
  | publicHoliday
deriving DecidableEq, Repr

/-- The only metric columns a client may render for an employment. -/
def displayMetricsForEmployment (employment : Employment) : List MetricKey :=
  if employment.employmentType = .taskShiftBased then []
  else
    (if employment.profile.totalHoursEnabled then [.total] else []) ++
      (([(.afternoon, employment.profile.afternoonHoursEnabled), (.night, employment.profile.nightHoursEnabled),
        (.weekend, employment.profile.weekendHoursEnabled),
        (.publicHoliday, employment.profile.publicHolidayHoursEnabled)] : List (MetricKey × Bool)).filter Prod.snd).map Prod.fst

def hours (value : MetricValue) : ℚ := value.tenths / 10

structure MetricOut where
  minutes : Int
  tenths : Int
  hours : ℚ
  clock : String
deriving DecidableEq

/-- The values under the five keys of a metric. -/
structure MetricsOut where
  total : Option MetricOut
  afternoon : Option MetricOut
  night : Option MetricOut
  weekend : Option MetricOut
  publicHoliday : Option MetricOut
deriving DecidableEq

structure StatusMetricsOut where
  holiday : Option MetricOut
  sickness : Option MetricOut
  paragraph : Option MetricOut
deriving DecidableEq

def metricOut (value : MetricValue) : MetricOut :=
  ⟨value.minutes, value.tenths, hours value,
    toString (value.minutes / 60) ++ ":" ++ String.ofList (padded 2 (value.minutes % 60).toNat)⟩

def metricsOut (metrics : DailyMetrics) : MetricsOut :=
  ⟨some (metricOut metrics.total), metrics.afternoon.map metricOut, metrics.night.map metricOut,
    metrics.weekend.map metricOut, metrics.publicHoliday.map metricOut⟩

def monthMetricsOut (metrics : MonthMetrics) : MetricsOut :=
  ⟨metrics.total.map metricOut, metrics.afternoon.map metricOut, metrics.night.map metricOut,
    metrics.weekend.map metricOut, metrics.publicHoliday.map metricOut⟩

def statusMetricsOut (metrics : DayStatusMetrics) : StatusMetricsOut :=
  ⟨metrics.holiday.map metricOut, metrics.sickness.map metricOut, metrics.paragraph.map metricOut⟩

end Metrics

section Planned

/-- Scheduling duration is visible even when the profile hides hourly metrics. -/
def plannedMinutes (day : DaySummary) : Int := ((day.plan.bind shiftPlanInterval).map WorkInterval.minutes).getD 0

def plannedHours (day : DaySummary) : ℚ := hours (metricValue (plannedMinutes day))

def monthPlannedMinutes (summary : MonthSummary) : Int := (summary.daySummaries.map plannedMinutes).sum

def monthPlannedHours (summary : MonthSummary) : ℚ :=
  (summary.daySummaries.map fun day => (metricValue (plannedMinutes day)).tenths).sum / 10

end Planned

section Attendance

/-- The order of a query: by the stored instant, then by the number. -/
def storedLe (left right : AttendanceEvent) : Prop :=
  left.occurredAt.utc < right.occurredAt.utc ∨ left.occurredAt.utc = right.occurredAt.utc ∧ left.id ≤ right.id

instance : DecidableRel storedLe := fun _ _ => inferInstanceAs (Decidable (_ ∨ _))

/-- The events of a month, with the last one before it and the first one after it. -/
def dayEvents (zone : Zone) (db : Db) (employmentId start finish : Int) : List AttendanceEvent :=
  let stored := (db.eventsOf employmentId).insertionSort storedLe
  let rangeStart := zone.toUtc (midnight start)
  let rangeEnd := zone.toUtc (midnight finish)
  let previous := (stored.filter (·.occurredAt.utc < rangeStart)).getLast?
  let current := stored.filter fun event => rangeStart ≤ event.occurredAt.utc ∧ event.occurredAt.utc < rangeEnd
  let following := (stored.filter (rangeEnd ≤ ·.occurredAt.utc)).head?
  previous.toList ++ current ++ following.toList

/-- Each event with the next one, when that is of the same day. -/
def deletionPartners (events : List AttendanceEvent) : List (Int × Int) :=
  let ordered := orderedEvents events
  (ordered.zip ordered.tail).filterMap fun pair =>
    if pair.1.occurredAt.date = pair.2.occurredAt.date then some (pair.1.id, pair.2.id) else none

structure AttendanceEventOut where
  id : Int
  employmentId : Int
  occurredAt : String
  deletionPartnerId : Option Int
deriving DecidableEq

inductive Tone where
  | holiday
  | weekend
  | work
deriving DecidableEq, Repr

structure AttendanceDayOut where
  date : Int
  events : List AttendanceEventOut
  attendanceStatus : Option DayStatus
  effectiveStatus : Option DayStatus
  plannedArrivalTime : Option ClockTime
  plannedDepartureTime : Option ClockTime
  plannedStatus : Option DayStatus
  calendarTone : Tone
  publicHolidayLabel : Option String
  isWithinEmploymentPeriod : Bool
  worked : Option MetricsOut
  planned : Option MetricsOut
  statusMetrics : StatusMetricsOut
  workedState : WorkedState
  plannedState : PlannedState
deriving DecidableEq

structure AttendanceMonthOut where
  plannedHours : ℚ
  employmentId : Int
  employmentLabel : String
  displayMetrics : List MetricKey
  days : List AttendanceDayOut
  worked : Option MetricsOut
  planned : Option MetricsOut
  statusMetrics : StatusMetricsOut
  attendanceLocked : Bool
  shiftPlanLocked : Bool
deriving DecidableEq

def fixedHolidayLabels : List ((Nat × Int) × String) :=
  [((1, 1), "Nový rok / Den obnovy samostatného českého státu"), ((5, 1), "Svátek práce"), ((5, 8), "Den vítězství"),
    ((7, 5), "Den slovanských věrozvěstů Cyrila a Metoděje"), ((7, 6), "Den upálení mistra Jana Husa"),
    ((9, 28), "Den české státnosti"), ((10, 28), "Den vzniku samostatného československého státu"),
    ((11, 17), "Den boje za svobodu a demokracii a Mezinárodní den studentstva"), ((12, 24), "Štědrý den"),
    ((12, 25), "1. svátek vánoční"), ((12, 26), "2. svátek vánoční")]

def czechPublicHolidayLabel (date : Int) : Option String :=
  match fixedHolidayLabels.lookup (monthOf date, dayOf date) with
  | some fixed => some fixed
  | none =>
    if date = easterSunday (yearOf date) - 2 then some "Velký pátek"
    else if date = easterSunday (yearOf date) + 1 then some "Velikonoční pondělí"
    else none

def isWithinPeriod (employment : Employment) (date : Int) : Bool := decide (employmentIsValidOnDay employment date)

def attendanceEventOut (zone : Zone) (partners : List (Int × Int)) (event : AttendanceEvent) : AttendanceEventOut :=
  let shown := zone.load event.occurredAt.utc
  ⟨event.id, event.employmentId, isoformat shown.wall (shown.wall - shown.utc), partners.lookup event.id⟩

def attendanceDayOut (zone : Zone) (employment : Employment) (events : List AttendanceEvent) (partners : List (Int × Int))
    (plan : Option ShiftPlan) (summary : DaySummary) (date : Int) : AttendanceDayOut :=
  let status := summary.attendance.bind Attendance.status
  let label := czechPublicHolidayLabel date
  { date := date
    events := (events.filter (·.occurredAt.date = date)).map (attendanceEventOut zone partners)
    attendanceStatus := status
    effectiveStatus := status.or (plan.bind ShiftPlan.status)
    plannedArrivalTime := plan.bind ShiftPlan.arrivalTime
    plannedDepartureTime := plan.bind ShiftPlan.departureTime
    plannedStatus := plan.bind ShiftPlan.status
    calendarTone := if label.isSome then .holiday else if 5 ≤ weekday date then .weekend else .work
    publicHolidayLabel := label
    isWithinEmploymentPeriod := isWithinPeriod employment date
    worked := summary.worked.map metricsOut
    planned := summary.planned.map metricsOut
    statusMetrics := statusMetricsOut summary.statusMetrics
    workedState := summary.workedState
    plannedState := summary.plannedState }

/-- The summary of a day under its date; `none` is a `KeyError`. -/
def summaryOn (summary : MonthSummary) (date : Int) : Option DaySummary := summary.daySummaries.find? (·.date = date)

/-- `_build_month` of the attendance; `none` is an exception. -/
def buildMonth (zone : Zone) (view : View) (employment : Employment) (year : Int) (month : Nat) : Option AttendanceMonthOut := do
  let (start, finish) ← monthRange year month
  let events := dayEvents zone view.db employment.id start finish
  let plans := view.db.plansBetween employment.id start finish
  let summary ← buildMonthSummary view.db employment year month false
  let partners := deletionPartners events
  let days ← (monthDays start finish).mapM fun date => do
    let daySummary ← summaryOn summary date
    return attendanceDayOut zone employment events partners (plans.find? (·.date = date)) daySummary date
  return {
    plannedHours := monthPlannedHours summary
    employmentId := employment.id
    employmentLabel := employmentLabel view employment
    displayMetrics := displayMetricsForEmployment employment
    days := days
    worked := summary.worked.map monthMetricsOut
    planned := summary.planned.map monthMetricsOut
    statusMetrics := statusMetricsOut summary.statusMetrics
    attendanceLocked := isMonthLocked view.db .attendance employment.id (year, month)
    shiftPlanLocked := isMonthLocked view.db .shiftPlan employment.id (year, month) }

/-- `get_month_attendance`. -/
def getMonthAttendance (zone : Zone) (view : View) (auth : PortalUserAuth) (employmentId year : Int) (month : Nat) :
    Api AttendanceMonthOut := do
  Outcome.raiseIf (employmentId < 1 ∨ year < 2000 ∨ 2100 < year ∨ month < 1 ∨ 12 < month) (.invalid "Input out of range")
  let employment ← portalEmployment view.db auth employmentId
  let (start, finish) ← Outcome.require (monthRange year month) (.uncaught "ValueError")
  Outcome.raiseIf (¬ employmentOverlapsMonth employment start finish)
    (.api 404 "employment_not_active_in_month" "Úvazek není ve zvoleném měsíci aktivní." [])
  Outcome.require (buildMonth zone view employment year month) (.uncaught "KeyError")

end Attendance

end Dagmar.Payloads
