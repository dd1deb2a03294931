import Dagmar.EmploymentGroups
import Dagmar.MonthPayloads

/-! The shift plans of a month, as a group, the administration and the printed report
are shown them. -/

namespace Dagmar.Payloads
open Library Library.Calendar Library.Outcome Integration Groups

section Days

/-- `GroupShiftPlanDayOut`, and `ShiftPlanDayOut` of the administration. -/
structure ShiftPlanDayOut where
  date : Int
  arrivalTime : Option ClockTime
  departureTime : Option ClockTime
  status : Option DayStatus
  effectiveStatus : Option DayStatus
  isWithinEmploymentPeriod : Bool
  plannedMinutes : Int
  plannedHours : ℚ
  plannedState : PlannedState
  planned : Option MetricsOut
  statusMetrics : StatusMetricsOut
deriving DecidableEq

def shiftPlanDayOut (employment : Employment) (plan : Option ShiftPlan) (summary : DaySummary) (date : Int) : ShiftPlanDayOut where
  date := date
  arrivalTime := plan.bind ShiftPlan.arrivalTime
  departureTime := plan.bind ShiftPlan.departureTime
  status := plan.bind ShiftPlan.status
  effectiveStatus := summary.effectiveStatus
  isWithinEmploymentPeriod := isWithinPeriod employment date
  plannedMinutes := Payloads.plannedMinutes summary
  plannedHours := Payloads.plannedHours summary
  plannedState := summary.plannedState
  planned := summary.planned.map metricsOut
  statusMetrics := statusMetricsOut summary.statusMetrics

/-- The plans of some employments in a month, and the one of a day among them. -/
def monthPlans (db : Db) (ids : List Int) (start finish : Int) : List ShiftPlan :=
  db.shiftPlans.select fun plan => plan.employmentId ∈ ids ∧ start ≤ plan.date ∧ plan.date < finish

def planOn (plans : List ShiftPlan) (employmentId date : Int) : Option ShiftPlan :=
  plans.find? fun plan => plan.employmentId = employmentId ∧ plan.date = date

def isScheduled (plan : Option ShiftPlan) : Bool := plan.any fun plan => plan.arrivalTime.isSome && plan.departureTime.isSome

end Days

section Group

structure GroupShiftPlanRowOut where
  employmentId : Int
  displayLabel : String
  isOwnEmployment : Bool
  shiftPlanLocked : Bool
  displayMetrics : List MetricKey
  days : List ShiftPlanDayOut
  plannedMinutes : Int
  plannedHours : ℚ
  planned : Option MetricsOut
  statusMetrics : StatusMetricsOut

structure GroupShiftPlanMonthOut where
  groupId : Int
  groupName : String
  year : Int
  month : Nat
  rows : List GroupShiftPlanRowOut

/-- The members of a group that are active in a month, through their employments. -/
def activeMembers (store : GroupStore) (groupId start finish : Int) : List Employment :=
  ((store.membersOf groupId).filterMap fun member => store.db.employments.get member.employmentId).filter fun employment =>
    userIsActive store.db employment ∧ employmentOverlapsMonth employment start finish

def accessibleGroup (store : GroupStore) (auth : PortalUserAuth) (groupId start finish : Int) : Api EmploymentGroup := do
  let group ← require (store.groups.get groupId) (.api 404 "group_not_found" "Skupina nebyla nalezena." [])
  raiseIf (¬ (store.db.users.get auth.userId).any PortalUser.isActive ∨
      ¬ ∃ employment ∈ activeMembers store groupId start finish, employment.userId = auth.userId)
    (.api 404 "group_not_found" "Skupina nebyla nalezena." [])
  return group

/-- `(employment.user.name.lower(), employment_id)`. -/
def memberLe (casing : Casing) (view : View) (left right : Employment) : Prop :=
  let name (employment : Employment) := casing.lower ((view.userName employment).getD "")
  name left < name right ∨ name left = name right ∧ left.id ≤ right.id

instance (casing : Casing) (view : View) : DecidableRel (memberLe casing view) := fun _ _ => inferInstanceAs (Decidable (_ ∨ _))

def groupRow (view : View) (auth : PortalUserAuth) (plans : List ShiftPlan) (year : Int) (month : Nat) (days : List Int)
    (summaries : List (Int × MonthSummary)) (employment : Employment) : Option GroupShiftPlanRowOut := do
  let summary ← summaries.lookup employment.id
  let daysOut ← days.mapM fun date =>
    (summaryOn summary date).map fun daySummary =>
      shiftPlanDayOut employment (planOn plans employment.id date) daySummary date
  return {
    employmentId := employment.id
    displayLabel := employmentLabel view employment
    isOwnEmployment := employment.userId = auth.userId
    shiftPlanLocked := isMonthLocked view.db .shiftPlan employment.id (year, month)
    displayMetrics := displayMetricsForEmployment employment
    days := daysOut
    plannedMinutes := monthPlannedMinutes summary
    plannedHours := monthPlannedHours summary
    planned := summary.planned.map monthMetricsOut
    statusMetrics := statusMetricsOut summary.statusMetrics }

/-- `portal_get_group_shift_plan_month`. -/
def getGroupShiftPlanMonth (casing : Casing) (clock : Clock) (columns : Columns) (store : GroupStore) (auth : PortalUserAuth)
    (groupId year : Int) (month : Nat) : Api GroupShiftPlanMonthOut := do
  let view : View := ⟨clock, store.db, columns⟩
  raiseIf (year < 2000 ∨ 2100 < year ∨ month < 1 ∨ 12 < month) (.api 400 "invalid_month" "Neplatný měsíc." [])
  let (start, finish) ← require (monthRange year month) (.uncaught "ValueError")
  let group ← accessibleGroup store auth groupId start finish
  let members := activeMembers store groupId start finish
  let plans := monthPlans store.db (members.map Employment.id) start finish
  let summaries ← require (buildMonthSummaries store.db members year month false) (.uncaught "ValueError")
  let rows ← require ((members.insertionSort (memberLe casing view)).mapM
    (groupRow view auth plans year month (monthDays start finish) summaries)) (.uncaught "KeyError")
  return ⟨group.id, group.name, year, month, rows⟩

structure GroupOptionOut where
  id : Int
  name : String
deriving DecidableEq

/-- The joined rows of the query: a group once for each member it has among the active employments of an account. -/
def joinedGroups (store : GroupStore) (userId start finish : Int) : List EmploymentGroup :=
  store.groups.rows.flatMap fun group =>
    (store.membersOf group.id).flatMap fun member =>
      (store.db.employments.select fun employment =>
        employment.id = member.employmentId ∧ employment.userId = userId ∧ employment.startDate < finish ∧
          (employment.endDate = none ∨ employment.endDate.any (start ≤ ·))).flatMap fun employment =>
        (store.db.users.select fun user => user.id = employment.userId ∧ user.isActive = true).map fun _ => group

/-- `ORDER BY name, id`, under the collation of the database. -/
def groupLe (collate : String → String → Bool) (left right : EmploymentGroup) : Prop :=
  collate left.name right.name ∧ (¬ collate right.name left.name ∨ left.id ≤ right.id)

instance (collate : String → String → Bool) : DecidableRel (groupLe collate) := fun _ _ => inferInstanceAs (Decidable (_ ∧ _))

def portalListShiftPlanGroups (collate : String → String → Bool) (store : GroupStore) (auth : PortalUserAuth) (year : Int)
    (month : Nat) : Api (List GroupOptionOut) := do
  raiseIf (year < 2000 ∨ 2100 < year ∨ month < 1 ∨ 12 < month) (.api 400 "invalid_month" "Neplatný měsíc." [])
  let (start, finish) ← require (monthRange year month) (.uncaught "ValueError")
  let groups := (joinedGroups store auth.userId start finish).dedup.insertionSort (groupLe collate)
  return groups.map fun group => ⟨group.id, group.name⟩

end Group

section Admin

structure ActiveEmploymentOut where
  id : Int
  userId : Int
  userName : String
  title : String
  employmentType : String
  displayLabel : String
  startDate : Int
  endDate : Option Int
  isActive : Bool
  userIsActive : Bool
  isActiveInMonth : Bool

structure ShiftPlanSummaryOut where
  plannedMinutes : Int
  plannedHours : ℚ
  scheduledDays : Nat
  holidayDays : Nat
  offDays : Nat
  planned : Option MetricsOut
  statusMetrics : StatusMetricsOut

structure ShiftPlanRowOut where
  employmentId : Int
  userId : Int
  userName : String
  title : String
  employmentType : String
  displayLabel : String
  startDate : Int
  endDate : Option Int
  isActiveInMonth : Bool
  shiftPlanLocked : Bool
  attendanceLocked : Bool
  displayMetrics : List MetricKey
  days : List ShiftPlanDayOut
  summary : ShiftPlanSummaryOut

structure ShiftPlanMonthOut where
  year : Int
  month : Nat
  selectedEmploymentIds : List Int
  availableEmployments : List ActiveEmploymentOut
  rows : List ShiftPlanRowOut

def shownUserName (view : View) (employment : Employment) : String :=
  (view.userName employment).getD ("Uživatel " ++ toString employment.userId)

def employmentIsActiveInMonth (db : Db) (employment : Employment) (start finish : Int) : Bool :=
  decide (userIsActive db employment) && decide (employmentOverlapsMonth employment start finish)

def toActiveEmploymentOut (view : View) (start finish : Int) (employment : Employment) : ActiveEmploymentOut where
  id := employment.id
  userId := employment.userId
  userName := shownUserName view employment
  title := view.columns.title employment.id
  employmentType := typeValue employment.employmentType
  displayLabel := employmentLabel view employment
  startDate := employment.startDate
  endDate := employment.endDate
  isActive := employmentIsActiveInMonth view.db employment start finish
  userIsActive := decide (Dagmar.userIsActive view.db employment)
  isActiveInMonth := employmentIsActiveInMonth view.db employment start finish

def startLe (left right : Employment) : Prop :=
  left.startDate < right.startDate ∨ left.startDate = right.startDate ∧ left.id ≤ right.id

instance : DecidableRel startLe := fun _ _ => inferInstanceAs (Decidable (_ ∨ _))

def availableEmployments (db : Db) (start finish : Int) : List Employment :=
  ((db.employments.select fun employment => employmentOverlapsMonth employment start finish).insertionSort startLe).filter
    fun employment => userIsActive db employment

/-- The chosen employments of a month that are active in it, or else all that are. -/
def selectedIds (db : Db) (year : Int) (month : Nat) (activeIds : List Int) : List Int :=
  let selected := (db.monthInstances.select fun row => row.year = year ∧ row.month = month).map ShiftPlanMonthInstance.employmentId
  let kept := (if selected = [] then activeIds else selected).filter (· ∈ activeIds)
  if kept = [] then activeIds else kept

def loadLockedEmploymentIds (db : Db) (lockType : LockType) (ids : List Int) (year : Int) (month : Nat) : List Int :=
  ((db.locks lockType).select fun row => row.employmentId ∈ ids ∧ row.year = year ∧ row.month = month).map MonthLock.employmentId

def adminRow (view : View) (plans : List ShiftPlan) (shiftPlanLocked attendanceLocked : List Int) (start finish : Int)
    (summaries : List (Int × MonthSummary)) (employment : Employment) : Option ShiftPlanRowOut := do
  let summary ← summaries.lookup employment.id
  let dates := monthDays start finish
  let days ← dates.mapM fun date =>
    (summaryOn summary date).map fun daySummary =>
      shiftPlanDayOut employment (planOn plans employment.id date) daySummary date
  return {
    employmentId := employment.id
    userId := employment.userId
    userName := shownUserName view employment
    title := view.columns.title employment.id
    employmentType := typeValue employment.employmentType
    displayLabel := employmentLabel view employment
    startDate := employment.startDate
    endDate := employment.endDate
    isActiveInMonth := employmentIsActiveInMonth view.db employment start finish
    shiftPlanLocked := employment.id ∈ shiftPlanLocked
    attendanceLocked := employment.id ∈ attendanceLocked
    displayMetrics := displayMetricsForEmployment employment
    days := days
    summary := {
      plannedMinutes := (days.map ShiftPlanDayOut.plannedMinutes).sum
      plannedHours := monthPlannedHours summary
      scheduledDays := dates.countP fun date => isScheduled (planOn plans employment.id date)
      holidayDays := dates.countP fun date => (planOn plans employment.id date).bind ShiftPlan.status = some .holiday
      offDays := dates.countP fun date => (planOn plans employment.id date).bind ShiftPlan.status = some .off
      planned := summary.planned.map monthMetricsOut
      statusMetrics := statusMetricsOut summary.statusMetrics } }

/-- `_admin_get_shift_plan_month_impl`; `none` is an exception. -/
def adminGetShiftPlanMonth (view : View) (year : Int) (month : Nat) : Option ShiftPlanMonthOut := do
  let (start, finish) ← monthRange year month
  let available := availableEmployments view.db start finish
  let availableOut := available.map (toActiveEmploymentOut view start finish)
  let activeIds := (available.filter fun employment => employmentIsActiveInMonth view.db employment start finish).map Employment.id
  let ids := selectedIds view.db year month activeIds
  if ids = [] then return ⟨year, month, [], availableOut, []⟩
  else
    let selected := available.filter (·.id ∈ ids)
    let summaries ← buildMonthSummaries view.db selected year month false
    let rows ← selected.mapM (adminRow view (monthPlans view.db ids start finish)
      (loadLockedEmploymentIds view.db .shiftPlan ids year month)
      (loadLockedEmploymentIds view.db .attendance ids year month) start finish summaries)
    return ⟨year, month, ids, availableOut, rows⟩

end Admin

section Report

/-- The part of a metric that a report prints. -/
structure MetricPayload where
  minutes : Int
  tenths : Int
  hours : ℚ
deriving DecidableEq

inductive StatusKey where
  | holiday
  | sickness
  | paragraph
deriving DecidableEq, Repr

structure ShiftPlanReportCell where
  date : Int
  dayNumber : Int
  weekdayShort : String
  holidayLabel : Option String
  tone : Tone
  isWithinEmploymentPeriod : Bool
  arrivalTime : Option ClockTime
  departureTime : Option ClockTime
  status : Option DayStatus
  statusLabel : Option String
  intervalLabel : String
  durationLabel : String
  plannedMinutes : Int
  plannedHours : ℚ
  plannedMetrics : List (MetricKey × MetricPayload)
  statusMetrics : List (StatusKey × MetricPayload)
deriving DecidableEq

structure ShiftPlanReportEmployment where
  employmentId : Int
  displayLabel : String
  userName : String
  title : String
  employmentType : String
  startDate : Int
  endDate : Option Int
  isActiveInMonth : Bool
  displayMetrics : List MetricKey
  cells : List ShiftPlanReportCell
  plannedMinutesTotal : Int
  plannedHours : ℚ
  plannedMetrics : List (MetricKey × MetricPayload)
  statusMetrics : List (StatusKey × MetricPayload)
  scheduledDays : Nat
  holidayDays : Nat
  offDays : Nat

structure ShiftPlanReportPage where
  pageNumber : Nat
  employments : List ShiftPlanReportEmployment

structure DayHeader where
  date : Int
  dayNumber : Int
  weekdayShort : String
  tone : Tone
  holidayLabel : Option String

structure ShiftPlanReport where
  year : Int
  month : Nat
  monthLabel : String
  generatedAt : Timestamp
  dayHeaders : List DayHeader
  pages : List ShiftPlanReportPage

def employmentsPerPage : Nat := 5

def monthLabels : List String :=
  ["leden", "únor", "březen", "duben", "květen", "červen", "červenec", "srpen", "září", "říjen", "listopad", "prosinec"]

def weekdayShort (date : Int) : String := (["Po", "Út", "St", "Čt", "Pá", "So", "Ne"][(weekday date).toNat]?).getD ""

def statusLabel : DayStatus → String
  | .holiday => "Dovolená"
  | .sickness => "Nemoc"
  | .off => "Volno"
  | .paragraph => "Paragraf"

/-- The first of each value. -/
def uniqueIds : List Int → List Int → List Int
  | _, [] => []
  | seen, value :: values => if value ∈ seen then uniqueIds seen values else value :: uniqueIds (value :: seen) values

/-- One decimal after a comma; the hours shown are never negative. -/
def formatHours (hours : ℚ) : String :=
  let tenths := (hours * 10).floor
  toString (tenths / 10) ++ "," ++ toString (tenths % 10) ++ " h"

def metricPayload (value : MetricValue) : MetricPayload := ⟨value.minutes, value.tenths, hours value⟩

/-- The values under the keys on display, when there are any. -/
def keyedPayload {κ : Type} (value : κ → Option MetricValue) (keys : List κ) : List (κ × MetricPayload) :=
  keys.filterMap fun key => (value key).map fun found => (key, metricPayload found)

def MetricKey.ofDay (metrics : DailyMetrics) : MetricKey → Option MetricValue
  | .total => some metrics.total
  | .afternoon => metrics.afternoon
  | .night => metrics.night
  | .weekend => metrics.weekend
  | .publicHoliday => metrics.publicHoliday

def MetricKey.ofMonth (metrics : MonthMetrics) : MetricKey → Option MetricValue
  | .total => metrics.total
  | .afternoon => metrics.afternoon
  | .night => metrics.night
  | .weekend => metrics.weekend
  | .publicHoliday => metrics.publicHoliday

def StatusKey.of (metrics : DayStatusMetrics) : StatusKey → Option MetricValue
  | .holiday => metrics.holiday
  | .sickness => metrics.sickness
  | .paragraph => metrics.paragraph

def dailyMetricPayload (metrics : Option DailyMetrics) (keys : List MetricKey) : List (MetricKey × MetricPayload) :=
  (metrics.map fun metrics => keyedPayload (MetricKey.ofDay metrics) keys).getD []

def monthlyMetricPayload (metrics : Option MonthMetrics) (keys : List MetricKey) : List (MetricKey × MetricPayload) :=
  (metrics.map fun metrics => keyedPayload (MetricKey.ofMonth metrics) keys).getD []

def statusMetricPayload (metrics : DayStatusMetrics) : List (StatusKey × MetricPayload) :=
  keyedPayload (StatusKey.of metrics) [.holiday, .sickness, .paragraph]

def reportHolidayLabels : List ((Nat × Int) × String) :=
  [((1, 1), "Nový rok"), ((5, 1), "Svátek práce"), ((5, 8), "Den vítězství"), ((7, 5), "Cyril a Metoděj"),
    ((7, 6), "Jan Hus"), ((9, 28), "Den české státnosti"), ((10, 28), "Den vzniku ČSR"),
    ((11, 17), "Den boje za svobodu"), ((12, 24), "Štědrý den"), ((12, 25), "1. svátek vánoční"),
    ((12, 26), "2. svátek vánoční")]

def reportHolidayLabel (date : Int) : Option String :=
  match reportHolidayLabels.lookup (monthOf date, dayOf date) with
  | some fixed => some fixed
  | none => if isCzechPublicHoliday date then some "Pohyblivý svátek" else none

def toneForDay (date : Int) : Tone :=
  if isCzechPublicHoliday date then .holiday else if 5 ≤ weekday date then .weekend else .work

def reportCell (employment : Employment) (plan : Option ShiftPlan) (summary : DaySummary) (date : Int) : ShiftPlanReportCell :=
  let keys := displayMetricsForEmployment employment
  let arrival := plan.bind ShiftPlan.arrivalTime
  let departure := plan.bind ShiftPlan.departureTime
  { date := date
    dayNumber := dayOf date
    weekdayShort := weekdayShort date
    holidayLabel := reportHolidayLabel date
    tone := toneForDay date
    isWithinEmploymentPeriod := isWithinPeriod employment date
    arrivalTime := arrival
    departureTime := departure
    status := summary.effectiveStatus
    statusLabel := summary.effectiveStatus.map statusLabel
    intervalLabel :=
      match arrival, departure with
      | some arrival, some departure => arrival.text ++ "; " ++ departure.text
      | _, _ => ""
    durationLabel := if .total ∈ keys ∧ 0 < plannedMinutes summary then formatHours (plannedHours summary) else ""
    plannedMinutes := Payloads.plannedMinutes summary
    plannedHours := Payloads.plannedHours summary
    plannedMetrics := dailyMetricPayload summary.planned keys
    statusMetrics := statusMetricPayload summary.statusMetrics }

def reportEmployment (view : View) (plans : List ShiftPlan) (start finish : Int) (summaries : List (Int × MonthSummary))
    (employment : Employment) : Option ShiftPlanReportEmployment := do
  let summary ← summaries.lookup employment.id
  let dates := monthDays start finish
  let cells ← dates.mapM fun date =>
    (summaryOn summary date).map fun daySummary => reportCell employment (planOn plans employment.id date) daySummary date
  return {
    employmentId := employment.id
    displayLabel := employmentLabel view employment
    userName := shownUserName view employment
    title := view.columns.title employment.id
    employmentType := typeValue employment.employmentType
    startDate := employment.startDate
    endDate := employment.endDate
    isActiveInMonth := true
    displayMetrics := displayMetricsForEmployment employment
    cells := cells
    plannedMinutesTotal := monthPlannedMinutes summary
    plannedHours := monthPlannedHours summary
    plannedMetrics := monthlyMetricPayload summary.planned (displayMetricsForEmployment employment)
    statusMetrics := statusMetricPayload summary.statusMetrics
    scheduledDays := dates.countP fun date => isScheduled (planOn plans employment.id date)
    holidayDays := cells.countP (·.status = some .holiday)
    offDays := cells.countP (·.status = some .off) }

/-- The rows in runs of `employmentsPerPage`. -/
def reportPages (rows : List ShiftPlanReportEmployment) : List ShiftPlanReportPage :=
  (List.range ((rows.length + employmentsPerPage - 1) / employmentsPerPage)).map fun index =>
    ⟨index + 1, (rows.drop (index * employmentsPerPage)).take employmentsPerPage⟩

/-- The text of a `ValueError`, or the name of another exception. -/
def buildShiftPlanReport (zone : Zone) (view : View) (year : Int) (month : Nat) (employmentIds : List Int) :
    Except String ShiftPlanReport := do
  let ids := uniqueIds [] employmentIds
  raiseIf (ids = []) "Vyberte alespoň jeden úvazek pro tisk plánu směn."
  let (start, finish) ← require (monthRange year month) "ValueError"
  raiseIf (∃ id ∈ ids, view.db.employments.get id = none) "Vybraný úvazek neexistuje nebo už není dostupný."
  let ordered := ids.filterMap view.db.employments.get
  raiseIf (∃ employment ∈ ordered, ¬ employmentIsActiveInMonth view.db employment start finish)
    "Vybraný úvazek není v zadaném měsíci aktivní."
  let summaries ← require (buildMonthSummaries view.db ordered year month false) "ValueError"
  let headers := (monthDays start finish).map fun date =>
    ⟨date, dayOf date, weekdayShort date, toneForDay date, reportHolidayLabel date⟩
  let rows ← require (ordered.mapM (reportEmployment view (monthPlans view.db ids start finish) start finish summaries)) "KeyError"
  return ⟨year, month, (monthLabels[month - 1]?).getD "" ++ " " ++ toString year, view.clock.now zone, headers, reportPages rows⟩

end Report

end Dagmar.Payloads
