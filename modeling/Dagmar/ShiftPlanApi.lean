import Dagmar.EventMutations

/-! Planned shifts and full-day statuses, through the portal and the administration. -/

namespace Dagmar
open Library Library.Calendar Library.Outcome

structure ShiftPlanUpsertIn where
  employmentId : Int
  date : String
  arrivalTime : Option String
  departureTime : Option String
  status : Option String
  confirmDeleteConflicts : Bool
deriving DecidableEq

structure DayStatusUpsertIn where
  employmentId : Int
  date : String
  status : Option String
  confirmDeleteConflicts : Bool
deriving DecidableEq

def employmentIdField (employmentId : Int) : Api Unit :=
  raiseIf (employmentId < 1) (.invalid "Input should be greater than or equal to 1")

def invalidDateFormat : ApiError := .api 400 "invalid_date_format" "Neplatný formát data." []

def invalidDayStatus : ApiError := .api 400 "invalid_day_status" "Neplatný stav dne." []

/-- The text of the exception is the detail of the answer. -/
def dateError (value : String) : ApiError :=
  .http 400 (if isYyyyMmDd value.toList then "Invalid date" else "Invalid date format, expected YYYY-MM-DD")

/-- The texts are compared, not the times they name. -/
def shiftMustEndSameDay (arrival departure : Option ClockTime) : Prop :=
  ∃ start ∈ arrival, ∃ finish ∈ departure, finish.text ≤ start.text

instance (arrival departure : Option ClockTime) : Decidable (shiftMustEndSameDay arrival departure) :=
  inferInstanceAs (Decidable (∃ start ∈ arrival, _))

def mustEndSameDay : ApiError :=
  .api 409 "shift_plan_must_end_same_day" "Konec plánu musí být později než začátek ve stejném dni." []

def blockedMessage (status : DayStatus) : String :=
  "Do dne označeného jako " ++ dayStatusLabel status ++ " nelze zapisovat plán směny."

def statusConflictsWithAttendance : ApiError :=
  .api 409 "shift_plan_status_conflicts_with_attendance" "Celodenní stav plánu nelze nastavit přes existující docházku." []

def statusConfirmationRequired : ApiError :=
  .api 409 "shift_plan_status_confirmation_required" "Nahrazení existující směny celodenním stavem vyžaduje potvrzení." []

def shiftPlanOverlap : ApiError :=
  .api 409 "shift_plan_overlap" "Plánovaná směna se překrývá s jinou směnou tohoto úvazku." []

/-- A time column holds five characters. -/
def flushPlan (db : Db) (plan : ShiftPlan) : Api Db := do
  raiseIf (∃ time ∈ plan.arrivalTime.toList ++ plan.departureTime.toList, 5 < time.text.length) (.uncaught "DataError")
  return { db with shiftPlans := db.shiftPlans.put plan }

def deletePlan (db : Db) (plan : ShiftPlan) : Db :=
  { db with shiftPlans := db.shiftPlans.deleteWhere (·.key = plan.key) }

/-- The plans of the employment other than the one being replaced. -/
def otherPlans (db : Db) (employmentId : Int) (existing : Option ShiftPlan) : List ShiftPlan :=
  (db.plansOf employmentId).filter fun plan => ∀ row ∈ existing, plan.key ≠ row.key

namespace Portal

def requireActiveEmploymentForEdit (zone : Zone) (clock : Clock) (db : Db) (employment : Employment) : Api Unit :=
  raiseIf (¬ lockedEmploymentHasActiveUser zone clock db employment) (.api 409 "employment_not_active"
    "Vybraný úvazek nebo jeho uživatel už není aktivní a plán směn nelze měnit." [])

def ensureDayInPeriod (employment : Employment) (date : Int) : Api Unit :=
  ensureDayInEmploymentPeriod employment date "Zvolené datum neleží v období platnosti vybraného úvazku."

/-- The times to store: none under a status, and none on a day that a status blocks. -/
def plannedTimes (db : Db) (employmentId date : Int) (confirmDeleteConflicts : Bool) (status : Option DayStatus)
    (arrival departure : Option ClockTime) : Api (Option ClockTime × Option ClockTime) :=
  match status, getDayStatus db employmentId date with
  | none, none => return (arrival, departure)
  | none, some blocked => do
    raiseIf (arrival ≠ none ∨ departure ≠ none)
      (.api 409 "shift_plan_blocked_by_day_status" (blockedMessage blocked) [("day_status", .status blocked)])
    return (arrival, departure)
  | some _, _ => do
    let conflicts ← collectDayStatusConflicts db employmentId date
    raiseIf conflicts.attendanceExists statusConflictsWithAttendance
    raiseIf (conflicts.shiftPlanExists ∧ ¬ confirmDeleteConflicts) statusConfirmationRequired
    return (none, none)

/-- The end of the request: an empty plan deletes the stored one, any other replaces it. -/
def storePlan (zone : Zone) (db : Db) (auth : PortalUserAuth) (employment : Employment) (date : Int)
    (arrival departure : Option ClockTime) (status : Option DayStatus) : Api Db := do
  let existing := getShiftPlanDay db employment.id date
  let candidate : Option ShiftPlan :=
    if arrival = none ∧ departure = none ∧ status = none then none
    else some ⟨employment.id, date, arrival, departure, status, none⟩
  raiseIf (∃ plan ∈ candidate, ∃ other ∈ otherPlans db employment.id existing, shiftPlansOverlap plan other)
    shiftPlanOverlap
  forM (shiftPlanDays candidate) (ensureDayInPeriod employment)
  let affectedMonths := shiftPlanMonths existing ++ shiftPlanMonths candidate
  ensureMonthsUnlocked db .shiftPlan employment.id affectedMonths
  if arrival = none ∧ departure = none ∧ status = none then
    match existing with
    | none => return db
    | some plan =>
      let synced ← syncEmploymentMetricMonths (deletePlan db plan) employment affectedMonths
      return commit zone synced
  else
    let flushed ← flushPlan db ⟨employment.id, date, arrival, departure, status, some auth.instanceId⟩
    let synced ← syncEmploymentMetricMonths flushed employment affectedMonths
    return commit zone synced

def upsertShiftPlan (zone : Zone) (clock : Clock) (db : Db) (auth : PortalUserAuth) (body : ShiftPlanUpsertIn) : Api Db := do
  employmentIdField body.employmentId
  checkStatusPattern [.holiday, .off] body.status
  let employment ← portalEmployment db auth body.employmentId
  let employment ← lockEmploymentForTimeMutation db employment.id
  requireActiveEmploymentForEdit zone clock db employment
  let date ← require (parseYyyyMmDd body.date) invalidDateFormat
  ensureDayInPeriod employment date
  ensureMonthUnlocked db .shiftPlan employment.id (yearMonth date)
  let arrival ← require (parseHhmmOrNone body.arrivalTime)
    (.api 400 "invalid_time_format" "Neplatný formát času." [])
  let departure ← require (parseHhmmOrNone body.departureTime)
    (.api 400 "invalid_time_format" "Neplatný formát času." [])
  raiseIf (shiftMustEndSameDay arrival departure) mustEndSameDay
  let status ← require (normalizeDayStatus body.status) invalidDayStatus
  let times ← plannedTimes db employment.id date body.confirmDeleteConflicts status arrival departure
  storePlan zone db auth employment date times.1 times.2 status

def upsertDayStatus (zone : Zone) (clock : Clock) (db : Db) (auth : PortalUserAuth) (body : DayStatusUpsertIn) : Api Db := do
  employmentIdField body.employmentId
  checkStatusPattern [.holiday, .off] body.status
  let employment ← portalEmployment db auth body.employmentId
  let employment ← lockEmploymentForTimeMutation db employment.id
  requireActiveEmploymentForEdit zone clock db employment
  let date ← require (parseYyyyMmDd body.date) invalidDateFormat
  ensureDayInPeriod employment date
  ensureMonthUnlocked db .shiftPlan employment.id (yearMonth date)
  let status ← require (normalizeDayStatus body.status) invalidDayStatus
  let conflicts ← collectDayStatusConflicts db employment.id date
  let conflictPlanMonths := conflictingShiftPlanMonths db employment.id date
  match status with
  | none =>
    let (_, flushed) ← setShiftPlanStatus db employment date none body.confirmDeleteConflicts (some auth.instanceId)
    let synced ← syncEmploymentMetricMonths flushed employment [yearMonth date]
    return commit zone synced
  | some status =>
    raiseIf conflicts.attendanceExists (.api 409 "shift_plan_status_conflicts_with_attendance"
      "Nejprve odstraňte docházková data nebo celodenní docházkový stav pro tento den." [])
    if conflicts.shiftPlanExists then ensureMonthsUnlocked db .shiftPlan employment.id conflictPlanMonths
    let (conflicts, flushed) ←
      replaceDayStatus zone db employment date (some status) body.confirmDeleteConflicts (some auth.instanceId)
    raiseIf (conflicts.shiftPlanExists ∧ ¬ body.confirmDeleteConflicts) (conflicts.toDetail employment.id date status)
    let affectedMonths := yearMonth date :: if conflicts.shiftPlanExists then conflictPlanMonths else []
    let synced ← syncEmploymentMetricMonths flushed employment affectedMonths
    return commit zone synced

end Portal

section DayStatusLocks

/-- The kinds of lock a change from one day status to another has to respect. -/
def dayStatusLockTypes (status current : Option DayStatus) (conflicts : DayStatusConflicts) : List LockType :=
  (if status.any (!·.isPlan) ∨ current.any (!·.isPlan) ∨ conflicts.attendanceExists then [.attendance] else []) ++
    (if status.any DayStatus.isPlan ∨ current.any DayStatus.isPlan ∨ conflicts.shiftPlanExists then [.shiftPlan] else [])

def lockMonths (date : Int) (conflictPlanMonths : List (Int × Nat)) : LockType → List (Int × Nat)
  | .attendance => [yearMonth date]
  | .shiftPlan => yearMonth date :: conflictPlanMonths

/-- The part that the portal and the administration share: check the locks, replace
the status, check the months of the changed days again and write their metrics. -/
def changeDayStatus (zone : Zone) (db : Db) (employment : Employment) (date : Int) (status : Option DayStatus)
    (confirmDeleteConflicts : Bool) (instanceId : Option String) (conflictError : DayStatus → DayStatusConflicts → ApiError) :
    Api Db := do
  let current := getDayStatus db employment.id date
  let conflicts ← collectDayStatusConflicts db employment.id date
  let conflictPlanMonths := conflictingShiftPlanMonths db employment.id date
  let lockTypes := dayStatusLockTypes status current conflicts
  forM (if lockTypes = [] then [.attendance, .shiftPlan] else lockTypes) fun lockType =>
    ensureMonthsUnlocked db lockType employment.id (lockMonths date conflictPlanMonths lockType)
  let before := intervalSignatures (db.eventsOf employment.id)
  let (conflicts, flushed) ← replaceDayStatus zone db employment date status confirmDeleteConflicts instanceId
  match status with
  | none => pure ()
  | some status => raiseIf (conflicts.hasConflicts ∧ ¬ confirmDeleteConflicts) (conflictError status conflicts)
  let changedDays := changedEventDays before (intervalSignatures (flushed.eventsOf employment.id)) [] ++ [date]
  let attendanceAffectedMonths := monthsForDays changedDays
  if .attendance ∈ lockTypes then ensureMonthsUnlocked flushed .attendance employment.id attendanceAffectedMonths
  let synced ← syncEmploymentMetricMonths flushed employment (attendanceAffectedMonths ++ conflictPlanMonths)
  return commit zone synced

end DayStatusLocks

namespace Portal

def upsertAttendanceStatus (zone : Zone) (clock : Clock) (db : Db) (auth : PortalUserAuth) (body : DayStatusUpsertIn) :
    Api Db := do
  employmentIdField body.employmentId
  checkStatusPattern [.holiday, .off, .sickness, .paragraph] body.status
  let employment ← portalEmployment db auth body.employmentId
  let employment ← lockEmploymentForTimeMutation db employment.id
  raiseIf (employment.userId ≠ auth.userId ∨ ¬ lockedEmploymentHasActiveUser zone clock db employment)
    (.api 409 "employment_not_active" "Vybraný úvazek nebo jeho uživatel už není aktivní." [])
  let date ← require (dateFromIsoformat body.date) invalidDateFormat
  let status ← require (normalizeDayStatus body.status) invalidDayStatus
  ensureDayInPeriod employment date
  changeDayStatus zone db employment date status body.confirmDeleteConflicts (some auth.instanceId)
    fun _ _ => .api 409 "day_status_conflict" dayStatusConflictMessage []

end Portal

namespace Admin

/-- `_get_employment` and the check that follows it in both admin endpoints. -/
def editableEmployment (zone : Zone) (clock : Clock) (db : Db) (employmentId : Int) : Api Employment := do
  let employment ← require (db.employments.get employmentId) (.http 404 "Uvazek nenalezen.")
  let employment ← lockEmploymentForTimeMutation db employment.id
  raiseIf (¬ lockedEmploymentHasActiveUser zone clock db employment)
    (.api 409 "employment_not_active" "Vybraný úvazek nebo jeho uživatel už není aktivní." [])
  return employment

/-- `employment.user.instance_id if employment.user else None`. -/
def userInstanceId (db : Db) (employment : Employment) : Option String :=
  (db.users.get employment.userId).bind PortalUser.instanceId

/-- The times to store; here the text of the status is asked again at each step. -/
def plannedTimes (db : Db) (employmentId date : Int) (body : ShiftPlanUpsertIn) (arrival departure : Option ClockTime) :
    Api (Option ClockTime × Option ClockTime) := do
  let blocked := getDayStatus db employmentId date
  raiseIf (blocked ≠ none ∧ body.status = none ∧ (arrival ≠ none ∨ departure ≠ none))
    (.api 409 "shift_plan_blocked_by_day_status" ((blocked.map blockedMessage).getD "")
      ((blocked.map fun status => ("blocked_status", Param.status status)).toList))
  if body.status ≠ none then
    let conflicts ← collectDayStatusConflicts db employmentId date
    raiseIf conflicts.attendanceExists statusConflictsWithAttendance
    raiseIf (conflicts.shiftPlanExists ∧ ¬ body.confirmDeleteConflicts) statusConfirmationRequired
    return (none, none)
  else return (arrival, departure)

def storePlan (zone : Zone) (db : Db) (employment : Employment) (date : Int) (body : ShiftPlanUpsertIn)
    (arrival departure : Option ClockTime) : Api Db := do
  let status := body.status.bind DayStatus.ofText
  let existing := db.shiftPlans.get (employment.id, date)
  let candidate : Option ShiftPlan :=
    if arrival = none ∧ departure = none ∧ body.status = none then none
    else some ⟨employment.id, date, arrival, departure, status, none⟩
  raiseIf (∃ plan ∈ candidate, ∃ other ∈ otherPlans db employment.id existing, shiftPlansOverlap plan other)
    shiftPlanOverlap
  forM (shiftPlanDays candidate) fun date =>
    ensureDayInEmploymentPeriod employment date "Plán směny leží mimo období platnosti úvazku."
  let affectedMonths := shiftPlanMonths existing ++ shiftPlanMonths candidate
  ensureMonthsUnlocked db .shiftPlan employment.id affectedMonths
  if arrival = none ∧ departure = none ∧ body.status = none then
    match existing with
    | none => return db
    | some plan =>
      let synced ← syncEmploymentMetricMonths (deletePlan db plan) employment affectedMonths
      return commit zone synced
  else
    let instanceId := match existing with
      | none => userInstanceId db employment
      | some plan => plan.instanceId
    let flushed ← flushPlan db ⟨employment.id, date, arrival, departure, status, instanceId⟩
    let synced ← syncEmploymentMetricMonths flushed employment affectedMonths
    return commit zone synced

def upsertShiftPlanImpl (zone : Zone) (clock : Clock) (db : Db) (body : ShiftPlanUpsertIn) : Api Db := do
  employmentIdField body.employmentId
  checkStatusPattern [.holiday, .off] body.status
  let employment ← editableEmployment zone clock db body.employmentId
  let date ← require (parseYyyyMmDd body.date) (dateError body.date)
  ensureDayInEmploymentPeriod employment date "Datum nelezi v obdobi platnosti vybraneho uvazku."
  ensureMonthUnlocked db .shiftPlan employment.id (yearMonth date)
  let arrival ← require (parseHhmmOrNone body.arrivalTime) (.http 400 "Invalid time format, expected HH:MM in 00:00-23:59")
  let departure ← require (parseHhmmOrNone body.departureTime)
    (.http 400 "Invalid time format, expected HH:MM in 00:00-23:59")
  raiseIf (shiftMustEndSameDay arrival departure) mustEndSameDay
  raiseIf (body.status ∉ [none, some "HOLIDAY", some "OFF"])
    (.api 400 "invalid_day_status" "Invalid status, expected HOLIDAY or OFF or null" [])
  let times ← plannedTimes db employment.id date body arrival departure
  storePlan zone db employment date body times.1 times.2

def upsertDayStatus (zone : Zone) (clock : Clock) (db : Db) (body : DayStatusUpsertIn) : Api Db := do
  employmentIdField body.employmentId
  checkStatusPattern [.holiday, .off, .sickness, .paragraph] body.status
  let employment ← editableEmployment zone clock db body.employmentId
  let date ← require (parseYyyyMmDd body.date) (dateError body.date)
  ensureDayInEmploymentPeriod employment date "Datum nelezi v obdobi platnosti vybraneho uvazku."
  let status ← require (normalizeDayStatus body.status) invalidDayStatus
  changeDayStatus zone db employment date status body.confirmDeleteConflicts (userInstanceId db employment)
    fun status conflicts => conflicts.toDetail employment.id date status

structure ShiftPlanSelectionIn where
  year : Int
  month : Nat
  employmentIds : List Int
deriving DecidableEq

def setShiftPlanSelection (zone : Zone) (db : Db) (body : ShiftPlanSelectionIn) : Api Db := do
  raiseIf (body.year < 2000 ∨ 2100 < body.year ∨ body.month < 1 ∨ 12 < body.month) (.invalid "Input out of range")
  let (monthStart, monthEnd) ← require (monthRange body.year body.month) (.uncaught "ValueError")
  forM body.employmentIds fun employmentId => do
    let employment ← require (db.employments.get employmentId) (.http 404 "Uvazek nenalezen.")
    raiseIf (¬ (userIsActive db employment ∧ employmentOverlapsMonth employment monthStart monthEnd))
      (.api 409 "employment_not_active_in_month" "Úvazek není ve zvoleném měsíci aktivní." [])
  let kept := db.monthInstances.deleteWhere fun row => row.year = body.year ∧ row.month = body.month
  let added : List ShiftPlanMonthInstance := body.employmentIds.dedup.map fun id => ⟨body.year, body.month, id⟩
  let rows ← require (kept.insertAll added) (.uncaught "IntegrityError")
  return commit zone { db with monthInstances := rows }

end Admin

end Dagmar
