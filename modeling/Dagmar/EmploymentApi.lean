import Dagmar.EventMutations

/-! Creating an employment and changing its type, period and time profile. A
change of period deletes, once confirmed, what the new period leaves out. -/

namespace Dagmar
open Library Library.Calendar Library.Outcome

section Profile

def EmploymentType.ofText : String → Option EmploymentType
  | "WORK_CONTRACT" => some .workContract
  | "DPP_DPC" => some .dppDpc
  | "TASK_SHIFT_BASED" => some .taskShiftBased
  | "EXTERNAL_HOURLY" => some .externalHourly
  | _ => none

/-- The minutes of a text that matches `^(?:[01]\d|2[0-1]):[0-5]\d$`. -/
def afternoonMinutes? (text : String) : Option Int :=
  match text.toList with
  | [h, o, ':', m, i] =>
    if ((h = '0' ∨ h = '1') ∧ isDecimal o ∨ h = '2' ∧ (o = '0' ∨ o = '1')) ∧
        m ∈ ['0', '1', '2', '3', '4', '5'] ∧ isDecimal i then do
      let hour := (← decimal? h) * 10 + (← decimal? o)
      let minute := (← decimal? m) * 10 + (← decimal? i)
      return (hour * 60 + minute : Nat)
    else none
  | _ => none

def validateTimeProfile (employmentType : EmploymentType) (profile : TimeProfile) : Except String Unit := do
  match employmentType with
  | .workContract =>
    raiseIf (¬ profile.workloadFraction.any fun fraction => 0 < fraction ∧ fraction ≤ 1)
      "Velikost úvazku pracovní smlouvy musí být větší než 0 a nejvýše 1."
    raiseIf (¬ profile.totalHoursEnabled ∨ ¬ profile.nightHoursEnabled)
      "Pracovní smlouva musí zobrazovat celkové a noční hodiny."
  | _ => raiseIf (profile.workloadFraction ≠ none) "Velikost úvazku patří pouze pracovní smlouvě."
  raiseIf (employmentType = .taskShiftBased ∧ (profile.totalHoursEnabled ∨ profile.automaticBreaksEnabled ∨
      profile.afternoonHoursEnabled ∨ profile.nightHoursEnabled ∨ profile.weekendHoursEnabled ∨
      profile.publicHolidayHoursEnabled))
    "Úkolová / směnová odměna nemá časové metriky."
  raiseIf (profile.afternoonHoursEnabled ∧ ¬ profile.afternoonStartMinutes.any fun start => 0 ≤ start ∧ start ≤ 1319)
    "Začátek odpoledního pásma musí být mezi 00:00 a 21:59."
  raiseIf (¬ profile.afternoonHoursEnabled ∧ profile.afternoonStartMinutes ≠ none)
    "Začátek odpoledního pásma lze nastavit pouze při jeho sledování."

def clearedProfile (profile : TimeProfile) : TimeProfile :=
  { profile with
    totalHoursEnabled := false, automaticBreaksEnabled := false, afternoonHoursEnabled := false
    afternoonStartMinutes := none, nightHoursEnabled := false, weekendHoursEnabled := false
    publicHolidayHoursEnabled := false }

def contractProfile (profile : TimeProfile) : TimeProfile :=
  { profile with
    workloadFraction := some (profile.workloadFraction.getD 1), totalHoursEnabled := true, nightHoursEnabled := true }

def normalizeProfileForType (employmentType : EmploymentType) (profile : TimeProfile) (typeChanged : Bool) : TimeProfile :=
  let profile :=
    if typeChanged ∧ employmentType ≠ .workContract then { profile with workloadFraction := none } else profile
  match employmentType with
  | .workContract => contractProfile profile
  | .taskShiftBased => if typeChanged then clearedProfile profile else profile
  | _ => profile

end Profile

section Period

def parseDate (value : Option String) (fieldName : String) : Api (Option Int) :=
  match value with
  | none => return none
  | some text => do
    let date ← require (dateFromIsoformat text)
      (.http 400 ("Pole " ++ fieldName ++ " musí být v backendovém formátu YYYY-MM-DD."))
    return some date

def validatePeriod (start : Int) (finish : Option Int) : Api Unit :=
  raiseIf (∃ last ∈ finish, last < start) (.http 400 "Datum ukončení nesmí být dříve než datum začátku.")

def isDateOutOfRange (date start : Int) (finish : Option Int) : Prop := date < start ∨ ∃ last ∈ finish, last < date

instance (date start : Int) (finish : Option Int) : Decidable (isDateOutOfRange date start finish) :=
  inferInstanceAs (Decidable (_ ∨ _))

/-- The first and the last day of a month. -/
def monthBounds (year : Int) (month : Nat) : Int × Int := (firstDay year month, firstDay year (month + 1) - 1)

def monthRecordOutOfRange (year : Int) (month : Nat) (start : Int) (finish : Option Int) : Prop :=
  (monthBounds year month).2 < start ∨ ∃ last ∈ finish, last < (monthBounds year month).1

instance (year : Int) (month : Nat) (start : Int) (finish : Option Int) :
    Decidable (monthRecordOutOfRange year month start finish) := inferInstanceAs (Decidable (_ ∨ _))

/-- Whole pairs go when either end lies outside the new period. -/
def outOfRangeEventIds (events : List AttendanceEvent) (start : Int) (finish : Option Int) : List Int :=
  let ids := (events.filter fun event => isDateOutOfRange event.occurredAt.date start finish).map AttendanceEvent.id
  ids ++ (pairEventRows events).flatMap fun pair =>
    if pair.1.id ∈ ids ∨ pair.2.id ∈ ids then [pair.1.id, pair.2.id] else []

structure RangeConflictSummary where
  attendanceCount : Nat
  shiftPlanCount : Nat
  attendanceLockCount : Nat
  shiftPlanLockCount : Nat
  shiftPlanSelectionCount : Nat
  reminderCount : Nat
  minDate : Option Int
  maxDate : Option Int

def RangeConflictSummary.hasConflicts (summary : RangeConflictSummary) : Bool :=
  summary.attendanceCount ≠ 0 || summary.shiftPlanCount ≠ 0 || summary.attendanceLockCount ≠ 0 ||
    summary.shiftPlanLockCount ≠ 0 || summary.shiftPlanSelectionCount ≠ 0 || summary.reminderCount ≠ 0

def collectRangeConflicts (db : Db) (employmentId start : Int) (finish : Option Int) : RangeConflictSummary :=
  let attendance := (db.attendanceOf employmentId).filter fun row => isDateOutOfRange row.date start finish
  let eventIds := outOfRangeEventIds (db.eventsOf employmentId) start finish
  let events := (db.eventsOf employmentId).filter (·.id ∈ eventIds)
  let plans := (db.plansOf employmentId).filter fun plan =>
    ∃ date ∈ shiftPlanDays (some plan), isDateOutOfRange date start finish
  let attendanceLocks := db.attendanceLocks.select fun row =>
    row.employmentId = employmentId ∧ monthRecordOutOfRange row.year row.month start finish
  let shiftPlanLocks := db.shiftPlanLocks.select fun row =>
    row.employmentId = employmentId ∧ monthRecordOutOfRange row.year row.month start finish
  let selections := db.monthInstances.select fun row =>
    row.employmentId = employmentId ∧ monthRecordOutOfRange row.year row.month start finish
  let reminders := db.reminders.select fun row =>
    row.employmentId = employmentId ∧ isDateOutOfRange row.attendanceDate start finish
  let days := attendance.map Attendance.date ++ events.map (·.occurredAt.date) ++ plans.map ShiftPlan.date ++
    reminders.map AttendanceReminderEvent.attendanceDate
  let months := (attendanceLocks ++ shiftPlanLocks).map (fun row => monthBounds row.year row.month) ++
    selections.map fun row => monthBounds row.year row.month
  { attendanceCount := attendance.length + events.length
    shiftPlanCount := plans.length
    attendanceLockCount := attendanceLocks.length
    shiftPlanLockCount := shiftPlanLocks.length
    shiftPlanSelectionCount := selections.length
    reminderCount := reminders.length
    minDate := (days ++ months.map Prod.fst).min?
    maxDate := (days ++ months.map Prod.snd).max? }

def rangeConflict (summary : RangeConflictSummary) : ApiError :=
  .api 409 "employment_period_conflict" "Mimo nove obdobi uvazku existuji navazana data. Zmenu je nutne potvrdit."
    ([("attendance_count", .number summary.attendanceCount), ("shift_plan_count", .number summary.shiftPlanCount),
      ("attendance_lock_count", .number summary.attendanceLockCount),
      ("shift_plan_lock_count", .number summary.shiftPlanLockCount),
      ("shift_plan_selection_count", .number summary.shiftPlanSelectionCount),
      ("reminder_count", .number summary.reminderCount)] ++
      (summary.minDate.map fun date => ("problem_range_start", Param.date date)).toList ++
      (summary.maxDate.map fun date => ("problem_range_end", Param.date date)).toList ++
      [("requires_confirmation", .flag true)])

def deleteOutOfRangeRecords (db : Db) (employmentId start : Int) (finish : Option Int) : Db :=
  let eventIds := outOfRangeEventIds (db.eventsOf employmentId) start finish
  { db with
    attendance := db.attendance.deleteWhere fun row =>
      row.employmentId = employmentId ∧ isDateOutOfRange row.date start finish
    events := db.events.deleteWhere (·.id ∈ eventIds)
    shiftPlans := db.shiftPlans.deleteWhere fun plan =>
      plan.employmentId = employmentId ∧ ∃ date ∈ shiftPlanDays (some plan), isDateOutOfRange date start finish
    attendanceLocks := db.attendanceLocks.deleteWhere fun row =>
      row.employmentId = employmentId ∧ monthRecordOutOfRange row.year row.month start finish
    shiftPlanLocks := db.shiftPlanLocks.deleteWhere fun row =>
      row.employmentId = employmentId ∧ monthRecordOutOfRange row.year row.month start finish
    monthInstances := db.monthInstances.deleteWhere fun row =>
      row.employmentId = employmentId ∧ monthRecordOutOfRange row.year row.month start finish
    reminders := db.reminders.deleteWhere fun row =>
      row.employmentId = employmentId ∧ isDateOutOfRange row.attendanceDate start finish }

end Period

namespace Admin

structure EmploymentCreateIn where
  employmentType : String
  startDate : String
  endDate : Option String
  afternoonStartTime : Option String
  profile : TimeProfile

/-- A field that may be left out of the body has an option around its value. -/
structure EmploymentUpdateIn where
  employmentType : Option String := none
  startDate : Option String := none
  endDate : Option (Option String) := none
  confirmDeleteOutOfRange : Bool := false
  workloadFraction : Option (Option ℚ) := none
  totalHoursEnabled : Option Bool := none
  automaticBreaksEnabled : Option Bool := none
  afternoonHoursEnabled : Option Bool := none
  afternoonStartMinutes : Option (Option Int) := none
  afternoonStartTime : Option (Option String) := none
  nightHoursEnabled : Option Bool := none
  weekendHoursEnabled : Option Bool := none
  publicHolidayHoursEnabled : Option Bool := none

def checkWorkloadFraction (fraction : Option ℚ) : Api Unit :=
  raiseIf (∃ value ∈ fraction, value < 1 / 1000 ∨ 1 < value) (.invalid "workload_fraction")

def checkAfternoonStart (minutes : Option Int) : Api Unit :=
  raiseIf (∃ value ∈ minutes, value < 0 ∨ 1319 < value) (.invalid "afternoon_start_minutes")

/-- The text of an afternoon start, checked against its pattern. -/
def afternoonText (text : Option String) : Api (Option Int) :=
  match text with
  | none => return none
  | some text => return some (← require (afternoonMinutes? text) (.invalid "afternoon_start_time"))

/-- The validator of the body of a new employment. -/
def validatedProfile (payload : EmploymentCreateIn) : Api (EmploymentType × TimeProfile) := do
  checkWorkloadFraction payload.profile.workloadFraction
  checkAfternoonStart payload.profile.afternoonStartMinutes
  let start ← afternoonText payload.afternoonStartTime
  let employmentType ← require (EmploymentType.ofText payload.employmentType) (.invalid "Neplatný typ úvazku.")
  let profile := { payload.profile with afternoonStartMinutes := start.or payload.profile.afternoonStartMinutes }
  let profile := match employmentType with
    | .workContract => contractProfile profile
    | .taskShiftBased => clearedProfile profile
    | _ => profile
  match validateTimeProfile employmentType profile with
  | .ok () => return (employmentType, profile)
  | .error message => .error (.invalid message)

def createEmployment (zone : Zone) (db : Db) (userId : Int) (payload : EmploymentCreateIn) : Api (Db × Employment) := do
  let (employmentType, profile) ← validatedProfile payload
  let user ← require (db.users.get userId) (.api 404 "user_not_found" "Uživatel nebyl nalezen." [])
  let start ← parseDate (some payload.startDate) "start_date"
  let finish ← parseDate payload.endDate "end_date"
  let start ← require start (.api 400 "invalid_employment_start_date" "Datum začátku úvazku je povinné." [])
  validatePeriod start finish
  let employment : Employment := ⟨db.nextEmploymentId, user.id, employmentType, profile, start, finish⟩
  let employments ← require (db.employments.insertAll [employment]) (.uncaught "IntegrityError")
  return (commit zone { db with employments := employments, nextEmploymentId := db.nextEmploymentId + 1 }, employment)

/-- The profile a body asks for: its own values where it sets them, else the stored ones. -/
def requestedProfile (payload : EmploymentUpdateIn) (stored : TimeProfile) (startOfAfternoon : Option (Option Int)) :
    TimeProfile where
  workloadFraction := payload.workloadFraction.getD stored.workloadFraction
  totalHoursEnabled := payload.totalHoursEnabled.getD stored.totalHoursEnabled
  automaticBreaksEnabled := payload.automaticBreaksEnabled.getD stored.automaticBreaksEnabled
  afternoonHoursEnabled := payload.afternoonHoursEnabled.getD stored.afternoonHoursEnabled
  afternoonStartMinutes := (startOfAfternoon.or payload.afternoonStartMinutes).getD stored.afternoonStartMinutes
  nightHoursEnabled := payload.nightHoursEnabled.getD stored.nightHoursEnabled
  weekendHoursEnabled := payload.weekendHoursEnabled.getD stored.weekendHoursEnabled
  publicHolidayHoursEnabled := payload.publicHolidayHoursEnabled.getD stored.publicHolidayHoursEnabled

/-- The columns that the stored metrics depend on. -/
def metricProfileChanged (before after : TimeProfile) : Bool :=
  before.totalHoursEnabled ≠ after.totalHoursEnabled || before.afternoonHoursEnabled ≠ after.afternoonHoursEnabled ||
    before.afternoonStartMinutes ≠ after.afternoonStartMinutes || before.nightHoursEnabled ≠ after.nightHoursEnabled ||
    before.weekendHoursEnabled ≠ after.weekendHoursEnabled ||
    before.publicHolidayHoursEnabled ≠ after.publicHolidayHoursEnabled

/-- The fields of a body that are resolved against the stored employment. -/
def requestedAfternoon (payload : EmploymentUpdateIn) : Api (Option (Option Int)) :=
  match payload.afternoonStartTime with
  | none => return none
  | some text => some <$> afternoonText text

def requestedType (payload : EmploymentUpdateIn) (stored : EmploymentType) : Api EmploymentType :=
  match payload.employmentType with
  | none => return stored
  | some text => require (EmploymentType.ofText text) (.api 400 "invalid_employment_type" "Neplatný typ úvazku." [])

def requestedStart (payload : EmploymentUpdateIn) (stored : Int) : Api (Option Int) :=
  match payload.startDate with
  | none => return some stored
  | some text => parseDate (some text) "start_date"

def requestedEnd (payload : EmploymentUpdateIn) (stored : Option Int) : Api (Option Int) :=
  match payload.endDate with
  | none => return stored
  | some text => parseDate text "end_date"

def invalidTimeProfile : Except String Unit → Api Unit
  | .ok () => return ()
  | .error message => .error (.api 400 "invalid_time_profile" message [])

def updateEmployment (zone : Zone) (db : Db) (employmentId : Int) (payload : EmploymentUpdateIn) : Api Db := do
  raiseIf (∃ text ∈ payload.employmentType, text.length < 3 ∨ 16 < text.length) (.invalid "employment_type")
  checkWorkloadFraction payload.workloadFraction.join
  checkAfternoonStart payload.afternoonStartMinutes.join
  let startOfAfternoon ← requestedAfternoon payload
  let employment ← require (db.employments.get employmentId) (.api 404 "employment_not_found" "Úvazek nebyl nalezen." [])
  let employment ← lockEmploymentForTimeMutation db employment.id
  let nextType ← requestedType payload employment.employmentType
  let nextStart ← requestedStart payload employment.startDate
  let nextEnd ← requestedEnd payload employment.endDate
  let nextStart ← require nextStart (.api 400 "invalid_employment_start_date" "Datum začátku úvazku je povinné." [])
  validatePeriod nextStart nextEnd
  let periodChanged := nextStart ≠ employment.startDate ∨ nextEnd ≠ employment.endDate
  let summary := collectRangeConflicts db employment.id nextStart nextEnd
  raiseIf (summary.hasConflicts ∧ ¬ payload.confirmDeleteOutOfRange) (rangeConflict summary)
  let pruned := if summary.hasConflicts then deleteOutOfRangeRecords db employment.id nextStart nextEnd else db
  let profile := normalizeProfileForType nextType (requestedProfile payload employment.profile startOfAfternoon)
    (nextType ≠ employment.employmentType)
  invalidTimeProfile (validateTimeProfile nextType profile)
  let updated := { employment with employmentType := nextType, profile := profile, startDate := nextStart, endDate := nextEnd }
  let flushed := { pruned with employments := pruned.employments.put updated }
  if nextType ≠ employment.employmentType ∨ metricProfileChanged employment.profile profile ∨ periodChanged then
    let synced ← syncEmploymentMetrics flushed updated
    return commit zone synced
  else return commit zone flushed

end Admin

end Dagmar
