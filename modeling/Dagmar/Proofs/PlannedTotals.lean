import Dagmar.PlanPayloads
import Dagmar.Proofs.CachedSummaries

/-! Planned time is the same in a summary, however it is computed, and in every
payload that shows it. -/

namespace Dagmar.Payloads.Proofs
open Library Library.Calendar Library.Outcome Integration Groups Dagmar.Proofs

section Purpose

/-- The minutes planned on a day: a complete plan counts, a full-day status does not. -/
def planMinutes (db : Db) (employmentId date : Int) : Int :=
  match db.shiftPlans.get (employmentId, date) with
  | some ⟨_, _, some arrival, some departure, none, _⟩ => max 0 (departure.minutes - arrival.minutes)
  | _ => 0

/-- The metrics of a day, from its own plan. -/
def plannedMetrics (db : Db) (employment : Employment) (date : Int) : Option DailyMetrics :=
  calculateDailyMetrics employment date (shiftPlanIntervals (db.plansBetween employment.id date (date + 1)))

structure PlannedDay where
  date : Int
  minutes : Int
  hours : ℚ
  metrics : Option MetricsOut

/-- What is shown of the plan of an employment in a month. -/
structure PlannedMonth where
  days : List PlannedDay
  minutes : Int
  hours : ℚ
  metrics : Option MetricsOut

/-- Minutes are rounded by the day, and only then added up. -/
def plannedTenths (db : Db) (employmentId start finish : Int) : Int :=
  ((monthDays start finish).map fun date => roundMinutesToTenths (planMinutes db employmentId date)).sum

def plannedMonthMetrics (db : Db) (employment : Employment) (start finish : Int) : Option MonthMetrics :=
  monthMetrics ((monthDays start finish).filterMap (plannedMetrics db employment))

def plannedMonth (db : Db) (employment : Employment) (start finish : Int) : PlannedMonth where
  days := (monthDays start finish).map fun date =>
    ⟨date, planMinutes db employment.id date, roundMinutesToTenths (planMinutes db employment.id date) / 10,
      (plannedMetrics db employment date).map metricsOut⟩
  minutes := ((monthDays start finish).map (planMinutes db employment.id)).sum
  hours := plannedTenths db employment.id start finish / 10
  metrics := (plannedMonthMetrics db employment start finish).map monthMetricsOut

end Purpose

section Shown

def shownDay (day : ShiftPlanDayOut) : PlannedDay := ⟨day.date, day.plannedMinutes, day.plannedHours, day.planned⟩

/-- What the group and the administration are shown. -/
def groupShown (row : GroupShiftPlanRowOut) : PlannedMonth :=
  ⟨row.days.map shownDay, row.plannedMinutes, row.plannedHours, row.planned⟩

def adminShown (row : ShiftPlanRowOut) : PlannedMonth :=
  ⟨row.days.map shownDay, row.summary.plannedMinutes, row.summary.plannedHours, row.summary.planned⟩

/-- The portal is shown the metrics of the days, and the hours of the month. -/
def PortalShows (planned : PlannedMonth) (payload : AttendanceMonthOut) : Prop :=
  payload.days.map (fun day => (day.date, day.planned)) = planned.days.map (fun day => (day.date, day.metrics)) ∧
    payload.plannedHours = planned.hours ∧ payload.planned = planned.metrics

/-- The report prints all minutes and hours, and the metrics on display. -/
structure ReportShows (db : Db) (employment : Employment) (start finish : Int) (row : ShiftPlanReportEmployment) : Prop where
  days : row.cells.map (fun cell => (cell.date, cell.plannedMinutes, cell.plannedHours)) =
    (plannedMonth db employment start finish).days.map fun day => (day.date, day.minutes, day.hours)
  minutes : row.plannedMinutesTotal = (plannedMonth db employment start finish).minutes
  hours : row.plannedHours = (plannedMonth db employment start finish).hours
  dayMetrics : row.cells.map ShiftPlanReportCell.plannedMetrics = (monthDays start finish).map fun date =>
    dailyMetricPayload (plannedMetrics db employment date) (displayMetricsForEmployment employment)
  metrics : row.plannedMetrics =
    monthlyMetricPayload (plannedMonthMetrics db employment start finish) (displayMetricsForEmployment employment)

end Shown

section Days

variable {db : Db} {employment : Employment} {start finish : Int}

/-- The writers store no times on a row with a status. -/
def StatusWithoutTimes (db : Db) (employmentId : Int) : Prop :=
  ∀ plan ∈ db.plansOf employmentId, plan.status ≠ none → plan.arrivalTime = none ∧ plan.departureTime = none

instance (db : Db) (employmentId : Int) : Decidable (StatusWithoutTimes db employmentId) :=
  inferInstanceAs (Decidable (∀ plan ∈ db.plansOf employmentId, _))

theorem interval_minutes {plan : ShiftPlan} {arrival departure : ClockTime} (arrives : plan.arrivalTime = some arrival)
    (departs : plan.departureTime = some departure) :
    ((shiftPlanInterval plan).map WorkInterval.minutes).getD 0 = max 0 (departure.minutes - arrival.minutes) := by
  simp only [shiftPlanInterval, arrives, departs]
  split
  next backward =>
    simp only [minute] at backward
    simp only [Option.map_none, Option.getD_none]
    omega
  next forward =>
    simp only [minute] at forward
    simp only [Option.map_some, Option.getD_some, WorkInterval.minutes, minute]
    omega

/-- The minutes read off the row of a day. -/
theorem minutes_of_row (clean : StatusWithoutTimes db employment.id) (date : Int) :
    (((db.shiftPlans.get (employment.id, date)).bind shiftPlanInterval).map WorkInterval.minutes).getD 0 =
      planMinutes db employment.id date := by
  unfold planMinutes
  cases found : db.shiftPlans.get (employment.id, date) with
  | none => rfl
  | some plan =>
    obtain ⟨stored, key⟩ := Table.get_eq_some_iff.mp found
    have owned : plan ∈ db.plansOf employment.id := Db.mem_plansOf.mpr ⟨stored, congrArg Prod.fst key⟩
    have bare := clean plan owned
    obtain ⟨owner, day, arrival, departure, status, writer⟩ := plan
    cases status with
    | some status =>
      obtain ⟨rfl, rfl⟩ := bare (by simp)
      rfl
    | none =>
      cases arrival with
      | none => rfl
      | some arrival =>
        cases departure with
        | none => rfl
        | some departure =>
          exact @interval_minutes ⟨owner, day, some arrival, some departure, none, writer⟩ arrival departure rfl rfl

theorem plannedMinutes_day (clean : StatusWithoutTimes db employment.id) (usePersisted : Bool) (date : Int) :
    plannedMinutes (daySummary db employment start finish usePersisted date) = planMinutes db employment.id date :=
  minutes_of_row clean date

theorem plannedHours_day (clean : StatusWithoutTimes db employment.id) (usePersisted : Bool) (date : Int) :
    plannedHours (daySummary db employment start finish usePersisted date) =
      roundMinutesToTenths (planMinutes db employment.id date) / 10 := by
  rw [plannedHours, plannedMinutes_day clean]
  rfl

/-- The month the intervals are taken from makes no difference to a day. -/
theorem planned_day {date : Int} (inside : start ≤ date ∧ date < finish) :
    (daySummary db employment start finish false date).planned = plannedMetrics db employment date := by
  apply calculateDailyMetrics_congr
  rw [dayIntervals_plans db _ _ _ _ inside, dayIntervals_plans db _ _ _ _ (by omega)]

/-- The interval engine counts the minutes of the row. -/
theorem plannedMetrics_total (hourly : employment.employmentType ≠ .taskShiftBased)
    (clean : StatusWithoutTimes db employment.id) (date : Int) :
    ∃ metrics, plannedMetrics db employment date = some metrics ∧
      metrics.total = metricValue (planMinutes db employment.id date) := by
  have parts := dayIntervals_plans db employment.id date (date + 1) date (by omega)
  have total : ((dayIntervals date (shiftPlanIntervals (db.plansBetween employment.id date (date + 1)))).map
      WorkInterval.minutes).sum = planMinutes db employment.id date := by
    rw [parts, ← minutes_of_row clean]
    cases (db.shiftPlans.get (employment.id, date)).bind shiftPlanInterval <;> simp
  unfold plannedMetrics calculateDailyMetrics
  rw [if_neg hourly]
  exact ⟨_, rfl, congrArg metricValue total⟩

end Days

section Months

variable {db : Db} {employment : Employment} {year : Int} {month : Nat} {start finish : Int}

/-- The summary that every payload reads. -/
def computedMonth (db : Db) (start finish : Int) (employment : Employment) : MonthSummary :=
  monthSummary ((monthDays start finish).map (daySummary db employment start finish false))

theorem summaryOn_month {date : Int} (inside : date ∈ monthDays start finish) :
    summaryOn (computedMonth db start finish employment) date = some (daySummary db employment start finish false date) := by
  have located (days : List Int) (listed : date ∈ days) :
      (days.map (daySummary db employment start finish false)).find? (·.date = date) =
        some (daySummary db employment start finish false date) := by
    induction days with
    | nil => cases listed
    | cons first days ih =>
      rw [List.map_cons, List.find?_cons]
      by_cases same : first = date
      · rw [same]
        simp [daySummary]
      · have later : date ∈ days := (List.mem_cons.mp listed).resolve_left (Ne.symm same)
        have passed : decide ((daySummary db employment start finish false first).date = date) = false := by
          simpa [daySummary] using same
        rw [passed]
        exact ih later
  exact located _ inside

theorem lookup_computed {members : List Employment} (listed : employment ∈ members)
    (single : ∀ other ∈ members, other.id = employment.id → other = employment)
    (range : monthRange year month = some (start, finish)) :
    (buildMonthSummaries db members year month false).bind (List.lookup employment.id) =
      some (computedMonth db start finish employment) := by
  rw [buildMonthSummaries, range]
  change List.lookup employment.id (members.map fun member => (member.id, computedMonth db start finish member)) = _
  clear range
  induction members with
  | nil => cases listed
  | cons member members ih =>
    rw [List.map_cons, List.lookup_cons]
    by_cases same : member.id = employment.id
    · rw [single member List.mem_cons_self same, beq_self_eq_true]
    · have later : employment ∈ members := by
        rcases List.mem_cons.mp listed with rfl | later
        · exact absurd rfl same
        · exact later
      rw [beq_eq_false_iff_ne.mpr (Ne.symm same)]
      exact ih later fun other rest => single other (List.mem_cons_of_mem _ rest)

theorem planned_month :
    (computedMonth db start finish employment).planned = plannedMonthMetrics db employment start finish := by
  have each : (monthDays start finish).filterMap (fun date => (daySummary db employment start finish false date).planned) =
      (monthDays start finish).filterMap (plannedMetrics db employment) :=
    List.filterMap_congr fun date inside => planned_day (mem_monthDays.mp inside)
  rw [plannedMonthMetrics, ← each]
  exact congrArg monthMetrics List.filterMap_map

theorem monthPlannedMinutes_month (clean : StatusWithoutTimes db employment.id) :
    monthPlannedMinutes (computedMonth db start finish employment) = (plannedMonth db employment start finish).minutes := by
  simp only [monthPlannedMinutes, computedMonth, monthSummary, plannedMonth, List.map_map, Function.comp_def,
    plannedMinutes_day clean]

theorem monthPlannedHours_month (clean : StatusWithoutTimes db employment.id) :
    monthPlannedHours (computedMonth db start finish employment) = (plannedMonth db employment start finish).hours := by
  simp only [monthPlannedHours, computedMonth, monthSummary, plannedMonth, plannedTenths, List.map_map, Function.comp_def,
    plannedMinutes_day clean, metricValue]

/-- The total of a month is that of its days, in minutes and in tenths. -/
theorem plannedMonthMetrics_total (hourly : employment.employmentType ≠ .taskShiftBased)
    (clean : StatusWithoutTimes db employment.id) (days : start < finish) :
    ∃ metrics, plannedMonthMetrics db employment start finish = some metrics ∧
      metrics.total = some ⟨(plannedMonth db employment start finish).minutes, plannedTenths db employment.id start finish⟩ := by
  choose metrics known total using plannedMetrics_total hourly clean
  have listed : (monthDays start finish).filterMap (plannedMetrics db employment) = (monthDays start finish).map metrics := by
    rw [← List.filterMap_eq_map]
    exact List.filterMap_congr fun date _ => known date
  obtain ⟨first, rest, split⟩ : ∃ first rest, monthDays start finish = first :: rest := by
    have inside : start ∈ monthDays start finish := mem_monthDays.mpr ⟨le_refl _, days⟩
    exact List.exists_cons_of_ne_nil (List.ne_nil_of_mem inside)
  refine ⟨_, by rw [plannedMonthMetrics, listed, split, List.map_cons]; rfl, ?_⟩
  simp only [← List.map_cons, ← split, sumMetrics, List.filterMap_eq_map, List.map_map]
  simp only [split, List.map_cons, Function.comp_apply]
  simp only [plannedMonth, plannedTenths, split, List.map_cons, List.map_map, Function.comp_def, total, metricValue]

end Months

section Payloads

variable {db : Db} {employment : Employment} {year : Int} {month : Nat} {start finish : Int}

theorem days_computed {α : Type} (view : Int → DaySummary → α) :
    (monthDays start finish).mapM (fun date =>
      (summaryOn (computedMonth db start finish employment) date).map (view date)) =
      some ((monthDays start finish).map fun date => view date (daySummary db employment start finish false date)) :=
  mapM_some fun date inside => by rw [summaryOn_month inside, Option.map_some]

/-- A day of a group or of the administration shows its own plan. -/
theorem shownDay_planned (clean : StatusWithoutTimes db employment.id) (plan : Option ShiftPlan) {date : Int}
    (inside : date ∈ monthDays start finish) :
    shownDay (shiftPlanDayOut employment plan (daySummary db employment start finish false date) date) =
      ⟨date, planMinutes db employment.id date, roundMinutesToTenths (planMinutes db employment.id date) / 10,
        (plannedMetrics db employment date).map metricsOut⟩ := by
  rw [shownDay, shiftPlanDayOut, plannedMinutes_day clean, plannedHours_day clean, planned_day (mem_monthDays.mp inside)]

theorem shownDays_planned (clean : StatusWithoutTimes db employment.id) (plans : Int → Option ShiftPlan) :
    ((monthDays start finish).map fun date =>
      shiftPlanDayOut employment (plans date) (daySummary db employment start finish false date) date).map shownDay =
      (plannedMonth db employment start finish).days := by
  rw [List.map_map]
  exact List.map_congr_left fun date inside => shownDay_planned clean (plans date) inside

/-- The days of a month payload, each from the summary of the day. -/
theorem buildMonth_ok {zone : Zone} {view : View} {payload : AttendanceMonthOut}
    (built : buildMonth zone view employment year month = some payload) : ∃ start finish,
    monthRange year month = some (start, finish) ∧
    payload.days = (monthDays start finish).map (fun date => attendanceDayOut zone employment
      (dayEvents zone view.db employment.id start finish) (deletionPartners (dayEvents zone view.db employment.id start finish))
      ((view.db.plansBetween employment.id start finish).find? (·.date = date))
      (daySummary view.db employment start finish false date) date) ∧
    payload.plannedHours = monthPlannedHours (computedMonth view.db start finish employment) ∧
    payload.planned = (computedMonth view.db start finish employment).planned.map monthMetricsOut := by
  simp only [buildMonth, Option.bind_eq_bind, Option.bind_eq_some_iff] at built
  obtain ⟨⟨start, finish⟩, range, summary, summed, days, listed, done⟩ := built
  have computed : summary = computedMonth view.db start finish employment := by
    rw [buildMonthSummary_eq, range] at summed
    exact (Option.some.inj summed).symm
  subst computed
  rw [mapM_some (g := fun date => attendanceDayOut zone employment (dayEvents zone view.db employment.id start finish)
    (deletionPartners (dayEvents zone view.db employment.id start finish))
    ((view.db.plansBetween employment.id start finish).find? (·.date = date))
    (daySummary view.db employment start finish false date) date)] at listed
  · cases listed
    cases done
    exact ⟨start, finish, range, rfl, rfl, rfl⟩
  · intro date inside
    rw [summaryOn_month inside]
    rfl

theorem portal_shows (clean : StatusWithoutTimes db employment.id) (range : monthRange year month = some (start, finish))
    {zone : Zone} {view : View} {payload : AttendanceMonthOut} (same : view.db = db)
    (built : buildMonth zone view employment year month = some payload) :
    PortalShows (plannedMonth db employment start finish) payload := by
  subst same
  obtain ⟨first, last, range', days, planned, metrics⟩ := buildMonth_ok built
  obtain ⟨rfl, rfl⟩ := Prod.mk.inj (Option.some.inj (range'.symm.trans range))
  refine ⟨?_, planned.trans (monthPlannedHours_month clean), metrics.trans (congrArg (Option.map monthMetricsOut) planned_month)⟩
  simp only [days, plannedMonth, List.map_map]
  exact List.map_congr_left fun date inside => by
    simp only [Function.comp_apply, attendanceDayOut, planned_day (mem_monthDays.mp inside)]

theorem group_shows (clean : StatusWithoutTimes db employment.id) {view : View} {auth : PortalUserAuth} {plans : List ShiftPlan}
    {summaries : List (Int × MonthSummary)} {row : GroupShiftPlanRowOut}
    (listed : summaries.lookup employment.id = some (computedMonth db start finish employment))
    (built : groupRow view auth plans year month (monthDays start finish) summaries employment = some row) :
    groupShown row = plannedMonth db employment start finish := by
  simp only [groupRow, listed, Option.bind_eq_bind, Option.bind_some, days_computed] at built
  cases built
  simp only [groupShown, shownDays_planned clean, monthPlannedMinutes_month clean, monthPlannedHours_month clean, planned_month]
  rfl

theorem admin_shows (clean : StatusWithoutTimes db employment.id) {view : View} {plans : List ShiftPlan}
    {shiftPlanLocked attendanceLocked : List Int} {summaries : List (Int × MonthSummary)} {row : ShiftPlanRowOut}
    (listed : summaries.lookup employment.id = some (computedMonth db start finish employment))
    (built : adminRow view plans shiftPlanLocked attendanceLocked start finish summaries employment = some row) :
    adminShown row = plannedMonth db employment start finish := by
  simp only [adminRow, listed, Option.bind_eq_bind, Option.bind_some, days_computed] at built
  cases built
  have added (days : List ShiftPlanDayOut) : days.map ShiftPlanDayOut.plannedMinutes =
      (days.map shownDay).map PlannedDay.minutes := by
    rw [List.map_map]
    rfl
  simp only [adminShown, added, shownDays_planned clean, monthPlannedHours_month clean, planned_month]
  simp only [plannedMonth, List.map_map, Function.comp_def]

theorem report_shows (clean : StatusWithoutTimes db employment.id) {view : View} {plans : List ShiftPlan}
    {summaries : List (Int × MonthSummary)} {row : ShiftPlanReportEmployment}
    (listed : summaries.lookup employment.id = some (computedMonth db start finish employment))
    (built : reportEmployment view plans start finish summaries employment = some row) :
    ReportShows db employment start finish row := by
  simp only [reportEmployment, listed, Option.bind_eq_bind, Option.bind_some, days_computed] at built
  cases built
  refine ⟨?_, monthPlannedMinutes_month clean, monthPlannedHours_month clean, ?_, ?_⟩
  · simp only [plannedMonth, List.map_map]
    exact List.map_congr_left fun date _ => by
      simp only [Function.comp_apply, reportCell, plannedMinutes_day clean, plannedHours_day clean]
  · rw [List.map_map]
    exact List.map_congr_left fun date inside => by
      simp only [Function.comp_apply, reportCell, planned_day (mem_monthDays.mp inside)]
  · rw [planned_month]

theorem activeMembers_stored (store : GroupStore) (groupId start finish : Int) :
    ∀ member ∈ activeMembers store groupId start finish, member ∈ store.db.employments := by
  intro member active
  obtain ⟨reference, -, found⟩ := List.mem_filterMap.mp (List.mem_of_mem_filter active)
  exact (Table.get_eq_some_iff.mp found).1

theorem available_stored (db : Db) (start finish : Int) :
    ∀ member ∈ availableEmployments db start finish, member ∈ db.employments := by
  intro member available
  exact (Table.mem_select.mp ((List.mem_insertionSort _).mp (List.mem_of_mem_filter available))).1

/-- A row of a payload is computed from the stored employment with its number. -/
theorem row_source {ρ : Type} {members : List Employment} (stored : ∀ member ∈ members, member ∈ db.employments)
    (known : employment ∈ db.employments) (range : monthRange year month = some (start, finish))
    {summaries : List (Int × MonthSummary)} (summed : buildMonthSummaries db members year month false = some summaries)
    {ordered : List Employment} (same : ∀ member ∈ ordered, member ∈ members) {build : Employment → Option ρ} {rows : List ρ}
    (built : ordered.mapM build = some rows) {number : ρ → Int} (numbered : ∀ member row, build member = some row → number row = member.id)
    {row : ρ} (listed : row ∈ rows) (mine : number row = employment.id) :
    build employment = some row ∧ summaries.lookup employment.id = some (computedMonth db start finish employment) := by
  obtain ⟨member, inside, source⟩ := mem_of_mapM built listed
  have single : ∀ other ∈ members, other.id = employment.id → other = employment :=
    fun other inside id => db.employments.key_inj (stored other inside) known id
  obtain rfl : member = employment := single member (same member inside) ((numbered member row source).symm.trans mine)
  refine ⟨source, ?_⟩
  rw [← lookup_computed (same member inside) single range, summed, Option.bind_some]

theorem groupRow_number {view : View} {auth : PortalUserAuth} {plans : List ShiftPlan} {days : List Int}
    {summaries : List (Int × MonthSummary)} (member : Employment) (row : GroupShiftPlanRowOut)
    (built : groupRow view auth plans year month days summaries member = some row) : row.employmentId = member.id := by
  simp only [groupRow, Option.bind_eq_bind, Option.bind_eq_some_iff] at built
  obtain ⟨summary, -, daysOut, -, done⟩ := built
  cases done
  rfl

theorem adminRow_number {view : View} {plans : List ShiftPlan} {shiftPlanLocked attendanceLocked : List Int}
    {summaries : List (Int × MonthSummary)} (member : Employment) (row : ShiftPlanRowOut)
    (built : adminRow view plans shiftPlanLocked attendanceLocked start finish summaries member = some row) :
    row.employmentId = member.id := by
  simp only [adminRow, Option.bind_eq_bind, Option.bind_eq_some_iff] at built
  obtain ⟨summary, -, daysOut, -, done⟩ := built
  cases done
  rfl

theorem reportEmployment_number {view : View} {plans : List ShiftPlan} {summaries : List (Int × MonthSummary)}
    (member : Employment) (row : ShiftPlanReportEmployment)
    (built : reportEmployment view plans start finish summaries member = some row) : row.employmentId = member.id := by
  simp only [reportEmployment, Option.bind_eq_bind, Option.bind_eq_some_iff] at built
  obtain ⟨summary, -, cells, -, done⟩ := built
  cases done
  rfl

end Payloads

private theorem eight_valid : isValidHhmm "08:00" := by decide

/-- Two plans of 250 minutes, a plan without a departure and a day off, in August 2026. -/
def plannedDb : Db :=
  { sampleDb with shiftPlans := ⟨[
      ⟨1, 739834, some ⟨"08:00", eight_valid⟩, some ⟨"12:10", by decide⟩, none, none⟩,
      ⟨1, 739835, some ⟨"08:00", eight_valid⟩, some ⟨"12:10", by decide⟩, none, none⟩,
      ⟨1, 739836, some ⟨"08:00", eight_valid⟩, none, none, none⟩,
      ⟨1, 739837, none, none, some .off, none⟩], by decide⟩ }

end Dagmar.Payloads.Proofs
