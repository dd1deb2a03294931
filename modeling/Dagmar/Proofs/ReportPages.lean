import Dagmar.Proofs.PlannedTotals

/-! A report of the shift plan holds the requested employments once each, in the order
in which they were first asked for, five to a page; every row has a cell for each day
of the month, with the plan that is stored for it. -/

namespace Dagmar.Payloads.Proofs
open Library Library.Calendar Library.Outcome Integration Groups Dagmar.Proofs

section Ids

theorem mem_uniqueIds {seen values : List Int} {id : Int} : id ∈ uniqueIds seen values ↔ id ∈ values ∧ id ∉ seen := by
  induction values generalizing seen with
  | nil => simp [uniqueIds]
  | cons value values ih =>
    unfold uniqueIds
    split
    · next known =>
      rw [ih, List.mem_cons]
      constructor
      · exact fun ⟨later, fresh⟩ => ⟨.inr later, fresh⟩
      · rintro ⟨rfl | later, fresh⟩
        · exact absurd known fresh
        · exact ⟨later, fresh⟩
    · next fresh =>
      rw [List.mem_cons, ih, List.mem_cons, List.mem_cons, not_or]
      constructor
      · rintro (rfl | ⟨later, other, unseen⟩)
        · exact ⟨.inl rfl, fresh⟩
        · exact ⟨.inr later, unseen⟩
      · rintro ⟨rfl | later, unseen⟩
        · exact .inl rfl
        · by_cases same : id = value
          · exact .inl same
          · exact .inr ⟨later, same, unseen⟩

/-- The first places of the values ascend. -/
theorem uniqueIds_ascending (seen values : List Int) :
    (uniqueIds seen values).Pairwise fun first second => values.idxOf first < values.idxOf second := by
  induction values generalizing seen with
  | nil => exact .nil
  | cons value values ih =>
    have shift {later : List Int} (differs : ∀ id ∈ later, id ≠ value)
        (ascending : later.Pairwise fun first second => values.idxOf first < values.idxOf second) :
        later.Pairwise fun first second => (value :: values).idxOf first < (value :: values).idxOf second := by
      apply ascending.imp_of_mem
      intro first second left right before
      rw [List.idxOf_cons_ne _ (Ne.symm (differs first left)), List.idxOf_cons_ne _ (Ne.symm (differs second right))]
      exact Nat.succ_lt_succ before
    unfold uniqueIds
    split
    · next known =>
      apply shift _ (ih seen)
      rintro id member rfl
      exact (mem_uniqueIds.mp member).2 known
    · have differs : ∀ id ∈ uniqueIds (value :: seen) values, id ≠ value := by
        rintro id member rfl
        exact (mem_uniqueIds.mp member).2 List.mem_cons_self
      apply List.pairwise_cons.mpr
      refine ⟨?_, shift differs (ih _)⟩
      intro id member
      rw [List.idxOf_cons_self, List.idxOf_cons_ne _ (Ne.symm (differs id member))]
      exact Nat.succ_pos _

end Ids

section Rows

variable {view : View} {year : Int} {month : Nat} {start finish : Int} {ids : List Int}

/-- The employment of a request, and what the report needs of it. -/
def Printable (view : View) (start finish id : Int) : Prop :=
  ∃ employment, view.db.employments.get id = some employment ∧ employmentIsActiveInMonth view.db employment start finish = true

/-- The row of an employment, whose summary is that of the month. -/
def monthRow (view : View) (plans : List ShiftPlan) (start finish : Int) (employment : Employment) : ShiftPlanReportEmployment :=
  let cells := (monthDays start finish).map fun date =>
    reportCell employment (planOn plans employment.id date) (daySummary view.db employment start finish false date) date
  let summary := computedMonth view.db start finish employment
  { employmentId := employment.id
    displayLabel := employmentLabel view employment
    userName := shownUserName view employment
    title := view.columns.title employment.id
    employmentType := typeValue employment.employmentType
    startDate := employment.startDate
    endDate := employment.endDate
    isActiveInMonth := true
    displayMetrics := displayMetricsForEmployment employment
    cells := cells
    plannedMinutesTotal := monthPlannedMinutes summary
    plannedHours := monthPlannedHours summary
    plannedMetrics := monthlyMetricPayload summary.planned (displayMetricsForEmployment employment)
    statusMetrics := statusMetricPayload summary.statusMetrics
    scheduledDays := (monthDays start finish).countP fun date => isScheduled (planOn plans employment.id date)
    holidayDays := cells.countP (·.status = some .holiday)
    offDays := cells.countP (·.status = some .off) }

/-- The employments of the request, in its order. -/
def requested (view : View) (ids : List Int) : List Employment := (uniqueIds [] ids).filterMap view.db.employments.get

theorem mem_requested {employment : Employment} (member : employment ∈ requested view ids) :
    employment ∈ view.db.employments ∧ employment.id ∈ ids := by
  obtain ⟨id, listed, found⟩ := List.mem_filterMap.mp member
  obtain ⟨stored, rfl⟩ := Table.get_eq_some_iff.mp found
  exact ⟨stored, (mem_uniqueIds.mp listed).1⟩

theorem requested_ids (known : ∀ id ∈ ids, view.db.employments.get id ≠ none) :
    (requested view ids).map Employment.id = uniqueIds [] ids := by
  have named : ∀ id ∈ uniqueIds [] ids, (view.db.employments.get id).map Employment.id = some id := by
    intro id member
    obtain ⟨employment, found⟩ := Option.ne_none_iff_exists'.mp (known id (mem_uniqueIds.mp member).1)
    rw [found, Option.map_some, (Table.get_eq_some_iff.mp found).2]
  rw [requested, List.map_filterMap, List.filterMap_congr named, List.filterMap_some]

theorem reportEmployment_month {plans : List ShiftPlan} {employment : Employment} {summaries : List (Int × MonthSummary)}
    (listed : summaries.lookup employment.id = some (computedMonth view.db start finish employment)) :
    reportEmployment view plans start finish summaries employment = some (monthRow view plans start finish employment) := by
  simp only [reportEmployment, listed, Option.bind_eq_bind, Option.bind_some, days_computed]
  rfl

theorem reportEmployments_month (range : monthRange year month = some (start, finish)) (plans : List ShiftPlan)
    {summaries : List (Int × MonthSummary)}
    (summed : buildMonthSummaries view.db (requested view ids) year month false = some summaries) :
    (requested view ids).mapM (reportEmployment view plans start finish summaries) =
      some ((requested view ids).map (monthRow view plans start finish)) := by
  apply mapM_some
  intro employment member
  have single : ∀ other ∈ requested view ids, other.id = employment.id → other = employment :=
    fun other inside same => view.db.employments.key_inj (mem_requested inside).1 (mem_requested member).1 same
  have listed : summaries.lookup employment.id = some (computedMonth view.db start finish employment) := by
    rw [← lookup_computed member single range, summed, Option.bind_some]
  exact reportEmployment_month listed

def monthHeaders (start finish : Int) : List DayHeader :=
  (monthDays start finish).map fun date => ⟨date, dayOf date, weekdayShort date, toneForDay date, reportHolidayLabel date⟩

/-- The rows of the report. -/
def monthRows (view : View) (start finish : Int) (ids : List Int) : List ShiftPlanReportEmployment :=
  (requested view ids).map (monthRow view (monthPlans view.db (uniqueIds [] ids) start finish) start finish)

theorem uniqueIds_eq_nil : uniqueIds [] ids = [] ↔ ids = [] := by
  constructor
  · intro empty
    apply List.eq_nil_iff_forall_not_mem.mpr
    intro id member
    have found := mem_uniqueIds.mpr ⟨member, List.not_mem_nil⟩
    simp [empty] at found
  · rintro rfl
    rfl

/-- What a report is built from, and when it is built. -/
theorem buildShiftPlanReport_eq_ok {zone : Zone} {report : ShiftPlanReport} (range : monthRange year month = some (start, finish)) :
    buildShiftPlanReport zone view year month ids = .ok report ↔
      ids ≠ [] ∧ (∀ id ∈ ids, Printable view start finish id) ∧
        report = ⟨year, month, (monthLabels[month - 1]?).getD "" ++ " " ++ toString year, view.clock.now zone,
          monthHeaders start finish, reportPages (monthRows view start finish ids)⟩ := by
  simp only [buildShiftPlanReport, bind_eq_ok, raiseIf_eq_ok, require_eq_ok, pure_eq_ok, range, Option.some.injEq]
  have active : (∀ id ∈ ids, Printable view start finish id) ↔
      (¬ ∃ id ∈ uniqueIds [] ids, view.db.employments.get id = none) ∧
      ¬ ∃ employment ∈ requested view ids, ¬ employmentIsActiveInMonth view.db employment start finish = true := by
    push Not
    constructor
    · intro printable
      constructor
      · intro id member
        obtain ⟨employment, found, -⟩ := printable id (mem_uniqueIds.mp member).1
        simp [found]
      · intro employment member
        obtain ⟨stored, listed⟩ := mem_requested member
        obtain ⟨other, found, active⟩ := printable employment.id listed
        rwa [view.db.employments.key_inj stored (Table.get_eq_some_iff.mp found).1 (Table.get_eq_some_iff.mp found).2.symm]
    · rintro ⟨known, active⟩ id member
      have unique := mem_uniqueIds.mpr ⟨member, List.not_mem_nil⟩
      obtain ⟨employment, found⟩ := Option.ne_none_iff_exists'.mp (known id unique)
      exact ⟨employment, found, active employment (List.mem_filterMap.mpr ⟨id, unique, found⟩)⟩
  obtain ⟨summaries, summed⟩ : ∃ summaries, buildMonthSummaries view.db (requested view ids) year month false = some summaries := by
    rw [buildMonthSummaries, range]
    exact ⟨_, rfl⟩
  have rows := reportEmployments_month range (monthPlans view.db (uniqueIds [] ids) start finish) summed
  constructor
  · rintro ⟨-, some_, _, rfl, -, known, -, overlapping, found, same, built, done, rfl⟩
    obtain rfl : found = summaries := Option.some.inj (same.symm.trans summed)
    obtain rfl := Option.some.inj (done.symm.trans rows)
    exact ⟨mt uniqueIds_eq_nil.mpr some_, active.mpr ⟨known, overlapping⟩, rfl⟩
  · rintro ⟨some_, printable, rfl⟩
    obtain ⟨known, overlapping⟩ := active.mp printable
    exact ⟨(), mt uniqueIds_eq_nil.mp some_, _, rfl, (), known, (), overlapping, summaries, summed, _, rows, rfl⟩

end Rows

/-- The shape of a report of some employments. -/
structure ReportShape (view : View) (start finish : Int) (ids : List Int) (report : ShiftPlanReport) : Prop where
  numbered : report.pages.map ShiftPlanReportPage.pageNumber = List.range' 1 report.pages.length
  filled : ∀ page ∈ report.pages, 0 < page.employments.length ∧ page.employments.length ≤ employmentsPerPage
  full : ∀ page ∈ report.pages.dropLast, page.employments.length = employmentsPerPage
  listed : ∀ id, id ∈ (report.pages.flatMap ShiftPlanReportPage.employments).map ShiftPlanReportEmployment.employmentId ↔ id ∈ ids
  ordered : ((report.pages.flatMap ShiftPlanReportPage.employments).map ShiftPlanReportEmployment.employmentId).Pairwise
    fun first second => ids.idxOf first < ids.idxOf second
  headed : report.dayHeaders.map DayHeader.date = monthDays start finish
  aligned : ∀ page ∈ report.pages, ∀ row ∈ page.employments,
    row.cells.map (fun cell => DayHeader.mk cell.date cell.dayNumber cell.weekdayShort cell.tone cell.holidayLabel) = report.dayHeaders
  stored : ∀ page ∈ report.pages, ∀ row ∈ page.employments, ∀ cell ∈ row.cells,
    cell.arrivalTime = (view.db.shiftPlans.get (row.employmentId, cell.date)).bind ShiftPlan.arrivalTime ∧
    cell.departureTime = (view.db.shiftPlans.get (row.employmentId, cell.date)).bind ShiftPlan.departureTime
  counted : ∀ page ∈ report.pages, ∀ row ∈ page.employments,
    row.scheduledDays = row.cells.countP (fun cell => cell.arrivalTime.isSome && cell.departureTime.isSome) ∧
    row.holidayDays = row.cells.countP (·.status = some .holiday) ∧ row.offDays = row.cells.countP (·.status = some .off)

section Shape

variable {view : View} {year : Int} {month : Nat} {start finish : Int} {ids : List Int}

theorem reportPages_rows (rows : List ShiftPlanReportEmployment) :
    (reportPages rows).flatMap ShiftPlanReportPage.employments = rows := by
  rw [reportPages, List.flatMap_map]
  exact flatMap_run rows (by decide)

theorem mem_reportPages {rows : List ShiftPlanReportEmployment} {page : ShiftPlanReportPage} (member : page ∈ reportPages rows)
    {row : ShiftPlanReportEmployment} (inside : row ∈ page.employments) : row ∈ rows := by
  rw [← reportPages_rows rows]
  exact List.mem_flatMap.mpr ⟨page, member, inside⟩

theorem reportPages_filled (rows : List ShiftPlanReportEmployment) :
    ∀ page ∈ reportPages rows, 0 < page.employments.length ∧ page.employments.length ≤ employmentsPerPage := by
  intro page member
  obtain ⟨index, inside, rfl⟩ := List.mem_map.mp member
  exact run_filled rows (by decide) (List.mem_range.mp inside)

theorem reportPages_full (rows : List ShiftPlanReportEmployment) :
    ∀ page ∈ (reportPages rows).dropLast, page.employments.length = employmentsPerPage := by
  intro page member
  rw [reportPages, ← List.map_dropLast, List.dropLast_eq_take, List.take_range, List.length_range] at member
  obtain ⟨index, inside, rfl⟩ := List.mem_map.mp member
  have bound := List.mem_range.mp inside
  exact run_full rows (by decide) (by omega)

/-- The plan of an employment on a day of the month is the stored row. -/
theorem planOn_stored {employmentId date : Int} (listed : employmentId ∈ ids) (inside : date ∈ monthDays start finish) (db : Db) :
    planOn (monthPlans db ids start finish) employmentId date = db.shiftPlans.get (employmentId, date) := by
  have bounds := mem_monthDays.mp inside
  apply Option.ext
  intro plan
  rw [Table.get_eq_some_iff]
  constructor
  · intro found
    have matching := List.find?_some found
    simp only [decide_eq_true_eq] at matching
    exact ⟨(Table.mem_select.mp (List.mem_of_find?_eq_some found)).1, Prod.ext matching.1 matching.2⟩
  · rintro ⟨stored, key⟩
    obtain ⟨rfl, rfl⟩ := Prod.mk.inj key
    have selected : plan ∈ monthPlans db ids start finish := Table.mem_select.mpr ⟨stored, listed, bounds⟩
    cases found : planOn (monthPlans db ids start finish) plan.employmentId plan.date with
    | none =>
      have missed := List.find?_eq_none.mp found plan selected
      simp at missed
    | some other =>
      have matching := List.find?_some found
      simp only [decide_eq_true_eq] at matching
      have stored' := (Table.mem_select.mp (List.mem_of_find?_eq_some found)).1
      exact congrArg some (db.shiftPlans.key_inj stored' stored (Prod.ext matching.1 matching.2))

theorem monthRow_aligned (plans : List ShiftPlan) (employment : Employment) :
    (monthRow view plans start finish employment).cells.map (fun cell =>
      DayHeader.mk cell.date cell.dayNumber cell.weekdayShort cell.tone cell.holidayLabel) = monthHeaders start finish := by
  simp only [monthRow, List.map_map, monthHeaders]
  rfl

theorem report_shape_month {generated : Timestamp} {label : String} (known : ∀ id ∈ ids, view.db.employments.get id ≠ none) :
    ReportShape view start finish ids
      ⟨year, month, label, generated, monthHeaders start finish, reportPages (monthRows view start finish ids)⟩ := by
  have source {page : ShiftPlanReportPage} (paged : page ∈ reportPages (monthRows view start finish ids))
      {row : ShiftPlanReportEmployment} (inside : row ∈ page.employments) : ∃ employment, employment.id ∈ uniqueIds [] ids ∧
        monthRow view (monthPlans view.db (uniqueIds [] ids) start finish) start finish employment = row := by
    obtain ⟨employment, member, same⟩ := List.mem_map.mp (mem_reportPages paged inside)
    exact ⟨employment, mem_uniqueIds.mpr ⟨(mem_requested member).2, List.not_mem_nil⟩, same⟩
  have ids_eq : ((reportPages (monthRows view start finish ids)).flatMap ShiftPlanReportPage.employments).map
      ShiftPlanReportEmployment.employmentId = uniqueIds [] ids := by
    rw [reportPages_rows, monthRows, List.map_map, ← requested_ids known]
    rfl
  constructor
  · simp [reportPages, List.range'_eq_map_range, Function.comp_def, Nat.add_comm]
  · exact reportPages_filled _
  · exact reportPages_full _
  · intro id
    rw [ids_eq, mem_uniqueIds]
    simp
  · rw [ids_eq]
    exact uniqueIds_ascending [] ids
  · simp [monthHeaders, Function.comp_def]
  · intro page paged row inside
    obtain ⟨employment, -, rfl⟩ := source paged inside
    exact monthRow_aligned _ employment
  · intro page paged row inside cell shown
    obtain ⟨employment, listed, rfl⟩ := source paged inside
    obtain ⟨date, day, rfl⟩ := List.mem_map.mp shown
    simp only [reportCell, monthRow, planOn_stored listed day, and_self]
  · intro page paged row inside
    obtain ⟨employment, listed, rfl⟩ := source paged inside
    refine ⟨?_, rfl, rfl⟩
    simp only [monthRow, List.countP_map]
    apply List.countP_congr
    intro date _
    cases plan : planOn (monthPlans view.db (uniqueIds [] ids) start finish) employment.id date <;>
      simp [reportCell, isScheduled, plan]

variable {zone : Zone} {report : ShiftPlanReport}

theorem range_of_built (built : buildShiftPlanReport zone view year month ids = .ok report) :
    ∃ start finish, monthRange year month = some (start, finish) := by
  simp only [buildShiftPlanReport, bind_eq_ok, require_eq_ok] at built
  obtain ⟨-, -, range, found, -⟩ := built
  exact ⟨range.1, range.2, found⟩

theorem shape_of_built (range : monthRange year month = some (start, finish))
    (built : buildShiftPlanReport zone view year month ids = .ok report) : ReportShape view start finish ids report := by
  obtain ⟨-, printable, rfl⟩ := (buildShiftPlanReport_eq_ok range).mp built
  apply report_shape_month
  intro id member
  obtain ⟨employment, found, -⟩ := printable id member
  simp [found]

end Shape

/-- A report is made of exactly the employments of a request that are active in the month. -/
theorem report_shape (zone : Zone) (view : View) {year : Int} {month : Nat} {start finish : Int}
    (range : monthRange year month = some (start, finish)) (ids : List Int) :
    ((∃ report, buildShiftPlanReport zone view year month ids = .ok report) ↔
      ids ≠ [] ∧ ∀ id ∈ ids, Printable view start finish id) ∧
    ∀ report, buildShiftPlanReport zone view year month ids = .ok report → ReportShape view start finish ids report := by
  constructor
  · constructor
    · rintro ⟨report, built⟩
      obtain ⟨some_, printable, -⟩ := (buildShiftPlanReport_eq_ok range).mp built
      exact ⟨some_, printable⟩
    · rintro ⟨some_, printable⟩
      exact ⟨_, (buildShiftPlanReport_eq_ok range).mpr ⟨some_, printable, rfl⟩⟩
  · intro report built
    obtain ⟨-, printable, rfl⟩ := (buildShiftPlanReport_eq_ok range).mp built
    apply report_shape_month
    intro id member
    obtain ⟨employment, found, -⟩ := printable id member
    simp [found]

theorem eleven_sinceEpoch : midnight (ordinal 1970 1 1) ≤ midnight 739833 + 660 * minute := by decide

def plannedView : View where
  clock := ⟨_, eleven_sinceEpoch⟩
  db := plannedDb
  columns := ⟨fun _ => "Recepce", fun _ => "Jana", fun _ => 0⟩

/-- The report of August 2026 that asks for one employment twice. -/
theorem sample_report_shape :
    ∃ report, buildShiftPlanReport (pragueSpring march2026 march2026_evening) plannedView 2026 8 [1, 1] = .ok report ∧
      ReportShape plannedView 739829 739860 [1, 1] report := by
  obtain ⟨built, shape⟩ :=
    @report_shape (pragueSpring march2026 march2026_evening) plannedView 2026 8 739829 739860 (by decide) [1, 1]
  have printable : ∀ id ∈ [1, 1], Printable plannedView 739829 739860 id := by
    intro id member
    obtain rfl : id = 1 := by simpa using member
    exact ⟨sampleEmployment, by decide, by decide⟩
  obtain ⟨report, done⟩ := built.mpr ⟨by decide, printable⟩
  exact ⟨report, done, shape report done⟩

end Dagmar.Payloads.Proofs
