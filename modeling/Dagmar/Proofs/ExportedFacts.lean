import Dagmar.CsvExport
import Dagmar.Proofs.DeletionPartners

/-! The CSV of a month has a row for each day with a fact, and every row holds what is
stored for its day: the times in their order, the status that counts and the plan. -/

namespace Dagmar.Payloads.Proofs
open Library Library.Calendar Library.Outcome Integration Dagmar.Proofs

section Facts

/-- The times of a day in the order of their instants. -/
def dayTimes (db : Db) (employmentId date : Int) : List AttendanceEvent :=
  ((db.eventsOf employmentId).insertionSort storedLe).filter (·.occurredAt.date = date)

def dayStatus (db : Db) (employmentId date : Int) : Option DayStatus :=
  effectiveStatus (db.attendance.get (employmentId, date)) (db.shiftPlans.get (employmentId, date))

def planTime (db : Db) (employmentId date : Int) (time : ShiftPlan → Option ClockTime) : Option ClockTime :=
  (db.shiftPlans.get (employmentId, date)).bind time

/-- Some displayed metric of the worked time of the day is not zero. -/
def ShowsWork (db : Db) (employment : Employment) (date : Int) : Prop :=
  ∃ key ∈ displayMetricsForEmployment employment, ∃ metrics,
    calculateDailyMetrics employment date (pairEvents (db.eventsOf employment.id)) = some metrics ∧
    ∃ metric, (metricsOut metrics).get key = some metric ∧ metric.tenths ≠ 0

/-- What keeps a day in the export. -/
def HasFact (db : Db) (employment : Employment) (date : Int) : Prop :=
  dayTimes db employment.id date ≠ [] ∨ dayStatus db employment.id date ≠ none ∨
    planTime db employment.id date ShiftPlan.arrivalTime ≠ none ∨
    planTime db employment.id date ShiftPlan.departureTime ≠ none ∨ ShowsWork db employment date

end Facts

section Days
variable {year : Int} {month : Nat} {start finish : Int}

theorem monthRange_inCalendar (range : monthRange year month = some (start, finish)) {date : Int}
    (inside : date ∈ monthDays start finish) : inCalendar date := by
  have bounds := mem_monthDays.mp inside
  obtain ⟨⟨first, last, -, early, -⟩, rfl, rfl⟩ := monthRange_eq_some.mp range
  have begun := daysBeforeYear_mono (show 1 ≤ year from first)
  have counted := daysBeforeMonth_mono year (Nat.zero_le month)
  have closed := daysBeforeMonth_mono year (show month + 1 ≤ 13 from Nat.succ_le_succ early)
  have next := firstDay_thirteen year
  have final := daysBeforeYear_mono (show year + 1 ≤ 10000 from Int.add_le_add_right last 1)
  have zero : daysBeforeYear 1 = 0 := by decide
  have january (year : Int) : daysBeforeMonth year 0 = 0 ∧ daysBeforeMonth year 1 = 0 := ⟨rfl, rfl⟩
  have end' : ordinal 9999 12 31 = daysBeforeYear 10000 := by decide
  have first' := january year
  have second' := january (year + 1)
  rw [inCalendar, end']
  simp only [firstDay, ordinal] at bounds next
  omega

theorem monthDays_ascending (start finish : Int) : (monthDays start finish).Pairwise (· < ·) := by
  apply List.pairwise_map.mpr
  refine List.pairwise_lt_range.imp fun below => ?_
  omega

end Days

section Window
variable {zone : Zone} {db : Db} {employmentId start finish date : Int}

/-- The plan that the payload finds is that of the day. -/
theorem plansBetween_find (inside : start ≤ date ∧ date < finish) :
    (db.plansBetween employmentId start finish).find? (·.date = date) = db.shiftPlans.get (employmentId, date) := by
  cases found : db.shiftPlans.get (employmentId, date) with
  | none =>
    apply List.find?_eq_none.mpr
    intro plan member
    obtain ⟨stored, owner, -⟩ := Table.mem_select.mp member
    intro same
    have different := Table.get_eq_none_iff.mp found plan stored
    exact different (Prod.ext owner (of_decide_eq_true same))
  | some plan =>
    obtain ⟨stored, key⟩ := Table.get_eq_some_iff.mp found
    cases key
    have listed : plan ∈ db.plansBetween plan.employmentId start finish := Table.mem_select.mpr ⟨stored, rfl, inside⟩
    cases other : (db.plansBetween plan.employmentId start finish).find? (·.date = plan.date) with
    | none => exact absurd (decide_eq_true rfl) (List.find?_eq_none.mp other plan listed)
    | some chosen =>
      obtain ⟨stored', owner, -⟩ := Table.mem_select.mp (List.mem_of_find?_eq_some other)
      have same : chosen.date = plan.date := by simpa using List.find?_some other
      exact congrArg some (db.shiftPlans.key_inj stored' stored (Prod.ext owner same))

/-- The window in its order, on one day of the month. -/
theorem dayEvents_filter (rested : Rested zone db) (inside : start ≤ date ∧ date < finish) :
    (dayEvents zone db employmentId start finish).filter (·.occurredAt.date = date) = dayTimes db employmentId date := by
  have first := zone.midnights start date inside.1
  have last := zone.midnights (date + 1) finish inside.2
  have placed {event : AttendanceEvent} (member : event ∈ (db.eventsOf employmentId).insertionSort storedLe) :
      event.occurredAt.date = date ↔
        zone.toUtc (midnight date) ≤ event.occurredAt.utc ∧ event.occurredAt.utc < zone.toUtc (midnight (date + 1)) := by
    have settled := rested event (Db.mem_eventsOf.mp ((List.mem_insertionSort _).mp member)).1
    rw [Timestamp.date, ← settled]
    exact zone.days _ _
  have outside {found : Option AttendanceEvent} {p : AttendanceEvent → Bool}
      (listed : ∀ event ∈ found, event ∈ ((db.eventsOf employmentId).insertionSort storedLe).filter p)
      (apart : ∀ event, p event = true → event.occurredAt.utc < zone.toUtc (midnight start) ∨
        zone.toUtc (midnight finish) ≤ event.occurredAt.utc) :
      found.toList.filter (·.occurredAt.date = date) = [] := by
    apply List.filter_eq_nil_iff.mpr
    intro event member
    obtain ⟨stored, passes⟩ := List.mem_filter.mp (listed event (Option.mem_toList.mp member))
    have far := apart event passes
    rw [decide_eq_true_eq, placed stored]
    omega
  rw [dayEvents, List.filter_append, List.filter_append]
  rw [outside (fun event member => List.mem_of_getLast? member) fun event passes => .inl (of_decide_eq_true passes)]
  rw [outside (fun event member => List.mem_of_head? member) fun event passes => .inr (of_decide_eq_true passes)]
  rw [List.nil_append, List.append_nil, List.filter_filter, dayTimes]
  apply List.filter_congr
  intro event member
  have today := placed member
  by_cases same : event.occurredAt.date = date
  · have bounds := today.mp same
    simp only [same, decide_true, Bool.true_and, decide_eq_true_eq]
    omega
  · simp [same]

end Window

section Rows
variable {zone : Zone} {view : View} {employment : Employment} {year : Int} {month : Nat} {start finish : Int}
  {payload : AttendanceMonthOut}

/-- The day of a month as `_build_month` shows it. -/
def exportedDay (zone : Zone) (db : Db) (employment : Employment) (start finish date : Int) : AttendanceDayOut :=
  attendanceDayOut zone employment (dayEvents zone db employment.id start finish)
    (deletionPartners (dayEvents zone db employment.id start finish))
    ((db.plansBetween employment.id start finish).find? (·.date = date)) (daySummary db employment start finish false date) date

theorem buildMonth_some (range : monthRange year month = some (start, finish)) :
    ∃ payload, buildMonth zone view employment year month = some payload ∧
      payload.days = (monthDays start finish).map (exportedDay zone view.db employment start finish) ∧
      payload.displayMetrics = displayMetricsForEmployment employment := by
  rw [buildMonth, range, buildMonthSummary_eq, range]
  simp only [Option.bind_eq_bind, Option.bind_some, Option.map_some]
  rw [mapM_some (g := exportedDay zone view.db employment start finish)]
  · exact ⟨_, rfl, rfl, rfl⟩
  · intro date inside
    have found := @summaryOn_month view.db employment start finish date inside
    rw [computedMonth] at found
    rw [found]
    rfl

variable {db : Db} {date : Int}

theorem exportedDay_events (rested : Rested zone db) (inside : start ≤ date ∧ date < finish) :
    (exportedDay zone db employment start finish date).events =
      (dayTimes db employment.id date).map
        (attendanceEventOut zone (deletionPartners (dayEvents zone db employment.id start finish))) := by
  rw [← dayEvents_filter rested inside]
  rfl

theorem exportedDay_status (inside : start ≤ date ∧ date < finish) :
    (exportedDay zone db employment start finish date).effectiveStatus = dayStatus db employment.id date := by
  rw [exportedDay, plansBetween_find inside, dayStatus, effectiveStatus]
  simp only [attendanceDayOut, daySummary]
  cases (db.attendance.get (employment.id, date)).bind Attendance.status <;> rfl

theorem exportedDay_plan (inside : start ≤ date ∧ date < finish) :
    (exportedDay zone db employment start finish date).plannedArrivalTime = planTime db employment.id date ShiftPlan.arrivalTime ∧
      (exportedDay zone db employment start finish date).plannedDepartureTime =
        planTime db employment.id date ShiftPlan.departureTime := by
  rw [exportedDay, plansBetween_find inside]
  exact ⟨rfl, rfl⟩

/-- Hours of a status are shown only for a day that has one. -/
theorem hasStatusHours_status
    (hours : hasStatusHours (exportedDay zone db employment start finish date) = true) : dayStatus db employment.id date ≠ none := by
  intro free
  have metrics : (exportedDay zone db employment start finish date).statusMetrics =
      statusMetricsOut (calculateDayStatusMetrics employment (dayStatus db employment.id date)) := rfl
  rw [hasStatusHours, metrics, free] at hours
  simp [calculateDayStatusMetrics, statusMetricsOut, StatusMetricsOut.values, isNonzero] at hours

theorem hasDisplayedWork_iff (shown : payload.displayMetrics = displayMetricsForEmployment employment) :
    hasDisplayedWork payload (exportedDay zone db employment start finish date) = true ↔ ShowsWork db employment date := by
  have worked : (exportedDay zone db employment start finish date).worked =
      (calculateDailyMetrics employment date (pairEvents (db.eventsOf employment.id))).map metricsOut := rfl
  rw [hasDisplayedWork, shown, worked, List.any_eq_true]
  apply exists_congr
  intro key
  apply and_congr_right
  intro _
  cases calculateDailyMetrics employment date (pairEvents (db.eventsOf employment.id)) with
  | none => simp [isNonzero]
  | some metrics =>
    simp only [Option.map_some, Option.bind_some, Option.some.injEq, exists_eq_left']
    cases (metricsOut metrics).get key <;> simp [isNonzero]

theorem isWritten_iff (rested : Rested zone db) (shown : payload.displayMetrics = displayMetricsForEmployment employment)
    (inside : start ≤ date ∧ date < finish) :
    isWritten payload (exportedDay zone db employment start finish date) = true ↔ HasFact db employment date := by
  have hours : hasStatusHours (exportedDay zone db employment start finish date) = true → dayStatus db employment.id date ≠ none :=
    hasStatusHours_status
  simp only [isWritten, exportedDay_events rested inside, exportedDay_status inside, exportedDay_plan inside, Bool.or_eq_true,
    decide_eq_true_eq, hasDisplayedWork_iff shown, Option.isSome_iff_ne_none, ne_eq, List.map_eq_nil_iff] at hours ⊢
  rw [HasFact]
  tauto

end Rows

section Records
variable {zone : Zone} {view : View} {db : Db} {employment : Employment} {year : Int} {month : Nat} {start finish date : Int}
  {payload : AttendanceMonthOut}

/-- The groups of columns of a line. -/
structure Line where
  facts : List String
  times : List String
  plan : List String
  metrics : List String

def Line.cells (line : Line) : List String := line.facts ++ line.times ++ line.plan ++ line.metrics

def headerLine (employment : Employment) (timeColumns : Nat) : Line where
  facts := ["zamestnanec", "uvazek", "typ_uvazku", "datum", "stav_dne"] ++ statusMetricLabels
  times := numbered "PRŮCHOD" timeColumns
  plan := numbered "PLÁN – PRŮCHOD" 2
  metrics := (displayMetricsForEmployment employment).map metricLabel

/-- A line for a day under a header: as many cells in each group, and what is stored for the day. -/
structure Line.Shows (line header : Line) (db : Db) (employment : Employment) (date : Int) : Prop where
  width : line.facts.length = header.facts.length ∧ line.times.length = header.times.length ∧
    line.plan.length = header.plan.length ∧ line.metrics.length = header.metrics.length
  dated : line.facts[3]? = some (String.ofList (isoDate date))
  status : line.facts[4]? = some (((dayStatus db employment.id date).map statusValue).getD "")
  times : ∃ blanks, line.times =
    (dayTimes db employment.id date).map (fun event => clockText event.occurredAt.wall) ++ List.replicate blanks ""
  plan : line.plan = [planTime db employment.id date ShiftPlan.arrivalTime, planTime db employment.id date ShiftPlan.departureTime].map
    fun time => (time.map ClockTime.text).getD ""

theorem planColumnCount_eq (days : List AttendanceDayOut) : planColumnCount days = 2 := by
  have small : ∀ count ∈ days.map fun day => ([day.plannedArrivalTime, day.plannedDepartureTime].filter Option.isSome).length,
      count ≤ 2 := by
    intro count member
    obtain ⟨day, -, rfl⟩ := List.mem_map.mp member
    exact List.length_filter_le _ _
  unfold planColumnCount
  cases largest : (days.map fun day => ([day.plannedArrivalTime, day.plannedDepartureTime].filter Option.isSome).length).max? with
  | none => rfl
  | some count => exact max_eq_left (small count (List.max?_mem largest))

theorem eventTime_out {event : AttendanceEvent} {partners : List (Int × Int)} (settled : zone.Settled event.occurredAt)
    (inside : inCalendar event.occurredAt.date) :
    eventTime zone (attendanceEventOut zone partners event) = some (clockText event.occurredAt.wall) := by
  have near := zone.near event.occurredAt.utc
  have shown : (zone.load event.occurredAt.utc).wall = event.occurredAt.wall := settled
  have offset : (event.occurredAt.wall - event.occurredAt.utc).natAbs < 86400000000 := by
    rw [settled] at near
    simp only [day] at near
    omega
  have read := datetimeFromIsoformat_offset inside offset
  rw [Int.sub_sub_self] at read
  have written : (attendanceEventOut zone partners event).occurredAt =
      isoformat event.occurredAt.wall (event.occurredAt.wall - event.occurredAt.utc) := by
    rw [← shown]
    rfl
  rw [eventTime, written, read]
  exact congrArg (fun wall => some (clockText wall)) settled

/-- A column for each event, and blanks behind them. -/
theorem columns_filled {α : Type} {items : List α} {count : Nat} (fits : items.length ≤ count) {f : α → Option String}
    {g : α → String} (each : ∀ item ∈ items, f item = some (g item)) :
    (List.range count).mapM (fun index => (items[index]?).elim (some "") f) =
      some (items.map g ++ List.replicate (count - items.length) "") := by
  rw [mapM_some (g := fun index => ((items[index]?).map g).getD "")]
  · congr 1
    apply List.ext_getElem
    · simp
      omega
    · intro index first second
      rw [List.getElem_map, List.getElem_range, List.getElem_append]
      split
      next inside =>
        rw [List.length_map] at inside
        simp [inside]
      next outside =>
        rw [List.length_map] at outside
        simp [List.getElem?_eq_none (not_lt.mp outside)]
  · intro index _
    cases found : items[index]? with
    | none => rfl
    | some item => exact each item (List.mem_of_getElem? found)

/-- The row of a day is a line that shows it. -/
theorem csvRow_shows (rested : Rested zone view.db) (range : monthRange year month = some (start, finish))
    (days : payload.days = (monthDays start finish).map (exportedDay zone view.db employment start finish))
    (shown : payload.displayMetrics = displayMetricsForEmployment employment) (inside : date ∈ monthDays start finish) :
    ∃ line : Line, csvRow zone view employment payload (exportedDay zone view.db employment start finish date) = some line.cells ∧
      line.Shows (headerLine employment (eventColumnCount payload.days)) view.db employment date := by
  have within := mem_monthDays.mp inside
  have calendar := monthRange_inCalendar range inside
  have events := @exportedDay_events zone employment start finish view.db date rested within
  have today : ∀ event ∈ dayTimes view.db employment.id date, zone.Settled event.occurredAt ∧ event.occurredAt.date = date := by
    intro event member
    obtain ⟨stored, same⟩ := List.mem_filter.mp member
    exact ⟨rested event (Db.mem_eventsOf.mp ((List.mem_insertionSort _).mp stored)).1, of_decide_eq_true same⟩
  have fits : (exportedDay zone view.db employment start finish date).events.length ≤ eventColumnCount payload.days := by
    apply le_max_of_le_right
    apply List.le_max?_getD_of_mem
    rw [days, List.map_map]
    exact List.mem_map_of_mem inside
  have read : ∀ out ∈ (exportedDay zone view.db employment start finish date).events,
      eventTime zone out = some ((eventTime zone out).getD "") := by
    intro out member
    rw [events] at member
    obtain ⟨event, listed, rfl⟩ := List.mem_map.mp member
    obtain ⟨settled, same⟩ := today event listed
    rw [eventTime_out settled (same ▸ calendar)]
    rfl
  have times : (exportedDay zone view.db employment start finish date).events.map (fun out => (eventTime zone out).getD "") =
      (dayTimes view.db employment.id date).map fun event => clockText event.occurredAt.wall := by
    rw [events, List.map_map]
    apply List.map_congr_left
    intro event listed
    obtain ⟨settled, same⟩ := today event listed
    rw [Function.comp_apply, eventTime_out settled (same ▸ calendar)]
    rfl
  have columns := columns_filled fits read
  rw [times] at columns
  refine ⟨⟨[(view.userName employment).getD ("Uzivatel " ++ toString employment.userId), view.columns.title employment.id,
      typeValue employment.employmentType, String.ofList (isoDate date),
      ((dayStatus view.db employment.id date).map statusValue).getD ""] ++
      (exportedDay zone view.db employment start finish date).statusMetrics.values.map hoursText,
    (dayTimes view.db employment.id date).map (fun event => clockText event.occurredAt.wall) ++
      List.replicate (eventColumnCount payload.days - (exportedDay zone view.db employment start finish date).events.length) "",
    [planTime view.db employment.id date ShiftPlan.arrivalTime, planTime view.db employment.id date ShiftPlan.departureTime].map
      fun time => (time.map ClockTime.text).getD "",
    payload.displayMetrics.map (displayedHours (exportedDay zone view.db employment start finish date))⟩, ?_, ?_⟩
  · have dated : (exportedDay zone view.db employment start finish date).date = date := rfl
    rw [csvRow, columns, planColumnCount_eq, exportedDay_status within]
    simp only [exportedDay_plan within, dated, Line.cells, Option.bind_eq_bind, Option.bind_some, Option.pure_def, Nat.sub_self,
      List.replicate_zero, List.append_nil, List.append_assoc]
  · refine ⟨⟨?_, ?_, ?_, ?_⟩, rfl, rfl, ⟨_, rfl⟩, rfl⟩
    · rfl
    · rw [events, List.length_map] at fits
      simp [headerLine, numbered, events]
      omega
    · rfl
    · rw [headerLine, shown, List.length_map, List.length_map]

/-- The lines of a month: one for each of its days with a fact, in their order. -/
theorem csvTable_lines (rested : Rested zone view.db) {first : Int}
    (range : monthRange (yearOf first) (monthOf first) = some (start, finish)) :
    ∃ (timeColumns : Nat) (lines : List (Int × Line)), csvTable zone view employment first =
        some ((headerLine employment timeColumns).cells :: lines.map fun line => line.2.cells) ∧
      (lines.map Prod.fst).Pairwise (· < ·) ∧
      (∀ date, date ∈ lines.map Prod.fst ↔ (start ≤ date ∧ date < finish) ∧ HasFact view.db employment date) ∧
      ∀ line ∈ lines, line.2.Shows (headerLine employment timeColumns) view.db employment line.1 := by
  obtain ⟨payload, built, days, shown⟩ := @buildMonth_some zone view employment _ _ start finish range
  have rows : ∀ date : Int, ∃ line : Line, date ∈ monthDays start finish →
      csvRow zone view employment payload (exportedDay zone view.db employment start finish date) = some line.cells ∧
      line.Shows (headerLine employment (eventColumnCount payload.days)) view.db employment date := by
    intro date
    by_cases inside : date ∈ monthDays start finish
    · obtain ⟨line, written, shows⟩ := csvRow_shows rested range days shown inside
      exact ⟨line, fun _ => ⟨written, shows⟩⟩
    · exact ⟨⟨[], [], [], []⟩, fun listed => absurd listed inside⟩
  choose line written using rows
  have header : csvHeader payload = (headerLine employment (eventColumnCount payload.days)).cells := by
    rw [csvHeader, planColumnCount_eq, shown]
    rfl
  have filled : (payload.days.filter (isWritten payload)).mapM (csvRow zone view employment payload) =
      some ((payload.days.filter (isWritten payload)).map fun day => (line day.date).cells) := by
    apply mapM_some
    intro day member
    obtain ⟨listed, -⟩ := List.mem_filter.mp member
    rw [days] at listed
    obtain ⟨date, inside, rfl⟩ := List.mem_map.mp listed
    exact (written date inside).1
  refine ⟨eventColumnCount payload.days, ((monthDays start finish).filter fun date =>
    isWritten payload (exportedDay zone view.db employment start finish date)).map fun date => (date, line date), ?_, ?_, ?_, ?_⟩
  · rw [csvTable, built]
    simp only [Option.bind_eq_bind, Option.bind_some, Option.pure_def]
    rw [filled, header, days, List.filter_map, List.map_map, List.map_map]
    rfl
  · rw [List.map_map]
    exact List.pairwise_map.mpr ((monthDays_ascending start finish).filter _)
  · intro date
    simp only [List.map_map, List.mem_map, Function.comp_apply, exists_eq_right, List.mem_filter, mem_monthDays]
    exact and_congr_right fun inside => isWritten_iff rested shown inside
  · intro listed member
    obtain ⟨date, inside, rfl⟩ := List.mem_map.mp member
    exact (written date (List.mem_filter.mp inside).1).2

/-- The text of an export reads as its header and its lines; each of them has the cells of the header, and
holds what is stored for its day. -/
theorem export_faithful (rested : Rested zone view.db) {first : Int}
    (range : monthRange (yearOf first) (monthOf first) = some (start, finish)) :
    ∃ (text : String) (timeColumns : Nat) (lines : List (Int × Line)), csvForEmployment zone view employment first = some text ∧
      (excel.read text.toList).map (fun records => records.map fun record => record.map String.ofList) =
        some ((headerLine employment timeColumns).cells :: lines.map fun line => line.2.cells) ∧
      (lines.map Prod.fst).Pairwise (· < ·) ∧
      (∀ date, date ∈ lines.map Prod.fst ↔ (start ≤ date ∧ date < finish) ∧ HasFact view.db employment date) ∧
      ∀ line ∈ lines, line.2.cells.length = (headerLine employment timeColumns).cells.length ∧
        line.2.Shows (headerLine employment timeColumns) view.db employment line.1 := by
  obtain ⟨timeColumns, lines, table, ordered, complete, shows⟩ :=
    @csvTable_lines zone view employment start finish rested first range
  have texts (records : List (List String)) :
      (records.map fun record => record.map String.toList).map (fun record => record.map String.ofList) = records := by
    simp [Function.comp_def, String.ofList_toList]
  have filled : ∀ record ∈ ((headerLine employment timeColumns).cells :: lines.map fun line => line.2.cells).map
      (fun record => record.map String.toList), record ≠ [] := by
    intro record member
    obtain ⟨cells, listed, rfl⟩ := List.mem_map.mp member
    rw [Ne, List.map_eq_nil_iff]
    rcases List.mem_cons.mp listed with rfl | listed
    · simp [Line.cells, headerLine]
    · obtain ⟨line, inside, rfl⟩ := List.mem_map.mp listed
      have dated := (shows line inside).dated
      intro empty
      rw [Line.cells, List.append_eq_nil_iff, List.append_eq_nil_iff, List.append_eq_nil_iff] at empty
      rw [empty.1.1.1] at dated
      cases dated
  have exported : csvForEmployment zone view employment first = some (String.ofList (excel.write
      (((headerLine employment timeColumns).cells :: lines.map fun line => line.2.cells).map fun record =>
        record.map String.toList))) := by
    rw [csvForEmployment, table]
    rfl
  refine ⟨_, timeColumns, lines, exported, ?_, ordered, complete, ?_⟩
  · rw [String.toList_ofList, Csv.Dialect.read_write filled, Option.map_some, texts]
  · intro line member
    have widths := (shows line member).width
    refine ⟨?_, shows line member⟩
    simp only [Line.cells, List.length_append, widths]

end Records

section Samples

def exportView (db : Db) : View := ⟨sampleClock, db, ⟨fun _ => "Recepce, noc", fun _ => "Jan Novák", fun _ => 0⟩⟩

/-- Three intervals of one day, in a month whose other days have no row. -/
theorem sample_export_faithful : ∃ (text : String) (timeColumns : Nat) (lines : List (Int × Line)),
    csvForEmployment sampleZone (exportView threeShiftsDb) sampleEmployment (ordinal 2026 8 1) = some text ∧
      (∀ date, date ∈ lines.map Prod.fst ↔ (739829 ≤ date ∧ date < 739860) ∧ HasFact threeShiftsDb sampleEmployment date) ∧
      ∀ line ∈ lines, line.2.Shows (headerLine sampleEmployment timeColumns) threeShiftsDb sampleEmployment line.1 := by
  have rested : Rested sampleZone threeShiftsDb := fun event member => by revert event; decide +kernel
  have range : monthRange (yearOf (ordinal 2026 8 1)) (monthOf (ordinal 2026 8 1)) = some (739829, 739860) := by decide
  obtain ⟨text, timeColumns, lines, exported, -, -, complete, shows⟩ :=
    @export_faithful sampleZone (exportView threeShiftsDb) sampleEmployment _ _ rested _ range
  exact ⟨text, timeColumns, lines, exported, complete, fun line member => (shows line member).2⟩

example : (csvTable sampleZone (exportView threeShiftsDb) sampleEmployment (ordinal 2026 8 1)).map (·.drop 1) =
    some [["Jan Novák", "Recepce, noc", "DPP_DPC", "2026-08-05", "", "", "", "", "08:00", "10:00", "11:00", "12:00", "13:00", "14:00",
      "", "", "4.0", "0.0"]] := by decide +kernel

/-- One day with care leave in its attendance and a holiday in its plan. -/
def twoStatusDb : Db :=
  { sampleDb with
    attendance := ⟨[⟨1, 739834, some .sickness, none⟩], by simp⟩
    shiftPlans := ⟨[⟨1, 739834, none, none, some .holiday, none⟩], by simp⟩ }

/-- The status of the plan is in no cell when the attendance has another one. -/
theorem plan_status_hidden : ∃ rows, csvTable sampleZone (exportView twoStatusDb) sampleEmployment (ordinal 2026 8 1) = some rows ∧
    (twoStatusDb.shiftPlans.get (1, 739834)).bind ShiftPlan.status = some .holiday ∧
    ∀ row ∈ rows, statusValue .holiday ∉ row := by
  have cells : (csvTable sampleZone (exportView twoStatusDb) sampleEmployment (ordinal 2026 8 1)).map
      (fun rows => rows.all fun row => decide (statusValue .holiday ∉ row)) = some true := by decide +kernel
  obtain ⟨rows, exported, absent⟩ := Option.map_eq_some_iff.mp cells
  refine ⟨rows, exported, by decide, fun row member => ?_⟩
  exact of_decide_eq_true (List.all_eq_true.mp absent row member)

end Samples

end Dagmar.Payloads.Proofs
