import Dagmar.Proofs.MetricRows

/-! A summary read from exact metric rows is the one computed from the facts. -/

namespace Dagmar.Proofs
open Library Library.Calendar

/-- The stored rows of an employment and month are exactly the ones a sync writes. -/
def MonthExact (db : Db) (employment : Employment) (month : Int × Nat) : Prop :=
  ∀ row : EmploymentDailyTimeMetric, row.employmentId = employment.id → yearMonth row.metricDate = month →
    (row ∈ db.metrics ↔ row ∈ monthRows db employment month)

section Encoding

@[simp] theorem storedValue_map (value : Option MetricValue) :
    storedValue (value.map MetricValue.minutes) (value.map MetricValue.tenths) = value := by
  cases value <;> rfl

/-- The nullable columns hold a day's metrics without loss. -/
theorem storedMetrics_metricRow (employment : Employment) (employmentId date : Int) (source : DailyMetricSource)
    (metrics : DailyMetrics) : storedMetrics (some (metricRow employmentId date source metrics)) employment = some metrics := by
  simp [storedMetrics, metricRow]

theorem calculateDailyMetrics_empty (employment : Employment) {date : Int} {intervals : List WorkInterval}
    (empty : dayIntervals date intervals = []) :
    calculateDailyMetrics employment date intervals = emptyDailyMetrics employment := by
  simp [calculateDailyMetrics, emptyDailyMetrics, empty]

theorem emptyDailyMetrics_none {employment : Employment} {date : Int} {intervals : List WorkInterval}
    (missing : calculateDailyMetrics employment date intervals = none) : emptyDailyMetrics employment = none := by
  unfold calculateDailyMetrics at missing
  split at missing
  next task => simp [emptyDailyMetrics, task]
  · cases missing

end Encoding

section Days
variable {db : Db} {employment : Employment} {range : Int × Int} {date : Int}

/-- A source without facts in the month has the zeros of the profile on every day. -/
theorem sourceMetrics_absent (inside : range.1 ≤ date ∧ date < range.2) (source : DailyMetricSource)
    (absent : sourcePresent (computedPresence db employment range) source = false) :
    sourceMetrics (daySummary db employment range.1 range.2 false date) source = emptyDailyMetrics employment := by
  have member : daySummary db employment range.1 range.2 false date ∈ computedDays db employment range :=
    List.mem_map.mpr ⟨date, mem_monthDays.mpr inside, rfl⟩
  cases source with
  | attendance =>
    have quiet := (List.any_eq_false.mp absent) _ member
    simp only [Bool.or_eq_true, not_or, Bool.not_eq_true] at quiet
    have state : workedState (db.eventsOf employment.id) date = .empty := by
      simpa [daySummary] using quiet.1.2
    have none : eventsOn (db.eventsOf employment.id) date = [] := by
      unfold workedState at state
      dsimp only at state
      split at state
      next none => exact none
      · split at state <;> cases state
    apply calculateDailyMetrics_empty
    rw [dayIntervals_pairEvents, dayWork, none]
    rfl
  | shiftPlan =>
    have quiet := (List.any_eq_false.mp absent) _ member
    simp only [Bool.or_eq_true, not_or, Bool.not_eq_true] at quiet
    have plan : db.shiftPlans.get (employment.id, date) = none := by
      simpa [daySummary] using quiet.1.1
    apply calculateDailyMetrics_empty
    rw [dayIntervals_plans db employment.id range.1 range.2 date inside, plan]
    rfl

theorem sourceMetrics_none {source : DailyMetricSource}
    (missing : sourceMetrics (daySummary db employment range.1 range.2 false date) source = none) :
    emptyDailyMetrics employment = none := by
  cases source with
  | attendance => exact emptyDailyMetrics_none missing
  | shiftPlan => exact emptyDailyMetrics_none missing

/-- What the table holds for a day and source decodes to the computed metrics. -/
theorem storedMetrics_exact {month : Int × Nat} (found : monthRange month.1 month.2 = some range)
    (exact' : MonthExact db employment month) (inside : range.1 ≤ date ∧ date < range.2) (source : DailyMetricSource) :
    storedMetrics (db.metrics.get (employment.id, date, source)) employment =
      sourceMetrics (daySummary db employment range.1 range.2 false date) source := by
  have inMonth := (monthRange_days found date).mp inside
  cases stored : db.metrics.get (employment.id, date, source) with
  | some row =>
    obtain ⟨member, same⟩ := Table.get_eq_some_iff.mp stored
    simp only [EmploymentDailyTimeMetric.key, Prod.mk.injEq] at same
    obtain ⟨owner, sameDate, sameSource⟩ := same
    have written := (exact' row owner (sameDate ▸ inMonth)).mp member
    obtain ⟨other, kind, metrics, -, -, value, rfl⟩ := (mem_monthRows found).mp written
    obtain rfl : other = date := sameDate
    obtain rfl : kind = source := sameSource
    rw [storedMetrics_metricRow, value]
  | none =>
    have absent := Table.get_eq_none_iff.mp stored
    cases value : sourceMetrics (daySummary db employment range.1 range.2 false date) source with
    | none => exact sourceMetrics_none value
    | some metrics =>
      cases present : sourcePresent (computedPresence db employment range) source with
      | false => exact (sourceMetrics_absent inside source present).symm.trans value
      | true =>
        have written : metricRow employment.id date source metrics ∈ monthRows db employment month :=
          (mem_monthRows found).mpr ⟨date, source, metrics, inMonth, present, value, rfl⟩
        have member := (exact' (metricRow employment.id date source metrics) rfl inMonth).mpr written
        exact absurd rfl (absent (metricRow employment.id date source metrics) member)

theorem daySummary_persisted {month : Int × Nat} (found : monthRange month.1 month.2 = some range)
    (exact' : MonthExact db employment month) (inside : range.1 ≤ date ∧ date < range.2) :
    daySummary db employment range.1 range.2 true date = daySummary db employment range.1 range.2 false date := by
  have worked := storedMetrics_exact found exact' inside .attendance
  have planned := storedMetrics_exact found exact' inside .shiftPlan
  simp only [sourceMetrics, daySummary, Bool.false_eq_true, if_false] at worked planned
  simp only [daySummary, worked, planned, if_true, Bool.false_eq_true, if_false]

end Days

/-- Where the stored rows of an employment and month are exact, the summaries of
any list of employments agree on it, read or computed. -/
theorem buildMonthSummaries_persisted (db : Db) (employment : Employment) (employments : List Employment)
    (year : Int) (month : Nat) (one : ∀ other ∈ employments, other.id = employment.id → other = employment)
    (stored : MonthExact db employment (year, month)) :
    (buildMonthSummaries db employments year month true).map (List.lookup employment.id) =
      (buildMonthSummaries db employments year month false).map (List.lookup employment.id) := by
  cases found : monthRange year month with
  | none => simp [buildMonthSummaries, found]
  | some range =>
    have days : (monthDays range.1 range.2).map (daySummary db employment range.1 range.2 true) =
        (monthDays range.1 range.2).map (daySummary db employment range.1 range.2 false) := by
      apply List.map_congr_left
      intro date inside
      exact daySummary_persisted found stored (mem_monthDays.mp inside)
    simp only [buildMonthSummaries, found, Option.bind_eq_bind, Option.bind_some, Option.map_some, Option.pure_def]
    congr 1
    induction employments with
    | nil => rfl
    | cons other employments ih =>
      simp only [List.map_cons, List.lookup_cons]
      by_cases same : other.id = employment.id
      · rw [one other (by simp) same, days]
        simp
      · rw [ih fun next member => one next (by simp [member])]
        have different : (employment.id == other.id) = false := by simpa using Ne.symm same
        simp [different]

theorem monthExact_of_sync {db next : Db} {employment : Employment} {year : Int} {month : Nat}
    (done : syncEmploymentMonthMetrics db employment year month = .ok next) : MonthExact next employment (year, month) := by
  obtain ⟨-, frame, written⟩ := syncMonth_ok done
  intro row owner inside
  have same : monthRows next employment (year, month) = monthRows db employment (year, month) := by
    rw [frame]
    exact monthRows_of_same_tables rfl rfl rfl employment _
  rw [written row, same]
  simp [owner, inside]

section Sample

/-- An employment that tracks night hours, valid from 2026 on. -/
def sampleEmployment : Employment :=
  ⟨1, 1, .dppDpc, { nightHoursEnabled := true }, ordinal 2026 1 1, none⟩

def sampleDb : Db := Db.blank ⟨[⟨1, true, some "instance"⟩], by decide⟩ ⟨[sampleEmployment], by decide⟩ 2

/-- A day of work from 4:00 to 9:00 on 5 August 2026, stored at UTC+2. -/
def sampleWorkDb : Db :=
  { sampleDb with
    events := ⟨[⟨1, 1, ⟨midnight 739833 + 240 * minute, midnight 739833 + 120 * minute⟩⟩,
      ⟨2, 1, ⟨midnight 739833 + 540 * minute, midnight 739833 + 420 * minute⟩⟩], by decide⟩ }

theorem sample_summary_persisted : ∃ next, syncEmploymentMonthMetrics sampleWorkDb sampleEmployment 2026 8 = .ok next ∧
    (buildMonthSummaries next [sampleEmployment] 2026 8 true).map (List.lookup sampleEmployment.id) =
      (buildMonthSummaries next [sampleEmployment] 2026 8 false).map (List.lookup sampleEmployment.id) := by
  have valid : Representable (2026, 8) := by decide
  obtain ⟨next, done⟩ := syncMonth_total sampleWorkDb sampleEmployment valid
  exact ⟨next, done, buildMonthSummaries_persisted next sampleEmployment [sampleEmployment] 2026 8 (by simp)
    (monthExact_of_sync done)⟩

example : (monthRows sampleWorkDb sampleEmployment (2026, 8)).length = 31 := by decide +kernel

end Sample

end Dagmar.Proofs
