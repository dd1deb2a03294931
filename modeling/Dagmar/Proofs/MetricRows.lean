import Dagmar.Proofs.Summaries

/-! Which metric rows a month asks for, and what a sync leaves in the table. -/

namespace Dagmar.Proofs
open Library Library.Calendar Library.Outcome

def sourcePresent (presence : Bool × Bool) : DailyMetricSource → Bool
  | .attendance => presence.1
  | .shiftPlan => presence.2

def sourceMetrics (summary : DaySummary) : DailyMetricSource → Option DailyMetrics
  | .attendance => summary.worked
  | .shiftPlan => summary.planned

section Rows
variable {db : Db} {employment : Employment} {month : Int × Nat}

theorem mem_dayRows {employmentId : Int} {presence : Bool × Bool} {summary : DaySummary} {row : EmploymentDailyTimeMetric} :
    row ∈ dayRows employmentId presence summary ↔ ∃ source metrics, sourcePresent presence source ∧
      sourceMetrics summary source = some metrics ∧ metricRow employmentId summary.date source metrics = row := by
  simp only [dayRows, List.mem_append]
  constructor
  · intro member
    rcases member with member | member
    · split at member
      next present =>
        obtain ⟨metrics, worked, same⟩ := List.mem_map.mp member
        exact ⟨.attendance, metrics, present, Option.mem_toList.mp worked, same⟩
      · cases member
    · split at member
      next present =>
        obtain ⟨metrics, planned, same⟩ := List.mem_map.mp member
        exact ⟨.shiftPlan, metrics, present, Option.mem_toList.mp planned, same⟩
      · cases member
  · intro found
    obtain ⟨source, metrics, present, value, rfl⟩ := found
    cases source with
    | attendance =>
      left
      rw [if_pos (show presence.1 from present)]
      exact List.mem_map.mpr ⟨metrics, Option.mem_toList.mpr value, rfl⟩
    | shiftPlan =>
      right
      rw [if_pos (show presence.2 from present)]
      exact List.mem_map.mpr ⟨metrics, Option.mem_toList.mpr value, rfl⟩

/-- The computed days of a month, and its presence flags. -/
def computedDays (db : Db) (employment : Employment) (range : Int × Int) : List DaySummary :=
  (monthDays range.1 range.2).map (daySummary db employment range.1 range.2 false)

def computedPresence (db : Db) (employment : Employment) (range : Int × Int) : Bool × Bool :=
  monthSummarySourcePresence (monthSummary (computedDays db employment range))

theorem monthRows_eq {range : Int × Int} (found : monthRange month.1 month.2 = some range) :
    monthRows db employment month =
      (computedDays db employment range).flatMap (dayRows employment.id (computedPresence db employment range)) := by
  rw [monthRows, buildMonthSummary_eq, found]
  rfl

theorem monthRows_none (missing : monthRange month.1 month.2 = none) : monthRows db employment month = [] := by
  rw [monthRows, buildMonthSummary_eq, missing]
  rfl

theorem mem_monthRows {range : Int × Int} (found : monthRange month.1 month.2 = some range)
    {row : EmploymentDailyTimeMetric} : row ∈ monthRows db employment month ↔
      ∃ date source metrics, yearMonth date = month ∧ sourcePresent (computedPresence db employment range) source ∧
        sourceMetrics (daySummary db employment range.1 range.2 false date) source = some metrics ∧
        metricRow employment.id date source metrics = row := by
  have days := monthRange_days found
  simp only [monthRows_eq found, List.mem_flatMap, computedDays, List.mem_map, mem_dayRows]
  constructor
  · intro member
    obtain ⟨summary, ⟨date, inside, rfl⟩, source, metrics, present, value, same⟩ := member
    exact ⟨date, source, metrics, (days date).mp (mem_monthDays.mp inside), present, value, same⟩
  · intro member
    obtain ⟨date, source, metrics, inside, present, value, same⟩ := member
    exact ⟨_, ⟨date, mem_monthDays.mpr ((days date).mpr inside), rfl⟩, source, metrics, present, value, same⟩

/-- Rows of a month carry the employment and a day of the month. -/
theorem monthRows_owner {row : EmploymentDailyTimeMetric} (member : row ∈ monthRows db employment month) :
    row.employmentId = employment.id ∧ yearMonth row.metricDate = month := by
  cases found : monthRange month.1 month.2 with
  | none =>
    rw [monthRows_none found] at member
    cases member
  | some range =>
    obtain ⟨date, source, metrics, inside, -, -, rfl⟩ := (mem_monthRows found).mp member
    exact ⟨rfl, inside⟩

theorem monthRows_distinct (db : Db) (employment : Employment) (month : Int × Nat) :
    ((monthRows db employment month).map EmploymentDailyTimeMetric.key).Nodup := by
  cases found : monthRange month.1 month.2 with
  | none =>
    rw [monthRows_none found]
    exact List.nodup_nil
  | some range =>
    have dates {presence : Bool × Bool} {date : Int} {key : Int × Int × DailyMetricSource}
        (member : key ∈ (dayRows employment.id presence (daySummary db employment range.1 range.2 false date)).map
          EmploymentDailyTimeMetric.key) : key.2.1 = date := by
      obtain ⟨row, inside, rfl⟩ := List.mem_map.mp member
      obtain ⟨source, metrics, -, -, rfl⟩ := mem_dayRows.mp inside
      rfl
    rw [monthRows_eq found, computedDays, List.flatMap_map, List.map_flatMap, List.nodup_flatMap]
    refine ⟨?_, ?_⟩
    · intro date inside
      generalize computedPresence db employment range = presence
      simp only [dayRows, List.map_append]
      rw [List.nodup_append]
      refine ⟨?_, ?_, ?_⟩
      · split
        · cases (daySummary db employment range.1 range.2 false date).worked <;> simp
        · simp
      · split
        · cases (daySummary db employment range.1 range.2 false date).planned <;> simp
        · simp
      · intro left first right second same
        have worked : left.2.2 = .attendance := by
          obtain ⟨row, member, rfl⟩ := List.mem_map.mp first
          split at member
          · obtain ⟨metrics, -, rfl⟩ := List.mem_map.mp member
            rfl
          · cases member
        have planned : right.2.2 = .shiftPlan := by
          obtain ⟨row, member, rfl⟩ := List.mem_map.mp second
          split at member
          · obtain ⟨metrics, -, rfl⟩ := List.mem_map.mp member
            rfl
          · cases member
        rw [same, planned] at worked
        cases worked
    · apply List.Nodup.pairwise_of_forall_ne (monthDays_nodup range.1 range.2)
      intro left _ right _ different key first second
      exact different ((dates first).symm.trans (dates second))

private theorem any_congr_mem {α : Type} {items : List α} {p q : α → Bool} (same : ∀ item ∈ items, p item = q item) :
    items.any p = items.any q := by
  induction items with
  | nil => rfl
  | cons item items ih =>
    obtain ⟨first, rest⟩ := List.forall_mem_cons.mp same
    rw [List.any_cons, List.any_cons, first, ih rest]

/-- Two days that write the same rows and count alike for the presence of facts. -/
structure SameWritten (left right : DaySummary) : Prop where
  date : left.date = right.date
  worked : left.worked = right.worked
  planned : left.planned = right.planned
  workedState : left.workedState = right.workedState
  plannedState : left.plannedState = right.plannedState
  attendance : left.attendance.isSome = right.attendance.isSome
  plan : left.plan.isSome = right.plan.isSome

theorem monthRows_of_days {first second : Db} (days : ∀ range date, monthRange month.1 month.2 = some range →
      range.1 ≤ date ∧ date < range.2 → SameWritten (daySummary first employment range.1 range.2 false date)
        (daySummary second employment range.1 range.2 false date)) :
    monthRows first employment month = monthRows second employment month := by
  cases found : monthRange month.1 month.2 with
  | none => rw [monthRows_none found, monthRows_none found]
  | some range =>
    have same (date : Int) (member : date ∈ monthDays range.1 range.2) := days range date found (mem_monthDays.mp member)
    have presence : computedPresence first employment range = computedPresence second employment range := by
      simp only [computedPresence, monthSummarySourcePresence, monthSummary, computedDays, List.any_map]
      congr 1
      · apply any_congr_mem
        intro date member
        have same := same date member
        simp only [Function.comp_apply, same.attendance, same.workedState, same.worked]
      · apply any_congr_mem
        intro date member
        have same := same date member
        simp only [Function.comp_apply, same.plan, same.plannedState, same.planned]
    rw [monthRows_eq found, monthRows_eq found, presence, computedDays, computedDays, List.flatMap_map, List.flatMap_map]
    apply List.flatMap_congr
    intro date member
    have same := same date member
    simp only [dayRows, same.date, same.worked, same.planned]

/-- Facts of a month outside which two databases may differ give the same rows. -/
theorem monthRows_congr {first second : Db}
    (facts : ∀ date, yearMonth date = month → SameFacts first second employment.id date) :
    monthRows first employment month = monthRows second employment month := by
  apply monthRows_of_days
  intro range date found inside
  rw [daySummary_congr (facts date ((monthRange_days found date).mp inside)) inside]
  exact ⟨rfl, rfl, rfl, rfl, rfl, rfl, rfl⟩

end Rows

section Sync
variable {db next : Db} {employment : Employment}

/-- A sync replaces the rows of its employment and month, and touches nothing else. -/
theorem syncMonth_ok {year : Int} {month : Nat} (done : syncEmploymentMonthMetrics db employment year month = .ok next) :
    Representable (year, month) ∧ next = { db with metrics := next.metrics } ∧
      ∀ row, row ∈ next.metrics ↔
        row ∈ db.metrics ∧ ¬ (row.employmentId = employment.id ∧ yearMonth row.metricDate = (year, month)) ∨
          row ∈ monthRows db employment (year, month) := by
  simp only [syncEmploymentMonthMetrics, bind_eq_ok, require_eq_ok, pure_eq_ok] at done
  obtain ⟨range, found, summary, built, metrics, inserted, rfl⟩ := done
  refine ⟨(monthRange_eq_some.mp found).1, rfl, ?_⟩
  intro row
  rw [Table.mem_insertAll inserted, Table.mem_deleteWhere, monthRange_days found, monthRows, built]

/-- Only a month outside the calendar makes a sync raise. -/
theorem syncMonth_total (db : Db) (employment : Employment) {year : Int} {month : Nat}
    (valid : Representable (year, month)) : ∃ next, syncEmploymentMonthMetrics db employment year month = .ok next := by
  have found : monthRange year month = some (firstDay year month, firstDay year (month + 1)) :=
    monthRange_eq_some.mpr ⟨valid, rfl, rfl⟩
  obtain ⟨summary, built⟩ : ∃ summary, buildMonthSummary db employment year month false = some summary := by
    rw [buildMonthSummary_eq, found]
    exact ⟨_, rfl⟩
  have rows : monthRows db employment (year, month) = summaryRows employment.id summary := by
    rw [monthRows, built]
  obtain ⟨metrics, inserted⟩ : ∃ metrics, (db.metrics.deleteWhere fun row => row.employmentId = employment.id ∧
      firstDay year month ≤ row.metricDate ∧ row.metricDate < firstDay year (month + 1)).insertAll
        (summaryRows employment.id summary) = some metrics := by
    rw [← rows]
    apply Table.insertAll_isSome (monthRows_distinct db employment (year, month))
    intro row kept other written same
    obtain ⟨owner, inside⟩ := monthRows_owner written
    simp only [EmploymentDailyTimeMetric.key, Prod.mk.injEq] at same
    apply (Table.mem_deleteWhere.mp kept).2
    rw [monthRange_days found, same.1, same.2.1]
    exact ⟨owner, inside⟩
  refine ⟨{ db with metrics := metrics }, ?_⟩
  simp only [syncEmploymentMonthMetrics, bind_eq_ok, require_eq_ok, pure_eq_ok]
  exact ⟨_, found, summary, built, metrics, inserted, rfl⟩

/-- The tables a summary reads are the same. -/
theorem monthRows_of_same_tables {first second : Db} (events : first.events = second.events)
    (attendance : first.attendance = second.attendance) (plans : first.shiftPlans = second.shiftPlans)
    (employment : Employment) (month : Int × Nat) :
    monthRows first employment month = monthRows second employment month := by
  apply monthRows_congr
  intro date _
  exact ⟨fun _ _ _ => by rw [events], fun _ _ => by rw [attendance], fun _ _ => by rw [plans]⟩

/-- After a sync of several months, their rows are the ones their facts ask for. -/
theorem syncMonths_ok {months : List (Int × Nat)}
    (done : syncEmploymentMetricMonths db employment months = .ok next) :
    (∀ month ∈ months, Representable month) ∧ next = { db with metrics := next.metrics } ∧
      ∀ row, row ∈ next.metrics ↔
        if row.employmentId = employment.id ∧ yearMonth row.metricDate ∈ months
        then row ∈ monthRows db employment (yearMonth row.metricDate) else row ∈ db.metrics := by
  have loop (visited : List (Int × Nat)) (start : Db)
      (done : visited.foldlM (fun db month => syncEmploymentMonthMetrics db employment month.1 month.2) start = .ok next) :
      (∀ month ∈ visited, Representable month) ∧ next = { start with metrics := next.metrics } ∧
        ∀ row, row ∈ next.metrics ↔
          if row.employmentId = employment.id ∧ yearMonth row.metricDate ∈ visited
          then row ∈ monthRows start employment (yearMonth row.metricDate) else row ∈ start.metrics := by
    induction visited generalizing start with
    | nil =>
      rw [List.foldlM_nil, pure_eq_ok] at done
      subst done
      exact ⟨by simp, rfl, by simp⟩
    | cons month visited ih =>
      rw [List.foldlM_cons, bind_eq_ok] at done
      obtain ⟨middle, first, rest⟩ := done
      obtain ⟨valid, frame, written⟩ := syncMonth_ok first
      obtain ⟨valids, frame', written'⟩ := ih middle rest
      have unread (month : Int × Nat) : monthRows middle employment month = monthRows start employment month := by
        rw [frame]
        exact monthRows_of_same_tables rfl rfl rfl employment month
      refine ⟨List.forall_mem_cons.mpr ⟨valid, valids⟩, by rw [frame', frame], ?_⟩
      intro row
      rw [written' row, unread, written row]
      by_cases owner : row.employmentId = employment.id
      · by_cases later : yearMonth row.metricDate ∈ visited
        · simp [owner, later]
        · by_cases now : yearMonth row.metricDate = month
          · subst now
            simp [owner, later]
          · have other : row ∉ monthRows start employment month := fun member => now (monthRows_owner member).2
            simp [owner, later, now, other]
      · have other : row ∉ monthRows start employment month := fun member => owner (monthRows_owner member).1
        simp [owner, other]
  obtain ⟨valid, frame, written⟩ := loop _ db done
  simp only [List.mem_insertionSort, List.mem_dedup] at valid written
  exact ⟨valid, frame, written⟩

/-- Databases whose months ask for the same rows are synced alike. -/
theorem syncMonths_parallel {first second : Db} (metrics : first.metrics = second.metrics)
    (rows : ∀ month, monthRows first employment month = monthRows second employment month) {months : List (Int × Nat)}
    (done : syncEmploymentMetricMonths first employment months = .ok next) :
    syncEmploymentMetricMonths second employment months = .ok { second with metrics := next.metrics } := by
  have single (month : Int × Nat) (left right middle : Db) (same : left.metrics = right.metrics)
      (rows : monthRows left employment month = monthRows right employment month)
      (done : syncEmploymentMonthMetrics left employment month.1 month.2 = .ok middle) :
      syncEmploymentMonthMetrics right employment month.1 month.2 = .ok { right with metrics := middle.metrics } := by
    simp only [syncEmploymentMonthMetrics, bind_eq_ok, require_eq_ok, pure_eq_ok] at done ⊢
    obtain ⟨range, found, summary, built, table, inserted, rfl⟩ := done
    obtain ⟨other, built'⟩ : ∃ other, buildMonthSummary right employment month.1 month.2 false = some other := by
      rw [buildMonthSummary_eq, found]
      exact ⟨_, rfl⟩
    simp only [monthRows, built, built'] at rows
    rw [same, rows] at inserted
    exact ⟨range, found, other, built', table, inserted, rfl⟩
  have loop (visited : List (Int × Nat)) (left right : Db) (same : left.metrics = right.metrics)
      (rows : ∀ month, monthRows left employment month = monthRows right employment month)
      (done : visited.foldlM (fun db month => syncEmploymentMonthMetrics db employment month.1 month.2) left = .ok next) :
      visited.foldlM (fun db month => syncEmploymentMonthMetrics db employment month.1 month.2) right =
        .ok { right with metrics := next.metrics } := by
    induction visited generalizing left right with
    | nil =>
      rw [List.foldlM_nil, pure_eq_ok] at done ⊢
      rw [← done, same]
    | cons month visited ih =>
      rw [List.foldlM_cons, bind_eq_ok] at done ⊢
      obtain ⟨middle, first, rest⟩ := done
      obtain ⟨-, frame, -⟩ := syncMonth_ok first
      refine ⟨_, single month left right middle same (rows month) first, ?_⟩
      refine ih middle { right with metrics := middle.metrics } rfl (fun other => ?_) rest
      rw [frame]
      exact (monthRows_of_same_tables rfl rfl rfl employment other).trans
        ((rows other).trans (monthRows_of_same_tables rfl rfl rfl employment other))
  exact loop _ first second metrics rows done

theorem syncMonths_total (db : Db) (employment : Employment) {months : List (Int × Nat)}
    (valid : ∀ month ∈ months, Representable month) :
    ∃ next, syncEmploymentMetricMonths db employment months = .ok next := by
  have loop (visited : List (Int × Nat)) (start : Db) (valid : ∀ month ∈ visited, Representable month) :
      ∃ next, visited.foldlM (fun db month => syncEmploymentMonthMetrics db employment month.1 month.2) start = .ok next := by
    induction visited generalizing start with
    | nil => exact ⟨start, rfl⟩
    | cons month visited ih =>
      obtain ⟨valid, valids⟩ := List.forall_mem_cons.mp valid
      obtain ⟨middle, first⟩ := syncMonth_total start employment valid
      obtain ⟨next, rest⟩ := ih middle valids
      exact ⟨next, by rw [List.foldlM_cons, bind_eq_ok]; exact ⟨middle, first, rest⟩⟩
  apply loop
  simpa using valid

end Sync

end Dagmar.Proofs
