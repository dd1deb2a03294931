import Dagmar.Proofs.CachedSummaries

/-! The rebuild script and the online sync leave the same table. -/

namespace Dagmar.Proofs
open Library Library.Calendar Library.Outcome

/-- The rows the facts of an employment ask for, over all of its months. -/
def Wanted (db : Db) (employment : Employment) (row : EmploymentDailyTimeMetric) : Prop :=
  ∃ month ∈ factMonths db employment.id, row ∈ monthRows db employment month

/-- Every row of an employment is wanted, and every wanted row is there. -/
def EmploymentExact (db : Db) (employment : Employment) : Prop :=
  ∀ row : EmploymentDailyTimeMetric, row.employmentId = employment.id → (row ∈ db.metrics ↔ Wanted db employment row)

/-- No fact lies in a month that the calendar cannot close. -/
def Dated (db : Db) (employment : Employment) : Prop :=
  ∀ date ∈ factDates db employment.id, Representable (yearMonth date)

section Sync
variable {db synced : Db} {employment : Employment}

theorem wanted_iff {row : EmploymentDailyTimeMetric} : Wanted db employment row ↔
    yearMonth row.metricDate ∈ factMonths db employment.id ∧
      row ∈ monthRows db employment (yearMonth row.metricDate) := by
  constructor
  · intro wanted
    obtain ⟨month, fact, member⟩ := wanted
    obtain ⟨-, rfl⟩ := monthRows_owner member
    exact ⟨fact, member⟩
  · intro wanted
    exact ⟨_, wanted.1, wanted.2⟩

theorem Wanted.owner {row : EmploymentDailyTimeMetric} (wanted : Wanted db employment row) :
    row.employmentId = employment.id := by
  obtain ⟨month, -, member⟩ := wanted
  exact (monthRows_owner member).1

theorem syncMetrics_ok (done : syncEmploymentMetrics db employment = .ok synced) :
    synced = { db with metrics := synced.metrics } ∧ ∀ row, row ∈ synced.metrics ↔
      if row.employmentId = employment.id then Wanted db employment row else row ∈ db.metrics := by
  obtain ⟨-, frame, written⟩ := syncMonths_ok done
  refine ⟨frame, ?_⟩
  intro row
  rw [written row, wanted_iff]
  have same : monthRows { db with metrics := db.metrics.deleteWhere fun row =>
      row.employmentId = employment.id ∧ yearMonth row.metricDate ∉ factMonths db employment.id } employment
        (yearMonth row.metricDate) = monthRows db employment (yearMonth row.metricDate) :=
    monthRows_of_same_tables rfl rfl rfl employment _
  rw [same, Table.mem_deleteWhere]
  by_cases owner : row.employmentId = employment.id
  · by_cases fact : yearMonth row.metricDate ∈ factMonths db employment.id <;> simp [owner, fact]
  · simp [owner]

theorem syncMetrics_total (dated : Dated db employment) : ∃ synced, syncEmploymentMetrics db employment = .ok synced := by
  apply syncMonths_total
  intro month member
  obtain ⟨date, fact, rfl⟩ := List.mem_map.mp member
  exact dated date fact

end Sync

section Expected
variable {db : Db} {employment : Employment}

def entryRow (employmentId : Int) (entry : (Int × DailyMetricSource) × DailyMetrics) : EmploymentDailyTimeMetric :=
  metricRow employmentId entry.1.1 entry.1.2 entry.2

theorem mem_expectedOfMonth {summary : MonthSummary} {entry : (Int × DailyMetricSource) × DailyMetrics} :
    entry ∈ expectedOfMonth summary ↔ ∃ day ∈ summary.daySummaries,
      sourcePresent (monthSummarySourcePresence summary) entry.1.2 ∧ day.date = entry.1.1 ∧
        sourceMetrics day entry.1.2 = some entry.2 := by
  obtain ⟨⟨date, source⟩, metrics⟩ := entry
  simp only [expectedOfMonth, List.mem_append]
  cases source with
  | attendance =>
    cases present : (monthSummarySourcePresence summary).1 <;>
      cases (monthSummarySourcePresence summary).2 <;>
      simp [sourcePresent, sourceMetrics, present, and_comm]
  | shiftPlan =>
    cases (monthSummarySourcePresence summary).1 <;>
      cases present : (monthSummarySourcePresence summary).2 <;>
      simp [sourcePresent, sourceMetrics, present, and_comm]

/-- The script expects exactly the rows the facts ask for. -/
theorem expectedMetrics_spec (dated : Dated db employment) : ∃ expected, expectedMetrics db employment = some expected ∧
    ∀ row, (∃ entry ∈ expected, entryRow employment.id entry = row) ↔ Wanted db employment row := by
  let range (month : Int × Nat) : Int × Int := (firstDay month.1 month.2, firstDay month.1 (month.2 + 1))
  let summary (month : Int × Nat) : MonthSummary := monthSummary (computedDays db employment (range month))
  have valid : ∀ month ∈ factMonths db employment.id, monthRange month.1 month.2 = some (range month) := by
    intro month member
    obtain ⟨date, fact, rfl⟩ := List.mem_map.mp member
    exact monthRange_eq_some.mpr ⟨dated date fact, rfl, rfl⟩
  refine ⟨((factMonths db employment.id).dedup.map fun month => expectedOfMonth (summary month)).flatten, ?_, ?_⟩
  · unfold expectedMetrics
    rw [mapM_some (g := fun month => expectedOfMonth (summary month))]
    · rfl
    · intro month member
      simp only [buildMonthSummaries, valid month (List.mem_dedup.mp member)]
      simp [summary, computedDays]
  · intro row
    constructor
    · intro found
      obtain ⟨entry, inside, rfl⟩ := found
      obtain ⟨part, member, inside⟩ := List.mem_flatten.mp inside
      obtain ⟨month, fact, rfl⟩ := List.mem_map.mp member
      have fact := List.mem_dedup.mp fact
      refine ⟨month, fact, ?_⟩
      obtain ⟨day, listed, present, sameDate, value⟩ := mem_expectedOfMonth.mp inside
      rw [monthRows_eq (valid month fact), List.mem_flatMap]
      refine ⟨day, listed, mem_dayRows.mpr ⟨entry.1.2, entry.2, present, value, ?_⟩⟩
      rw [sameDate]
      rfl
    · intro wanted
      obtain ⟨month, fact, member⟩ := wanted
      rw [monthRows_eq (valid month fact), List.mem_flatMap] at member
      obtain ⟨day, listed, member⟩ := member
      obtain ⟨source, metrics, present, value, rfl⟩ := mem_dayRows.mp member
      refine ⟨((day.date, source), metrics), ?_, rfl⟩
      refine List.mem_flatten.mpr ⟨_, List.mem_map.mpr ⟨month, List.mem_dedup.mpr fact, rfl⟩, ?_⟩
      exact mem_expectedOfMonth.mpr ⟨day, listed, present, rfl, value⟩

/-- Wanted rows under one key are one row. -/
theorem Wanted.unique {left right : EmploymentDailyTimeMetric} (first : Wanted db employment left)
    (second : Wanted db employment right) (same : left.key = right.key) : left = right := by
  have first := (wanted_iff.mp first).2
  have second := (wanted_iff.mp second).2
  have sameDate : left.metricDate = right.metricDate := congrArg (fun key => key.2.1) same
  rw [sameDate] at first
  exact List.inj_on_of_nodup_map (monthRows_distinct db employment _) first second same

end Expected

section Keys
variable (employmentId : Int)

theorem rebuildKey_apply (state : Nat × Db) (entry : (Int × DailyMetricSource) × DailyMetrics) :
    (rebuildKey true employmentId state entry).2 =
        { state.2 with metrics := (rebuildKey true employmentId state entry).2.metrics } ∧
      ∀ row, row ∈ (rebuildKey true employmentId state entry).2.metrics ↔ row = entryRow employmentId entry ∨
        row ∈ state.2.metrics ∧ row.key ≠ (entryRow employmentId entry).key := by
  unfold rebuildKey
  dsimp only
  split
  next found =>
    refine ⟨rfl, ?_⟩
    intro row
    obtain ⟨member, -⟩ := Table.get_eq_some_iff.mp found
    constructor
    · intro present
      by_cases same : row.key = (entryRow employmentId entry).key
      · exact .inl (state.2.metrics.key_inj present member same)
      · exact .inr ⟨present, same⟩
    · intro either
      rcases either with rfl | other
      · exact member
      · exact other.1
  next different =>
    refine ⟨rfl, ?_⟩
    intro row
    exact Table.mem_put

/-- Writing consistent entries one by one puts exactly their rows in place. -/
theorem rebuildKeys_apply (entries : List ((Int × DailyMetricSource) × DailyMetrics)) (state : Nat × Db)
    (consistent : ∀ left ∈ entries, ∀ right ∈ entries, (entryRow employmentId left).key = (entryRow employmentId right).key →
      entryRow employmentId left = entryRow employmentId right) :
    (entries.foldl (rebuildKey true employmentId) state).2 =
        { state.2 with metrics := (entries.foldl (rebuildKey true employmentId) state).2.metrics } ∧
      ∀ row, row ∈ (entries.foldl (rebuildKey true employmentId) state).2.metrics ↔
        (∃ entry ∈ entries, entryRow employmentId entry = row) ∨
          row ∈ state.2.metrics ∧ ∀ entry ∈ entries, row.key ≠ (entryRow employmentId entry).key := by
  induction entries generalizing state with
  | nil => exact ⟨rfl, by simp⟩
  | cons first rest ih =>
    rw [List.foldl_cons]
    obtain ⟨frame, written⟩ := rebuildKey_apply employmentId state first
    obtain ⟨frame', written'⟩ := ih (rebuildKey true employmentId state first)
      fun left inLeft right inRight => consistent left (by simp [inLeft]) right (by simp [inRight])
    refine ⟨by rw [frame', frame], ?_⟩
    intro row
    rw [written', written]
    simp only [List.mem_cons, exists_eq_or_imp, forall_eq_or_imp]
    constructor
    · intro either
      rcases either with later | ⟨rfl | kept, others⟩
      · exact .inl (.inr later)
      · exact .inl (.inl rfl)
      · exact .inr ⟨kept.1, kept.2, others⟩
    · intro either
      rcases either with (rfl | later) | ⟨kept, different, others⟩
      · by_cases again : ∃ entry ∈ rest, (entryRow employmentId first).key = (entryRow employmentId entry).key
        · obtain ⟨entry, member, same⟩ := again
          exact .inl ⟨entry, member, (consistent first (by simp) entry (by simp [member]) same).symm⟩
        · push Not at again
          exact .inr ⟨.inl rfl, again⟩
      · exact .inl later
      · exact .inr ⟨.inr ⟨kept, different⟩, others⟩

/-- Checking counts the entries whose row is missing or different. -/
theorem rebuildKeys_check (entries : List ((Int × DailyMetricSource) × DailyMetrics)) (state : Nat × Db) :
    (entries.foldl (rebuildKey false employmentId) state).2 = state.2 ∧
      state.1 ≤ (entries.foldl (rebuildKey false employmentId) state).1 ∧
      ((entries.foldl (rebuildKey false employmentId) state).1 = state.1 ↔
        ∀ entry ∈ entries, entryRow employmentId entry ∈ state.2.metrics) := by
  induction entries generalizing state with
  | nil => simp
  | cons first rest ih =>
    rw [List.foldl_cons]
    obtain ⟨frame, grows, zero⟩ := ih (rebuildKey false employmentId state first)
    have one : (rebuildKey false employmentId state first).2 = state.2 ∧
        (entryRow employmentId first ∈ state.2.metrics ∧ (rebuildKey false employmentId state first).1 = state.1 ∨
          entryRow employmentId first ∉ state.2.metrics ∧ (rebuildKey false employmentId state first).1 = state.1 + 1) := by
      unfold rebuildKey
      dsimp only
      split
      next found => exact ⟨rfl, .inl ⟨(Table.get_eq_some_iff.mp found).1, rfl⟩⟩
      next missing => exact ⟨rfl, .inr ⟨fun member => missing (Table.get_of_mem member), rfl⟩⟩
    obtain ⟨same, counted⟩ := one
    rw [same] at frame zero
    refine ⟨frame, ?_⟩
    rw [List.forall_mem_cons]
    rcases counted with ⟨member, count⟩ | ⟨missing, count⟩
    · rw [count] at grows zero
      exact ⟨grows, zero.trans (by simp [member])⟩
    · rw [count] at grows
      refine ⟨by omega, ?_⟩
      constructor
      · intro impossible
        omega
      · intro all
        exact absurd all.1 missing

end Keys

section Employments
variable {db : Db}

/-- The rows of an employment under no expected key. -/
def unexpectedRows (db : Db) (employment : Employment) (expected : List ((Int × DailyMetricSource) × DailyMetrics)) : List EmploymentDailyTimeMetric :=
  (db.metricsOf employment.id).filter fun row => (row.metricDate, row.source) ∉ expected.map Prod.fst

theorem rebuildEmployment_eq (apply : Bool) (changed : Nat) (db : Db) (employment : Employment) :
    rebuildEmployment apply (changed, db) employment = (expectedMetrics db employment).map fun expected =>
      expected.foldl (rebuildKey apply employment.id)
        (changed + (unexpectedRows db employment expected).length,
          if apply then { db with metrics := db.metrics.deleteWhere fun row =>
            row.employmentId = employment.id ∧ (row.metricDate, row.source) ∉ expected.map Prod.fst } else db) := by
  unfold rebuildEmployment
  dsimp only
  split
  next none =>
    -- Without facts no month is visited, so nothing is expected.
    have empty : expectedMetrics db employment = some [] := by
      simp [expectedMetrics, factMonths, none]
    rw [empty]
    simp [unexpectedRows]
  · cases expectedMetrics db employment <;> rfl

/-- An expected key is the key of a wanted row. -/
private theorem expected_key {employment : Employment} {expected : List ((Int × DailyMetricSource) × DailyMetrics)}
    (rows : ∀ row, (∃ entry ∈ expected, entryRow employment.id entry = row) ↔ Wanted db employment row)
    {row : EmploymentDailyTimeMetric} (owner : row.employmentId = employment.id) :
    (row.metricDate, row.source) ∈ expected.map Prod.fst ↔ ∃ other, Wanted db employment other ∧ other.key = row.key := by
  constructor
  · intro listed
    obtain ⟨entry, member, same⟩ := List.mem_map.mp listed
    refine ⟨entryRow employment.id entry, (rows _).mp ⟨entry, member, rfl⟩, ?_⟩
    obtain ⟨sameDate, sameSource⟩ := Prod.mk.inj same
    exact Prod.ext owner.symm (Prod.ext sameDate sameSource)
  · intro wanted
    obtain ⟨other, wanted, same⟩ := wanted
    obtain ⟨entry, member, rfl⟩ := (rows _).mpr wanted
    refine List.mem_map.mpr ⟨entry, member, ?_⟩
    exact congrArg Prod.snd same

/-- Rebuilding one employment makes it exact and leaves the others alone. -/
theorem rebuildEmployment_apply {employment : Employment} (dated : Dated db employment) (changed : Nat) :
    ∃ count next, rebuildEmployment true (changed, db) employment = some (count, next) ∧
      next = { db with metrics := next.metrics } ∧ ∀ row, row ∈ next.metrics ↔
        if row.employmentId = employment.id then Wanted db employment row else row ∈ db.metrics := by
  obtain ⟨expected, found, rows⟩ := expectedMetrics_spec dated
  have consistent : ∀ left ∈ expected, ∀ right ∈ expected,
      (entryRow employment.id left).key = (entryRow employment.id right).key →
        entryRow employment.id left = entryRow employment.id right := by
    intro left inLeft right inRight same
    exact ((rows _).mp ⟨left, inLeft, rfl⟩).unique ((rows _).mp ⟨right, inRight, rfl⟩) same
  rw [rebuildEmployment_eq, found, Option.map_some]
  obtain ⟨frame, written⟩ := rebuildKeys_apply employment.id expected
    (changed + (unexpectedRows db employment expected).length,
      { db with metrics := db.metrics.deleteWhere fun row =>
        row.employmentId = employment.id ∧ (row.metricDate, row.source) ∉ expected.map Prod.fst }) consistent
  refine ⟨_, _, rfl, frame, ?_⟩
  intro row
  rw [if_pos rfl, written, rows, Table.mem_deleteWhere]
  by_cases owner : row.employmentId = employment.id
  · rw [if_pos owner, expected_key rows owner]
    constructor
    · intro either
      rcases either with wanted | ⟨⟨-, listed⟩, fresh⟩
      · exact wanted
      · -- A surviving row has an expected key, but no entry may share its key.
        obtain ⟨other, wanted, same⟩ := not_not.mp fun missing => listed ⟨owner, missing⟩
        obtain ⟨entry, member, rfl⟩ := (rows _).mpr wanted
        exact absurd same.symm (fresh entry member)
    · exact .inl
  · rw [if_neg owner]
    constructor
    · intro either
      rcases either with wanted | kept
      · exact absurd wanted.owner owner
      · exact kept.1.1
    · intro member
      refine .inr ⟨⟨member, fun both => owner both.1⟩, ?_⟩
      intro entry _ same
      exact owner (congrArg Prod.fst same)

/-- Checking one employment counts nothing exactly when it is exact. -/
theorem rebuildEmployment_check {employment : Employment} (dated : Dated db employment) (changed : Nat) :
    ∃ count, rebuildEmployment false (changed, db) employment = some (count, db) ∧ changed ≤ count ∧
      (count = changed ↔ EmploymentExact db employment) := by
  obtain ⟨expected, found, rows⟩ := expectedMetrics_spec dated
  rw [rebuildEmployment_eq, found, Option.map_some]
  obtain ⟨frame, grows, zero⟩ := rebuildKeys_check employment.id expected
    (changed + (unexpectedRows db employment expected).length, db)
  simp only [Bool.false_eq_true, if_false] at frame grows zero ⊢
  generalize expected.foldl (rebuildKey false employment.id)
    (changed + (unexpectedRows db employment expected).length, db) = outcome at frame grows zero ⊢
  refine ⟨outcome.1, congrArg some (Prod.ext rfl frame), by omega, ?_⟩
  have unexpected : (unexpectedRows db employment expected).length = 0 ↔
        ∀ row ∈ db.metrics, row.employmentId = employment.id → (row.metricDate, row.source) ∈ expected.map Prod.fst := by
    simp [unexpectedRows, List.length_eq_zero_iff, List.filter_eq_nil_iff]
  have present : (∀ entry ∈ expected, entryRow employment.id entry ∈ db.metrics) ↔
      ∀ row, Wanted db employment row → row ∈ db.metrics := by
    constructor
    · intro all row wanted
      obtain ⟨entry, member, rfl⟩ := (rows row).mpr wanted
      exact all entry member
    · intro all entry member
      exact all _ ((rows _).mp ⟨entry, member, rfl⟩)
  constructor
  · intro same row owner
    have all := present.mp (zero.mp (by omega))
    constructor
    · intro member
      obtain ⟨other, wanted, sameKey⟩ := (expected_key rows owner).mp (unexpected.mp (by omega) row member owner)
      rw [← db.metrics.key_inj (all other wanted) member sameKey]
      exact wanted
    · exact all row
  · intro exact'
    have all := zero.mpr (present.mpr fun row wanted => (exact' row wanted.owner).mpr wanted)
    have none := unexpected.mpr fun row member owner =>
      (expected_key rows owner).mpr ⟨row, (exact' row owner).mp member, rfl⟩
    omega

theorem wanted_of_metrics (metrics : Table EmploymentDailyTimeMetric EmploymentDailyTimeMetric.key)
    (employment : Employment) (row : EmploymentDailyTimeMetric) :
    Wanted { db with metrics := metrics } employment row ↔ Wanted db employment row := by
  have same (month : Int × Nat) : monthRows { db with metrics := metrics } employment month = monthRows db employment month :=
    monthRows_of_same_tables rfl rfl rfl employment month
  simp only [Wanted, same]
  rfl

theorem rebuild_check {employments : List Employment} (dated : ∀ employment ∈ employments, Dated db employment)
    (changed : Nat) : ∃ count, employments.foldlM (rebuildEmployment false) (changed, db) = some (count, db) ∧
      changed ≤ count ∧ (count = changed ↔ ∀ employment ∈ employments, EmploymentExact db employment) := by
  induction employments generalizing changed with
  | nil => exact ⟨changed, rfl, le_rfl, by simp⟩
  | cons first rest ih =>
    obtain ⟨datedFirst, datedRest⟩ := List.forall_mem_cons.mp dated
    obtain ⟨middle, one, grows, zero⟩ := rebuildEmployment_check datedFirst changed
    obtain ⟨count, many, grows', zero'⟩ := ih datedRest middle
    refine ⟨count, ?_, by omega, ?_⟩
    · rw [List.foldlM_cons, one]
      exact many
    · rw [List.forall_mem_cons, ← zero, ← zero']
      omega

/-- Rebuilding makes every visited employment exact and touches no other rows. -/
theorem rebuild_apply {employments : List Employment} (distinct : (employments.map Employment.id).Nodup)
    (dated : ∀ employment ∈ employments, Dated db employment) (changed : Nat) :
    ∃ count next, employments.foldlM (rebuildEmployment true) (changed, db) = some (count, next) ∧
      next = { db with metrics := next.metrics } ∧ (∀ employment ∈ employments, EmploymentExact next employment) ∧
      ∀ row, (∀ employment ∈ employments, row.employmentId ≠ employment.id) → (row ∈ next.metrics ↔ row ∈ db.metrics) := by
  induction employments generalizing changed db with
  | nil => exact ⟨changed, db, rfl, rfl, by simp, by simp⟩
  | cons first rest ih =>
    obtain ⟨fresh, distinct⟩ := List.nodup_cons.mp distinct
    obtain ⟨datedFirst, datedRest⟩ := List.forall_mem_cons.mp dated
    obtain ⟨middleCount, middle, one, frame, written⟩ := rebuildEmployment_apply datedFirst changed
    have datedMiddle : ∀ employment ∈ rest, Dated middle employment := by
      intro employment member
      rw [frame]
      exact datedRest employment member
    obtain ⟨count, next, many, frame', exacts, others⟩ := ih distinct datedMiddle middleCount
    have whole : next = { db with metrics := next.metrics } := by rw [frame', frame]
    refine ⟨count, next, ?_, whole, List.forall_mem_cons.mpr ⟨?_, exacts⟩, ?_⟩
    · rw [List.foldlM_cons, one]
      exact many
    · intro row owner
      have untouched := others row fun employment member same =>
        fresh (owner ▸ same ▸ List.mem_map_of_mem member)
      rw [untouched, written row, if_pos owner, whole]
      exact (wanted_of_metrics next.metrics first row).symm
    · intro row elsewhere
      obtain ⟨notFirst, notRest⟩ := List.forall_mem_cons.mp elsewhere
      rw [others row notRest, written row, if_neg notFirst]

/-- An employment is exact exactly when a sync of it would change nothing. -/
theorem employmentExact_iff_sync {employment : Employment} (dated : Dated db employment) :
    EmploymentExact db employment ↔ ∃ synced, syncEmploymentMetrics db employment = .ok synced ∧
      ∀ row, row ∈ synced.metrics ↔ row ∈ db.metrics := by
  obtain ⟨synced, done⟩ := syncMetrics_total dated
  obtain ⟨-, written⟩ := syncMetrics_ok done
  constructor
  · intro exact'
    refine ⟨synced, done, ?_⟩
    intro row
    rw [written row]
    split
    next owner => exact (exact' row owner).symm
    · rfl
  · intro found
    obtain ⟨other, again, same⟩ := found
    obtain rfl : synced = other := Except.ok.inj (done.symm.trans again)
    intro row owner
    rw [← same row, written row, if_pos owner]

end Employments

/-- Where every fact lies in a month the calendar can close, a rebuild succeeds and
a check after it finds nothing to change; and a check finds nothing to change exactly
when the online sync of every employment would leave the metric table as it is. -/
theorem rebuild_agrees_with_sync (db : Db) (dated : ∀ employment ∈ db.employments, Dated db employment) :
    (∃ changed next, rebuild true db = some (changed, next) ∧ rebuild false next = some (0, next) ∧
      next = { db with metrics := next.metrics }) ∧
    ∃ changed, rebuild false db = some (changed, db) ∧
      (changed = 0 ↔ ∀ employment ∈ db.employments, ∃ synced, syncEmploymentMetrics db employment = .ok synced ∧
        ∀ row, row ∈ synced.metrics ↔ row ∈ db.metrics) := by
  obtain ⟨changed, next, applied, frame, exacts, -⟩ := rebuild_apply db.employments.unique dated 0
  have datedNext : ∀ employment ∈ db.employments.rows, Dated next employment := by
    intro employment member
    rw [frame]
    exact dated employment member
  obtain ⟨again, checked, -, zero⟩ := rebuild_check datedNext 0
  obtain ⟨count, counted, -, none⟩ := rebuild_check dated 0
  refine ⟨⟨changed, next, applied, ?_, frame⟩, count, counted, ?_⟩
  · rw [zero.mpr exacts] at checked
    rw [rebuild, show next.employments = db.employments by rw [frame]]
    exact checked
  · rw [none]
    apply forall_congr'
    intro employment
    apply forall_congr'
    intro member
    exact employmentExact_iff_sync (dated employment member)

theorem sample_rebuild : (∃ changed next, rebuild true sampleWorkDb = some (changed, next) ∧
      rebuild false next = some (0, next) ∧ next = { sampleWorkDb with metrics := next.metrics }) ∧
    ∃ changed, rebuild false sampleWorkDb = some (changed, sampleWorkDb) ∧
      (changed = 0 ↔ ∀ employment ∈ sampleWorkDb.employments, ∃ synced,
        syncEmploymentMetrics sampleWorkDb employment = .ok synced ∧
          ∀ row, row ∈ synced.metrics ↔ row ∈ sampleWorkDb.metrics) := by
  apply rebuild_agrees_with_sync sampleWorkDb
  intro employment member
  obtain rfl : employment = sampleEmployment := List.mem_singleton.mp member
  intro date fact
  have dates : ∀ date ∈ factDates sampleWorkDb sampleEmployment.id, Representable (yearMonth date) := by decide +kernel
  exact dates date fact

/-- A sickness recorded for 15 December 9999. -/
def lastMonthDb : Db :=
  { sampleDb with attendance := ⟨[⟨1, ordinal 9999 12 15, some .sickness, none⟩], by decide⟩ }

/-- The month after December 9999 has no first day, so the script raises. -/
theorem rebuild_raises_in_last_month : rebuild true lastMonthDb = none ∧ rebuild false lastMonthDb = none := by
  exact ⟨rfl, rfl⟩

end Dagmar.Proofs
