import Dagmar.Proofs.DayExclusivity

/-! The metric table is exact along a run: each request writes the months whose
facts it changes, provided that the times it stores read as it computed with them. -/

namespace Dagmar.Proofs
open Library Library.Calendar Library.Outcome

/-- The metric rows are those of stored employments, and exact for each of them in every month. -/
structure MetricsExact (db : Db) : Prop where
  known : ∀ row ∈ db.metrics, db.employments.get row.employmentId ≠ none
  exact' : ∀ employment ∈ db.employments, ∀ month, MonthExact db employment month

section Presence
variable {db : Db} {employment : Employment} {range : Int × Int} {date : Int}

theorem emptyDailyMetrics_quiet : plannedState (emptyDailyMetrics employment) = .empty ∧
    ((emptyDailyMetrics employment).any fun metrics => 0 < metrics.total.minutes) = false := by
  unfold emptyDailyMetrics
  split <;> simp [plannedState, metricValue]

/-- A day that counts for the presence of a source has a fact of it. -/
theorem worked_fact (counts : (getAttendanceDay db employment.id date).isSome ∨
      workedState (db.eventsOf employment.id) date ≠ .empty ∨
      (calculateDailyMetrics employment date (pairEvents (db.eventsOf employment.id))).any
        fun worked => 0 < worked.total.minutes) : date ∈ factDates db employment.id := by
  have ofEvents (some' : eventsOn (db.eventsOf employment.id) date ≠ []) : date ∈ factDates db employment.id := by
    obtain ⟨event, member⟩ := List.exists_mem_of_ne_nil _ some'
    obtain ⟨inside, today⟩ := mem_eventsOn.mp member
    simp only [factDates, List.mem_append]
    exact .inl (.inl (.inl (.inl (List.mem_map.mpr ⟨event, inside, today⟩))))
  rcases counts with recorded | state | worked
  · obtain ⟨row, found⟩ := Option.isSome_iff_exists.mp recorded
    obtain ⟨member, key⟩ := Table.get_eq_some_iff.mp found
    obtain ⟨owner, today⟩ := Prod.mk.inj key
    simp only [factDates, List.mem_append]
    exact .inl (.inl (.inr (List.mem_map.mpr ⟨row, Db.mem_attendanceOf.mpr ⟨member, owner⟩, today⟩)))
  · apply ofEvents
    intro none
    apply state
    unfold eventsOn at none
    simp [workedState, none]
  · apply ofEvents
    intro none
    have empty : dayIntervals date (pairEvents (db.eventsOf employment.id)) = [] := by
      rw [dayIntervals_pairEvents, dayWork, none]
      rfl
    rw [calculateDailyMetrics_empty employment empty, emptyDailyMetrics_quiet.2] at worked
    cases worked

theorem planned_fact (inside : range.1 ≤ date ∧ date < range.2)
    (counts : (getShiftPlanDay db employment.id date).isSome ∨
      plannedState (calculateDailyMetrics employment date
        (shiftPlanIntervals (db.plansBetween employment.id range.1 range.2))) ≠ .empty ∨
      (calculateDailyMetrics employment date (shiftPlanIntervals (db.plansBetween employment.id range.1 range.2))).any
        fun planned => 0 < planned.total.minutes) : date ∈ factDates db employment.id := by
  cases found : getShiftPlanDay db employment.id date with
  | some plan =>
    obtain ⟨member, owner, today⟩ := getShiftPlanDay_date found
    simp only [factDates, List.mem_append]
    exact .inl (.inr (List.mem_map.mpr ⟨plan, Db.mem_plansOf.mpr ⟨member, owner⟩, today⟩))
  | none =>
    have empty : dayIntervals date (shiftPlanIntervals (db.plansBetween employment.id range.1 range.2)) = [] := by
      have absent : db.shiftPlans.get (employment.id, date) = none := found
      rw [dayIntervals_plans db employment.id range.1 range.2 date inside, absent]
      rfl
    rw [found, calculateDailyMetrics_empty employment empty] at counts
    rcases counts with recorded | state | planned
    · cases recorded
    · exact absurd emptyDailyMetrics_quiet.1 state
    · rw [emptyDailyMetrics_quiet.2] at planned
      cases planned

/-- A month without facts asks for no rows. -/
theorem monthRows_fact {month : Int × Nat} {row : EmploymentDailyTimeMetric}
    (member : row ∈ monthRows db employment month) : month ∈ factMonths db employment.id := by
  cases found : monthRange month.1 month.2 with
  | none =>
    rw [monthRows_none found] at member
    cases member
  | some range =>
    obtain ⟨-, source, -, -, present, -, -⟩ := (mem_monthRows found).mp member
    have ofDay (date : Int) (listed : date ∈ monthDays range.1 range.2) (fact : date ∈ factDates db employment.id) :
        month ∈ factMonths db employment.id := by
      have inMonth := (monthRange_days found date).mp (mem_monthDays.mp listed)
      exact List.mem_map.mpr ⟨date, fact, inMonth⟩
    cases source with
    | attendance =>
      simp only [sourcePresent, computedPresence, monthSummarySourcePresence, monthSummary, computedDays, List.any_map,
        List.any_eq_true, Function.comp_apply, Bool.or_eq_true, decide_eq_true_eq, or_assoc] at present
      obtain ⟨date, listed, counts⟩ := present
      exact ofDay date listed (worked_fact counts)
    | shiftPlan =>
      simp only [sourcePresent, computedPresence, monthSummarySourcePresence, monthSummary, computedDays, List.any_map,
        List.any_eq_true, Function.comp_apply, Bool.or_eq_true, decide_eq_true_eq, or_assoc] at present
      obtain ⟨date, listed, counts⟩ := present
      exact ofDay date listed (planned_fact (mem_monthDays.mp listed) counts)

theorem monthRows_unrecorded (events : ∀ event ∈ db.events, event.employmentId ≠ employment.id)
    (attendance : ∀ row ∈ db.attendance, row.employmentId ≠ employment.id)
    (plans : ∀ plan ∈ db.shiftPlans, plan.employmentId ≠ employment.id) (month : Int × Nat) :
    monthRows db employment month = [] := by
  have noEvents : db.eventsOf employment.id = [] := by
    apply List.eq_nil_iff_forall_not_mem.mpr
    intro event member
    exact events event (Db.mem_eventsOf.mp member).1 (Db.mem_eventsOf.mp member).2
  have noRows : db.attendanceOf employment.id = [] := by
    apply List.eq_nil_iff_forall_not_mem.mpr
    intro row member
    exact attendance row (Db.mem_attendanceOf.mp member).1 (Db.mem_attendanceOf.mp member).2
  have noPlans : db.plansOf employment.id = [] := by
    apply List.eq_nil_iff_forall_not_mem.mpr
    intro plan member
    exact plans plan (Db.mem_plansOf.mp member).1 (Db.mem_plansOf.mp member).2
  apply List.eq_nil_iff_forall_not_mem.mpr
  intro row member
  have fact := monthRows_fact member
  simp [factMonths, factDates, noEvents, noRows, noPlans, pairEvents, pairEventRows, orderedEvents, shiftPlanIntervals] at fact

end Presence

section Steps
variable {zone : Zone} {clock : Clock} {db next flushed : Db} {writes : List Timestamp}

/-- The columns that a revision must leave alone are the ones the rows of a month are computed from. -/
theorem monthRows_columns {employment updated : Employment} (sameId : updated.id = employment.id)
    (same : SameMetricColumns employment updated) (month : Int × Nat) :
    monthRows db updated month = monthRows db employment month := by
  have columns := same.profile
  simp only [Admin.metricProfileChanged, Bool.or_eq_false_iff, ne_eq, decide_not, Bool.not_eq_false',
    decide_eq_true_eq] at columns
  obtain ⟨⟨⟨⟨⟨-, afternoon⟩, start⟩, night⟩, weekend⟩, holiday⟩ := columns
  have metrics (date : Int) (intervals : List WorkInterval) :
      calculateDailyMetrics updated date intervals = calculateDailyMetrics employment date intervals := by
    simp only [calculateDailyMetrics, same.employmentType, afternoon, start, night, weekend, holiday]
  cases found : monthRange month.1 month.2 with
  | none => rw [monthRows_none found, monthRows_none found]
  | some range =>
    have days (date : Int) : SameWritten (daySummary db updated range.1 range.2 false date)
        (daySummary db employment range.1 range.2 false date) := by
      refine ⟨rfl, ?_, ?_, ?_, ?_, ?_, ?_⟩ <;> simp [daySummary, metrics, sameId]
    have summaries : (computedDays db updated range).flatMap (dayRows updated.id (computedPresence db updated range)) =
        (computedDays db employment range).flatMap (dayRows employment.id (computedPresence db employment range)) := by
      have presence : computedPresence db updated range = computedPresence db employment range := by
        simp only [computedPresence, monthSummarySourcePresence, monthSummary, computedDays, List.any_map,
          Function.comp_def, (days _).attendance, (days _).workedState, (days _).worked, (days _).plan,
          (days _).plannedState, (days _).planned]
      rw [presence, computedDays, computedDays, List.flatMap_map, List.flatMap_map, sameId]
      apply List.flatMap_congr
      intro date _
      simp only [dayRows, (days date).date, (days date).worked, (days date).planned]
    rw [monthRows_eq found, monthRows_eq found, summaries]

/-- A sync of the months whose facts changed makes an exact table exact again. -/
theorem MetricsExact.sync {employment : Employment} {months : List (Int × Nat)} {synced : Db} (before : MetricsExact db)
    (stored : db.employments.get employment.id = some employment) (employments : flushed.employments = db.employments)
    (metrics : flushed.metrics = db.metrics)
    (facts : ∀ owner date, (owner = employment.id → yearMonth date ∉ months) → SameFacts db flushed owner date)
    (done : syncEmploymentMetricMonths flushed employment months = .ok synced) : MetricsExact synced := by
  obtain ⟨-, frame, written⟩ := syncMonths_ok done
  have staff : synced.employments = db.employments := by rw [frame, ← employments]
  have same (other : Employment) (month : Int × Nat) : monthRows synced other month = monthRows flushed other month := by
    rw [frame]
    exact monthRows_of_same_tables rfl rfl rfl other month
  refine ⟨?_, ?_⟩
  · intro row member
    rw [staff]
    by_cases synced' : row.employmentId = employment.id ∧ yearMonth row.metricDate ∈ months
    · rw [synced'.1, stored]
      simp
    · rw [written row, if_neg synced', metrics] at member
      exact before.known row member
  · intro other member month row owner inside
    rw [staff] at member
    rw [written row, same]
    by_cases synced' : row.employmentId = employment.id ∧ yearMonth row.metricDate ∈ months
    · have one : other = employment := by
        obtain ⟨held, -⟩ := Table.get_eq_some_iff.mp stored
        exact db.employments.key_inj member held (owner.symm.trans synced'.1)
      rw [if_pos synced', inside, one]
    · rw [if_neg synced', metrics, before.exact' other member month row owner inside]
      have unread : monthRows db other month = monthRows flushed other month := by
        apply monthRows_congr
        intro date today
        apply facts
        intro chosen listed
        exact synced' ⟨owner.trans chosen, inside ▸ today ▸ listed⟩
      rw [unread]

theorem EventFlush.sameFacts {employment : Employment} {days : List Int}
    (flush : EventFlush zone clock db flushed employment days writes) (owner date : Int)
    (outside : owner = employment.id → yearMonth date ∉ monthsForDays days) : SameFacts db flushed owner date := by
  refine ⟨?_, ?_, ?_⟩
  · intro event owned today
    constructor
    · intro member
      by_contra missing
      obtain ⟨chosen, listed⟩ := flush.removed event member missing
      exact outside (owned.symm.trans chosen) (mem_monthsForDays.mpr ⟨_, today ▸ listed, rfl⟩)
    · intro member
      by_contra fresh
      obtain ⟨chosen, -, listed⟩ := flush.added event member fresh
      exact outside (owned.symm.trans chosen) (mem_monthsForDays.mpr ⟨_, today ▸ listed, rfl⟩)
  · intro row _
    rw [flush.frame]
  · intro plan _
    rw [flush.frame]

theorem DayFlush.sameFacts {employment : Employment} {day : Int} {months : List (Int × Nat)}
    (flush : DayFlush zone clock db flushed employment day) (listed : yearMonth day ∈ months) (owner date : Int)
    (outside : owner = employment.id → yearMonth date ∉ months) : SameFacts db flushed owner date := by
  have different : (owner, date) ≠ (employment.id, day) := by
    intro same
    obtain ⟨rfl, rfl⟩ := Prod.mk.inj same
    exact outside rfl listed
  refine ⟨?_, ?_, ?_⟩
  · intro event owned today
    refine ⟨?_, flush.events event⟩
    intro member
    by_contra missing
    obtain ⟨chosen, same, -⟩ := flush.removed event member missing
    exact different (Prod.ext (owned.symm.trans chosen) (today.symm.trans same))
  · intro row key
    exact (flush.attendance row (key ▸ different)).symm
  · intro plan key
    exact (flush.plans plan (key ▸ different)).symm

theorem MetricsExact.of_tables (before : MetricsExact db) (employments : next.employments = db.employments)
    (events : next.events = db.events) (attendance : next.attendance = db.attendance)
    (plans : next.shiftPlans = db.shiftPlans) (metrics : next.metrics = db.metrics) : MetricsExact next := by
  refine ⟨?_, ?_⟩
  · rw [employments, metrics]
    exact before.known
  · intro employment member month row owner inside
    rw [employments] at member
    rw [metrics, before.exact' employment member month row owner inside,
      monthRows_of_same_tables events attendance plans employment month]

theorem EventCommit.exact' {employmentId : Int} (rested : Rested zone db) (before : MetricsExact db)
    (settled : ∀ time ∈ writes, zone.Settled time) (committed : EventCommit zone clock db next employmentId writes) :
    MetricsExact next := by
  obtain ⟨employment, flushed, days, synced, flush, done, rfl, -⟩ := committed
  obtain ⟨-, frame, -⟩ := syncMonths_ok done
  have still : Rested zone synced := by
    rw [frame]
    intro event member
    by_cases kept : event ∈ db.events
    · exact rested event kept
    · exact settled _ (flush.added event member kept).2.1
  rw [commit_of_rested still]
  refine before.sync flush.stored ?_ ?_ flush.sameFacts done
  · rw [flush.frame]
  · rw [flush.frame]

theorem DayCommit.exact' {employmentId : Int} (rested : Rested zone db) (before : MetricsExact db)
    (committed : DayCommit zone clock db next employmentId) : MetricsExact next := by
  obtain ⟨employment, date, flushed, months, synced, flush, listed, done, rfl, -⟩ := committed
  obtain ⟨-, frame, -⟩ := syncMonths_ok done
  have still : Rested zone synced := by
    rw [frame]
    exact fun event member => rested event (flush.events event member)
  rw [commit_of_rested still]
  refine before.sync flush.stored ?_ ?_ (flush.sameFacts listed) done
  · rw [flush.frame]
  · rw [flush.frame]

/-- A new employment has neither facts nor metrics. -/
theorem HireCommit.exact' (rested : Rested zone db) (contained : FactsContained db) (before : MetricsExact db)
    (committed : HireCommit zone db next) : MetricsExact next := by
  obtain ⟨employment, fresh, frame, members⟩ := committed.changed rested
  have metrics : next.metrics = db.metrics := by rw [frame]
  have same (other : Employment) (month : Int × Nat) : monthRows next other month = monthRows db other month := by
    rw [frame]
    exact monthRows_of_same_tables rfl rfl rfl other month
  have unknown (id : Int) (known : db.employments.get id ≠ none) : id ≠ employment.id := by
    rintro rfl
    exact known fresh
  refine ⟨?_, ?_⟩
  · intro row member
    rw [metrics] at member
    have known := before.known row member
    rw [hired_get fresh members known]
    exact known
  · intro other member month row owner inside
    rw [metrics, same]
    rcases (members other).mp member with old | rfl
    · exact before.exact' other old month row owner inside
    · have none := monthRows_unrecorded (fun event held => unknown _ (contained.events event held).known)
        (fun row held => unknown _ (contained.attendance row held).known)
        (fun plan held => unknown _ (contained.plans plan held).known) month
      rw [none]
      constructor
      · intro held
        exact absurd owner (unknown _ (before.known row held))
      · intro impossible
        cases impossible

/-- The facts of the other employments are not touched by a revision. -/
theorem Revision.sameFacts {employment updated : Employment} (revision : Revision db flushed employment updated)
    {owner : Int} (other : owner ≠ employment.id) (date : Int) : SameFacts db flushed owner date := by
  refine ⟨?_, ?_, ?_⟩
  · intro event owned _
    refine ⟨?_, fun member => (revision.events event member).1⟩
    intro member
    by_contra missing
    exact other (owned.symm.trans (revision.keptEvents event member missing).1)
  · intro row key
    refine ⟨?_, fun member => (revision.attendance row member).1⟩
    intro member
    by_contra missing
    exact other ((Prod.mk.inj key).1.symm.trans (revision.keptAttendance row member missing).1)
  · intro plan key
    refine ⟨?_, fun member => (revision.plans plan member).1⟩
    intro member
    by_contra missing
    exact other ((Prod.mk.inj key).1.symm.trans (revision.keptPlans plan member missing).1)

/-- A revision that keeps the period finds nothing outside it to delete. -/
theorem Revision.samePeriod {employment updated : Employment} (revision : Revision db flushed employment updated)
    (contained : FactsContained db) (same : SameMetricColumns employment updated) (date : Int) :
    SameFacts db flushed employment.id date := by
  have inside (day : Int) (fits : DayFits db employment.id day) : employmentIsValidOnDay updated day := by
    obtain ⟨other, stored, valid⟩ := fits
    obtain rfl : employment = other := Option.some.inj (revision.stored.symm.trans stored)
    rw [employmentIsValidOnDay, same.startDate, same.endDate]
    exact valid
  refine ⟨?_, ?_, ?_⟩
  · intro event owned _
    refine ⟨?_, fun member => (revision.events event member).1⟩
    intro member
    by_contra missing
    obtain ⟨-, other, held, owner, outside⟩ := revision.keptEvents event member missing
    exact outside (inside _ (owner ▸ contained.events other held))
  · intro row key
    refine ⟨?_, fun member => (revision.attendance row member).1⟩
    intro member
    by_contra missing
    obtain ⟨owner, outside⟩ := revision.keptAttendance row member missing
    exact outside (inside _ (owner ▸ contained.attendance row member))
  · intro plan key
    refine ⟨?_, fun member => (revision.plans plan member).1⟩
    intro member
    by_contra missing
    obtain ⟨owner, outside⟩ := revision.keptPlans plan member missing
    exact outside (inside _ (owner ▸ contained.plans plan member))

theorem ReviseCommit.exact' (rested : Rested zone db) (contained : FactsContained db) (before : MetricsExact db)
    (committed : ReviseCommit zone db next) : MetricsExact next := by
  obtain ⟨employment, updated, flushed, revision, frame, outcome⟩ := committed.changed rested
  have staff : next.employments = db.employments.put updated := by rw [frame, revision.frame]
  have metrics : flushed.metrics = db.metrics := by rw [revision.frame]
  have unread (other : Employment) (month : Int × Nat) : monthRows next other month = monthRows flushed other month := by
    rw [frame]
    exact monthRows_of_same_tables rfl rfl rfl other month
  have others (other : Employment) (different : other.id ≠ employment.id) (month : Int × Nat) :
      monthRows db other month = monthRows flushed other month :=
    monthRows_congr fun date _ => revision.sameFacts different date
  have known (id : Int) (known : db.employments.get id ≠ none) : next.employments.get id ≠ none := by
    rw [staff, Table.get_put]
    split
    · simp
    · exact known
  obtain ⟨held, -⟩ := Table.get_eq_some_iff.mp revision.stored
  rcases outcome with done | ⟨same, rfl⟩
  · obtain ⟨-, written⟩ := syncMetrics_ok done
    refine ⟨?_, ?_⟩
    · intro row member
      rw [written row] at member
      split at member
      next owner =>
        rw [staff, Table.get_put, if_pos owner.symm]
        simp
      · exact known _ (before.known row (metrics ▸ member))
    · intro other member month row owner inside
      rw [written row, unread]
      rw [staff, Table.mem_put] at member
      rcases member with rfl | ⟨old, different⟩
      · rw [if_pos owner, wanted_iff, inside]
        exact ⟨fun wanted => wanted.2, fun listed => ⟨monthRows_fact listed, listed⟩⟩
      · rw [if_neg fun equal => different (owner.symm.trans equal), metrics,
          before.exact' other old month row owner inside, others other fun equal => different (equal.trans revision.sameId.symm)]
  · refine ⟨fun row member => known _ (before.known row (metrics ▸ member)), ?_⟩
    intro other member month row owner inside
    rw [metrics]
    rw [staff, Table.mem_put] at member
    rcases member with rfl | ⟨old, different⟩
    · rw [before.exact' employment held month row (owner.trans revision.sameId) inside,
        monthRows_columns revision.sameId same, monthRows_congr fun date _ => revision.samePeriod contained same date]
    · rw [before.exact' other old month row owner inside,
        others other fun equal => different (equal.trans revision.sameId.symm)]

theorem Transition.exact' (rested : Rested zone db) (contained : FactsContained db) (before : MetricsExact db)
    (settled : ∀ time ∈ writes, zone.Settled time) (transition : Transition zone clock db next writes) :
    MetricsExact next := by
  cases transition with
  | facts changed =>
    cases changed with
    | nothing same => exact same ▸ before
    | events committed => exact committed.exact' rested before settled
    | day committed => exact committed.exact' rested before
  | months committed =>
    have flush := committed.changed rested
    rw [flush.frame]
    exact before.of_tables rfl rfl rfl rfl rfl
  | hired committed => exact committed.exact' rested contained before
  | revised committed => exact committed.exact' rested contained before

end Steps

section Runs

/-- Nothing is recorded about any employment; locks, selections and reminders may exist. -/
structure Unrecorded (db : Db) : Prop where
  events : ∀ event, event ∉ db.events
  attendance : ∀ row, row ∉ db.attendance
  plans : ∀ plan, plan ∉ db.shiftPlans
  metrics : ∀ row, row ∉ db.metrics

/-- Every time that an accepted request writes is read back as it was written. -/
def WritesSettled (zone : Zone) (db : Db) (call : Call) : Prop :=
  ∀ next, call.request.handle zone call.clock db = .ok next →
    ∀ time ∈ Request.writes zone db call.request, zone.Settled time

/-- In every state that such requests reach from a database without facts and
metrics, the metric rows of every employment and month are the ones that the
current facts and profile ask for. -/
theorem run_metrics_exact (zone : Zone) (db : Db) (unrecorded : Unrecorded db) (calls : List Call)
    (settled : RunMeets zone (WritesSettled zone) db calls) :
    ∀ employment ∈ (run zone db calls).employments, ∀ month, MonthExact (run zone db calls) employment month := by
  have start : (Rested zone db ∧ FactsContained db) ∧ MetricsExact db := by
    refine ⟨⟨?_, ?_, ?_, ?_⟩, ?_, ?_⟩
    · exact fun event member => absurd member (unrecorded.events event)
    · exact fun event member => absurd member (unrecorded.events event)
    · exact fun row member => absurd member (unrecorded.attendance row)
    · exact fun plan member => absurd member (unrecorded.plans plan)
    · exact fun row member => absurd member (unrecorded.metrics row)
    · intro employment _ month row _ _
      rw [monthRows_unrecorded (fun event member => absurd member (unrecorded.events event))
        (fun row member => absurd member (unrecorded.attendance row))
        (fun plan member => absurd member (unrecorded.plans plan)) month]
      exact iff_of_false (unrecorded.metrics row) List.not_mem_nil
  have invariant : (Rested zone (run zone db calls) ∧ FactsContained (run zone db calls)) ∧
      MetricsExact (run zone db calls) := by
    refine run_keeps (fun db => (Rested zone db ∧ FactsContained db) ∧ MetricsExact db) start settled ?_
    intro db call next holds settled done
    exact ⟨facts_step holds.1 done,
      (transition_of_handle done).exact' holds.1.1 holds.1.2 holds.2 (settled next done)⟩
  exact invariant.2.exact'

theorem sampleDb_unrecorded : Unrecorded sampleDb := by
  refine ⟨?_, ?_, ?_, ?_⟩ <;> exact fun _ member => by cases member

theorem sample_metrics_exact : MonthExact (run sampleZone sampleDb sampleShift) sampleEmployment (2026, 8) := by
  have stored : sampleEmployment ∈ (run sampleZone sampleDb sampleShift).employments := by decide +kernel
  refine run_metrics_exact sampleZone sampleDb sampleDb_unrecorded sampleShift ⟨?_, ?_, trivial⟩ sampleEmployment stored _
  · intro _ _
    decide +kernel
  · intro _ _ time written
    cases written

/-- Half past two in the morning of 29 March 2026 was skipped; it is read back an hour later. -/
def skippedShift : List Call :=
  [⟨sampleClock, .adminCreateEvent
    ⟨1, .naive (midnight (ordinal 2026 3 29) + 150 * minute), some (.naive (midnight (ordinal 2026 3 29) + 240 * minute))⟩⟩]

/-- The metrics count the ninety minutes that were entered, the facts hold thirty. -/
theorem skipped_hour_leaves_stale_metrics :
    ¬ ∀ employment ∈ (run sampleZone sampleDb skippedShift).employments, ∀ month,
      MonthExact (run sampleZone sampleDb skippedShift) employment month := by
  have stored : sampleEmployment ∈ (run sampleZone sampleDb skippedShift).employments := by decide +kernel
  have stale : ((run sampleZone sampleDb skippedShift).metrics.rows.any fun row =>
      (row.employmentId = sampleEmployment.id ∧ yearMonth row.metricDate = (2026, 3)) ∧
        row ∉ monthRows (run sampleZone sampleDb skippedShift) sampleEmployment (2026, 3)) = true := by decide +kernel
  obtain ⟨row, member, found⟩ := List.any_eq_true.mp stale
  rw [decide_eq_true_eq] at found
  intro exact'
  exact found.2 ((exact' sampleEmployment stored (2026, 3) row found.1.1 found.1.2).mp member)

end Runs

end Dagmar.Proofs
