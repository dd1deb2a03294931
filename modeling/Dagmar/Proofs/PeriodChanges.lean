import Dagmar.Proofs.Transitions

/-! A change of period announces what it would delete, and deletes that. -/

namespace Dagmar.Proofs
open Library Library.Calendar Library.Outcome

section Statements

/-- The rows of a table that are gone. -/
def deletedRows {ρ κ : Type} {key : ρ → κ} [DecidableEq ρ] (before after : Table ρ key) : List ρ :=
  before.rows.filter (· ∉ after.rows)

/-- The six counts are the numbers of the rows that are gone. -/
structure CountsDeleted (summary : RangeConflictSummary) (before after : Db) : Prop where
  attendance : summary.attendanceCount =
    (deletedRows before.attendance after.attendance).length + (deletedRows before.events after.events).length
  shiftPlans : summary.shiftPlanCount = (deletedRows before.shiftPlans after.shiftPlans).length
  attendanceLocks : summary.attendanceLockCount = (deletedRows before.attendanceLocks after.attendanceLocks).length
  shiftPlanLocks : summary.shiftPlanLockCount = (deletedRows before.shiftPlanLocks after.shiftPlanLocks).length
  selections : summary.shiftPlanSelectionCount = (deletedRows before.monthInstances after.monthInstances).length
  reminders : summary.reminderCount = (deletedRows before.reminders after.reminders).length

structure NothingCounted (summary : RangeConflictSummary) : Prop where
  attendance : summary.attendanceCount = 0
  shiftPlans : summary.shiftPlanCount = 0
  attendanceLocks : summary.attendanceLockCount = 0
  shiftPlanLocks : summary.shiftPlanLockCount = 0
  selections : summary.shiftPlanSelectionCount = 0
  reminders : summary.reminderCount = 0

/-- Rows of other employments, and rows that the period of this one leaves in, are kept. -/
structure InsideKept (before after : Db) (employmentId start : Int) (finish : Option Int) : Prop where
  events : ∀ event ∈ before.events,
    (event.employmentId = employmentId → ¬ isDateOutOfRange event.occurredAt.date start finish) → event ∈ after.events
  attendance : ∀ row ∈ before.attendance,
    (row.employmentId = employmentId → ¬ isDateOutOfRange row.date start finish) → row ∈ after.attendance
  plans : ∀ plan ∈ before.shiftPlans,
    (plan.employmentId = employmentId → ¬ isDateOutOfRange plan.date start finish) → plan ∈ after.shiftPlans
  locks : ∀ lockType, ∀ row ∈ before.locks lockType,
    (row.employmentId = employmentId → ¬ monthRecordOutOfRange row.year row.month start finish) → row ∈ after.locks lockType
  selections : ∀ row ∈ before.monthInstances,
    (row.employmentId = employmentId → ¬ monthRecordOutOfRange row.year row.month start finish) → row ∈ after.monthInstances
  reminders : ∀ row ∈ before.reminders,
    (row.employmentId = employmentId → ¬ isDateOutOfRange row.attendanceDate start finish) → row ∈ after.reminders

end Statements

section Pruning
variable {db : Db} {employmentId start : Int} {finish : Option Int}

theorem deletedRows_deleteWhere {ρ κ : Type} {key : ρ → κ} [DecidableEq ρ] (table : Table ρ key) (p : ρ → Prop) [DecidablePred p] :
    deletedRows table (table.deleteWhere p) = table.select p := by
  refine List.filter_congr fun row member => ?_
  have kept : row ∈ (table.deleteWhere p).rows ↔ row ∈ table ∧ ¬ p row := Table.mem_deleteWhere
  rw [decide_eq_decide, kept, not_and, not_not]
  exact ⟨fun gone => gone member, fun gone _ => gone⟩

theorem select_select {ρ κ : Type} {key : ρ → κ} (table : Table ρ key) (p q : ρ → Prop) [DecidablePred p] [DecidablePred q] :
    (table.select p).filter (fun row => q row) = table.select fun row => p row ∧ q row := by
  rw [Table.select, Table.select, List.filter_filter]
  exact List.filter_congr fun row _ => by rw [Bool.and_comm, Bool.decide_and]

/-- A pair stays within a day, so an event goes exactly when its own day is left out. -/
theorem outOfRange_iff {event : AttendanceEvent} (member : event ∈ db.events) :
    event.id ∈ outOfRangeEventIds (db.eventsOf employmentId) start finish ↔
      event.employmentId = employmentId ∧ isDateOutOfRange event.occurredAt.date start finish := by
  refine ⟨fun listed => ?_, fun outside => outOfRange_listed member outside.1 outside.2⟩
  have direct {other : AttendanceEvent} (held : other ∈ db.events) (named : other.id ∈ ((db.eventsOf employmentId).filter
      fun event => isDateOutOfRange event.occurredAt.date start finish).map AttendanceEvent.id) :
      isDateOutOfRange other.occurredAt.date start finish := by
    obtain ⟨chosen, found, same⟩ := List.mem_map.mp named
    obtain ⟨inside, late⟩ := List.mem_filter.mp found
    obtain rfl := db.events.key_inj (Db.mem_eventsOf.mp inside).1 held same
    exact of_decide_eq_true late
  refine ⟨(mem_outOfRangeEventIds member listed).1, ?_⟩
  rcases List.mem_append.mp listed with single | paired
  · exact direct member single
  · obtain ⟨pair, inside, ends⟩ := List.mem_flatMap.mp paired
    obtain ⟨first, second, -, sameDay⟩ := pair_sameDay inside
    have first := (Db.mem_eventsOf.mp first).1
    have second := (Db.mem_eventsOf.mp second).1
    split at ends
    next late =>
      have outside : isDateOutOfRange pair.1.occurredAt.date start finish := by
        rcases late with late | late
        · exact direct first late
        · exact sameDay ▸ direct second late
      simp only [List.mem_cons, List.not_mem_nil, or_false] at ends
      rcases ends with same | same
      · rw [db.events.key_inj member first same]
        exact outside
      · rw [db.events.key_inj member second same, ← sameDay]
        exact outside
    next => cases ends

theorem prune_counts : CountsDeleted (collectRangeConflicts db employmentId start finish) db
    (deleteOutOfRangeRecords db employmentId start finish) := by
  unfold deleteOutOfRangeRecords
  refine ⟨?_, ?_, ?_, ?_, ?_, ?_⟩ <;> simp only [collectRangeConflicts, deletedRows_deleteWhere]
  · rw [Db.attendanceOf, select_select]
    congr 2
    rw [Db.eventsOf, select_select]
    refine List.filter_congr fun event member => ?_
    rw [decide_eq_decide]
    exact and_iff_right_of_imp fun listed => ((outOfRange_iff member).mp listed).1
  · rw [Db.plansOf, select_select]

theorem pruned_counts_nothing :
    NothingCounted (collectRangeConflicts (deleteOutOfRangeRecords db employmentId start finish) employmentId start finish) := by
  have none {ρ κ : Type} {key : ρ → κ} [DecidableEq ρ] (table : Table ρ key) (p : ρ → Prop) [DecidablePred p] :
      ((table.deleteWhere p).select p).length = 0 := by
    rw [List.length_eq_zero_iff, List.eq_nil_iff_forall_not_mem]
    intro row selected
    obtain ⟨kept, chosen⟩ := Table.mem_select.mp selected
    exact (Table.mem_deleteWhere.mp kept).2 chosen
  refine ⟨?_, ?_, none _ _, none _ _, none _ _, none _ _⟩
  · simp only [collectRangeConflicts]
    rw [Db.attendanceOf, select_select]
    refine Nat.add_eq_zero_iff.mpr ⟨none _ _, ?_⟩
    rw [List.length_eq_zero_iff, List.filter_eq_nil_iff]
    intro event inside listed
    obtain ⟨kept, owner⟩ := Db.mem_eventsOf.mp inside
    obtain ⟨-, outside⟩ := (outOfRange_iff kept).mp (of_decide_eq_true listed)
    obtain ⟨stored, unlisted⟩ := Table.mem_deleteWhere.mp kept
    exact unlisted (outOfRange_listed stored owner outside)
  · simp only [collectRangeConflicts]
    rw [Db.plansOf, select_select]
    exact none _ _

theorem prune_keeps : InsideKept db (deleteOutOfRangeRecords db employmentId start finish) employmentId start finish where
  events event member inside := Table.mem_deleteWhere.mpr ⟨member, fun listed =>
    have outside := (outOfRange_iff member).mp listed
    inside outside.1 outside.2⟩
  attendance _ member inside := Table.mem_deleteWhere.mpr ⟨member, fun outside => inside outside.1 outside.2⟩
  plans plan member inside := Table.mem_deleteWhere.mpr ⟨member, fun outside => by
    obtain ⟨owner, date, named, late⟩ := outside
    obtain rfl : date = plan.date := by simpa [shiftPlanDays] using named
    exact inside owner late⟩
  locks lockType row member inside := by
    cases lockType with
    | attendance => exact Table.mem_deleteWhere.mpr ⟨member, fun outside => inside outside.1 outside.2⟩
    | shiftPlan => exact Table.mem_deleteWhere.mpr ⟨member, fun outside => inside outside.1 outside.2⟩
  selections _ member inside := Table.mem_deleteWhere.mpr ⟨member, fun outside => inside outside.1 outside.2⟩
  reminders _ member inside := Table.mem_deleteWhere.mpr ⟨member, fun outside => inside outside.1 outside.2⟩

/-- The intervals that are left are those of the days in the period. -/
theorem prune_pairs {pair : AttendanceEvent × AttendanceEvent} :
    pair ∈ pairEventRows ((deleteOutOfRangeRecords db employmentId start finish).eventsOf employmentId) ↔
      pair ∈ pairEventRows (db.eventsOf employmentId) ∧ ¬ isDateOutOfRange pair.1.occurredAt.date start finish ∧
        ¬ isDateOutOfRange pair.2.occurredAt.date start finish := by
  have kept (event : AttendanceEvent) : event ∈ (deleteOutOfRangeRecords db employmentId start finish).eventsOf employmentId ↔
      event ∈ db.eventsOf employmentId ∧ ¬ isDateOutOfRange event.occurredAt.date start finish := by
    rw [Db.mem_eventsOf, Db.mem_eventsOf, deleteOutOfRangeRecords, Table.mem_deleteWhere]
    constructor
    · rintro ⟨⟨member, unlisted⟩, owner⟩
      exact ⟨⟨member, owner⟩, fun outside => unlisted (outOfRange_listed member owner outside)⟩
    · rintro ⟨⟨member, owner⟩, inside⟩
      exact ⟨⟨member, fun listed => inside ((outOfRange_iff member).mp listed).2⟩, owner⟩
  have order {date : Int} (inside : ¬ isDateOutOfRange date start finish) :
      orderedEvents (eventsOn ((deleteOutOfRangeRecords db employmentId start finish).eventsOf employmentId) date) =
        orderedEvents (eventsOn (db.eventsOf employmentId) date) := by
    refine orderedEvents_congr ((numbered_eventsOf _ _).eventsOn date) ((numbered_eventsOf _ _).eventsOn date) fun event => ?_
    rw [mem_eventsOn, mem_eventsOn, kept]
    refine and_congr_left fun today => and_iff_left ?_
    rw [today]
    exact inside
  constructor
  · intro paired
    obtain ⟨first, second, -, -⟩ := pair_sameDay paired
    obtain ⟨date, member⟩ := mem_pairEventRows.mp paired
    have today := (mem_eventsOn.mp (mem_orderedEvents.mp (mem_dayPairs member).1)).2
    have inside := ((kept _).mp first).2
    exact ⟨mem_pairEventRows.mpr ⟨date, order (today ▸ inside) ▸ member⟩, inside, ((kept _).mp second).2⟩
  · rintro ⟨paired, inside, -⟩
    obtain ⟨date, member⟩ := mem_pairEventRows.mp paired
    have today := (mem_eventsOn.mp (mem_orderedEvents.mp (mem_dayPairs member).1)).2
    exact mem_pairEventRows.mpr ⟨date, (order (today ▸ inside)).symm ▸ member⟩

end Pruning

section Requests
variable {zone : Zone} {clock : Clock} {db : Db} {employmentId start : Int} {finish : Option Int}
  {payload : Admin.EmploymentUpdateIn} {employment : Employment}

/-- A body that goes through once the deletions are confirmed. -/
def OtherwiseValid (zone : Zone) (db : Db) (employmentId : Int) (payload : Admin.EmploymentUpdateIn) : Prop :=
  ∃ next, Admin.updateEmployment zone db employmentId { payload with confirmDeleteOutOfRange := true } = .ok next

/-- A period that a body asks for. -/
structure AsksFor (payload : Admin.EmploymentUpdateIn) (employment : Employment) (start : Int) (finish : Option Int) : Prop where
  start : Admin.requestedStart payload employment.startDate = .ok (some start)
  finish : Admin.requestedEnd payload employment.endDate = .ok finish

/-- A change that does not confirm deletions fails, and changes nothing, exactly when there is something to delete. -/
structure RefusedToDelete (zone : Zone) (clock : Clock) (db : Db) (employmentId : Int) (payload : Admin.EmploymentUpdateIn)
    (summary : RangeConflictSummary) : Prop where
  fails : (∀ next, Admin.updateEmployment zone db employmentId payload ≠ .ok next) ↔ ¬ NothingCounted summary
  raised : ¬ NothingCounted summary →
    Admin.updateEmployment zone db employmentId payload = .error (rangeConflict summary)
  unchanged : ¬ NothingCounted summary → step zone db ⟨clock, .updateEmployment employmentId payload⟩ = db

theorem hasConflicts_iff {summary : RangeConflictSummary} : summary.hasConflicts = true ↔ ¬ NothingCounted summary := by
  rw [← not_iff_not, not_not, Bool.not_eq_true]
  simp only [RangeConflictSummary.hasConflicts, Bool.or_eq_false_iff, ne_eq, decide_not, Bool.not_eq_false',
    decide_eq_true_eq]
  constructor
  · rintro ⟨⟨⟨⟨⟨attendance, plans⟩, locks⟩, planLocks⟩, selections⟩, reminders⟩
    exact ⟨attendance, plans, locks, planLocks, selections, reminders⟩
  · rintro ⟨attendance, plans, locks, planLocks, selections, reminders⟩
    exact ⟨⟨⟨⟨⟨attendance, plans⟩, locks⟩, planLocks⟩, selections⟩, reminders⟩

/-- Without a confirmation the request differs from the confirmed one in the refusal alone. -/
theorem unconfirmed_update (found : db.employments.get employmentId = some employment) (asked : AsksFor payload employment start finish)
    (unconfirmed : payload.confirmDeleteOutOfRange = false) (valid : OtherwiseValid zone db employmentId payload) :
    Admin.updateEmployment zone db employmentId payload =
      if (collectRangeConflicts db employmentId start finish).hasConflicts then
        .error (rangeConflict (collectRangeConflicts db employmentId start finish))
      else Admin.updateEmployment zone db employmentId { payload with confirmDeleteOutOfRange := true } := by
  obtain ⟨next, accepted⟩ := valid
  simp only [Admin.updateEmployment, bind_eq_ok] at accepted
  obtain ⟨_, length, _, fraction, _, minutes, afternoon, text, first, stored, again, locked, nextType, type, nextStart, startText,
    nextEnd, endText, given, present, _, period, -⟩ := accepted
  obtain rfl : employment = first := Option.some.inj (found.symm.trans (require_eq_ok.mp stored))
  obtain ⟨reread, rfl, -⟩ := employment_again found
  obtain rfl : employment = again := Option.some.inj (reread.symm.trans (lockEmploymentForTimeMutation_eq_ok.mp locked))
  obtain rfl : some start = nextStart := Except.ok.inj (asked.start.symm.trans startText)
  obtain rfl : finish = nextEnd := Except.ok.inj (asked.finish.symm.trans endText)
  obtain rfl : start = given := Option.some.inj (require_eq_ok.mp present)
  have plainText : Admin.requestedAfternoon payload = .ok afternoon := text
  have plainType : Admin.requestedType payload employment.employmentType = .ok nextType := type
  -- both requests get as far as the conflicts, which only the confirmed one may pass
  by_cases conflicts : (collectRangeConflicts db employment.id start finish).hasConflicts = true
  · have refused : raiseIf ((collectRangeConflicts db employment.id start finish).hasConflicts ∧ ¬ payload.confirmDeleteOutOfRange)
        (rangeConflict (collectRangeConflicts db employment.id start finish)) =
          .error (rangeConflict (collectRangeConflicts db employment.id start finish)) :=
      if_pos ⟨conflicts, Bool.eq_false_iff.mp unconfirmed⟩
    rw [if_pos conflicts]
    simp only [Admin.updateEmployment, length, fraction, minutes, plainText, stored, locked, plainType, asked.start,
      asked.finish, present, period, ok_bind, refused]
    rfl
  · have passed (confirm : Prop) [Decidable confirm] : raiseIf ((collectRangeConflicts db employment.id start finish).hasConflicts ∧ ¬ confirm)
        (rangeConflict (collectRangeConflicts db employment.id start finish)) = .ok () :=
      raiseIf_eq_ok.mpr fun both => conflicts both.1
    rw [if_neg conflicts]
    simp only [Admin.updateEmployment, length, fraction, minutes, text, plainText, stored, locked, type, plainType, startText,
      endText, asked.start, asked.finish, present, period, ok_bind, passed]
    rfl

/-- The counts before a change of period are what it deletes, and it asks before it deletes. -/
theorem period_change_counted (db : Db) (employmentId start : Int) (finish : Option Int) :
    CountsDeleted (collectRangeConflicts db employmentId start finish) db (deleteOutOfRangeRecords db employmentId start finish) ∧
      NothingCounted (collectRangeConflicts (deleteOutOfRangeRecords db employmentId start finish) employmentId start finish) ∧
      InsideKept db (deleteOutOfRangeRecords db employmentId start finish) employmentId start finish ∧
      (∀ pair, pair ∈ pairEventRows ((deleteOutOfRangeRecords db employmentId start finish).eventsOf employmentId) ↔
        pair ∈ pairEventRows (db.eventsOf employmentId) ∧ ¬ isDateOutOfRange pair.1.occurredAt.date start finish ∧
          ¬ isDateOutOfRange pair.2.occurredAt.date start finish) ∧
      ∀ zone clock payload employment, db.employments.get employmentId = some employment →
        AsksFor payload employment start finish → payload.confirmDeleteOutOfRange = false →
        OtherwiseValid zone db employmentId payload →
        RefusedToDelete zone clock db employmentId payload (collectRangeConflicts db employmentId start finish) := by
  refine ⟨prune_counts, pruned_counts_nothing, prune_keeps, fun _ => prune_pairs, ?_⟩
  intro zone clock payload employment found asked unconfirmed valid
  have outcome := unconfirmed_update found asked unconfirmed valid
  have raised (counted : ¬ NothingCounted (collectRangeConflicts db employmentId start finish)) :
      Admin.updateEmployment zone db employmentId payload =
        .error (rangeConflict (collectRangeConflicts db employmentId start finish)) := by
    rw [outcome, if_pos (hasConflicts_iff.mpr counted)]
  refine ⟨⟨?_, ?_⟩, raised, ?_⟩
  · intro fails nothing
    obtain ⟨next, accepted⟩ := valid
    rw [outcome, if_neg (fun conflicts => hasConflicts_iff.mp conflicts nothing)] at fails
    exact fails next accepted
  · intro counted next accepted
    rw [raised counted] at accepted
    cases accepted
  · intro counted
    simp only [step, Request.handle, raised counted]

/-- An employment with a day of work in August is to start in September. -/
def laterStart : Admin.EmploymentUpdateIn := { startDate := some "2026-09-01" }

theorem sample_period_change_counted : ¬ NothingCounted (collectRangeConflicts sampleWorkDb 1 (ordinal 2026 9 1) none) ∧
    RefusedToDelete sampleZone sampleClock sampleWorkDb 1 laterStart
      (collectRangeConflicts sampleWorkDb 1 (ordinal 2026 9 1) none) := by
  have counted : (collectRangeConflicts sampleWorkDb 1 (ordinal 2026 9 1) none).attendanceCount = 2 := by decide +kernel
  have valid : OtherwiseValid sampleZone sampleWorkDb 1 laterStart := by
    have accepted : (Admin.updateEmployment sampleZone sampleWorkDb 1
        { laterStart with confirmDeleteOutOfRange := true }).toOption.isSome = true := by decide +kernel
    unfold OtherwiseValid
    revert accepted
    cases Admin.updateEmployment sampleZone sampleWorkDb 1 { laterStart with confirmDeleteOutOfRange := true } with
    | error raised => exact nofun
    | ok next => exact fun _ => ⟨next, rfl⟩
  refine ⟨fun nothing => by simp [nothing.attendance] at counted, ?_⟩
  exact (period_change_counted sampleWorkDb 1 (ordinal 2026 9 1) none).2.2.2.2 sampleZone sampleClock laterStart sampleEmployment
    (by decide) ⟨by decide +kernel, rfl⟩ rfl valid

end Requests

end Dagmar.Proofs
