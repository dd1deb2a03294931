import Dagmar.Proofs.DayEffects

/-! What the requests about employments, locks and month selections do: new rows
are for months that the employment overlaps, and a changed period keeps only the
facts and month rows that still fit it. -/

namespace Dagmar.Proofs
open Library Library.Calendar Library.Outcome

section Months

/-- The employment is stored and overlaps the month. -/
def MonthFits (db : Db) (employmentId year : Int) (month : Nat) : Prop :=
  ∃ employment, db.employments.get employmentId = some employment ∧
    employmentOverlapsMonth employment (firstDay year month) (firstDay year (month + 1))

/-- A month of the calendar that begins in 1917 or later. -/
def Modern (year : Int) (month : Nat) : Prop := ordinal 1917 1 1 ≤ firstDay year month ∧ 1 ≤ month ∧ month ≤ 12

/-- Locks and selections changed, for months that fit their employment, and nothing else. -/
structure MonthsFlush (db flushed : Db) : Prop where
  frame : flushed = { db with
    attendanceLocks := flushed.attendanceLocks, shiftPlanLocks := flushed.shiftPlanLocks
    monthInstances := flushed.monthInstances, autoLockRuns := flushed.autoLockRuns }
  locks : ∀ lockType, ∀ row ∈ flushed.locks lockType, row ∈ db.locks lockType ∨
    MonthFits db row.employmentId row.year row.month ∧ Modern row.year row.month
  selections : ∀ row ∈ flushed.monthInstances, row ∈ db.monthInstances ∨ MonthFits db row.employmentId row.year row.month

theorem modern_of_year {year : Int} {month : Nat} (late : 1917 ≤ year) (valid : 1 ≤ month ∧ month ≤ 12) :
    Modern year month := by
  have years := daysBeforeYear_mono late
  have months := daysBeforeMonth_mono year valid.1
  refine ⟨?_, valid⟩
  have first : daysBeforeMonth year 1 = 0 := rfl
  have base : ordinal 1917 1 1 = daysBeforeYear 1917 + 1 := by decide
  simp only [firstDay, base]
  simp only [ordinal]
  omega

@[simp] theorem locks_withLocks (db : Db) (first second : LockType) (rows : Table MonthLock MonthLock.key) :
    (db.withLocks first rows).locks second = if first = second then rows else db.locks second := by
  cases first <;> cases second <;> rfl

theorem withLocks_frame (db : Db) (lockType : LockType) (rows : Table MonthLock MonthLock.key) :
    db.withLocks lockType rows = { db with
      attendanceLocks := (db.withLocks lockType rows).attendanceLocks
      shiftPlanLocks := (db.withLocks lockType rows).shiftPlanLocks } := by
  cases lockType <;> rfl

theorem mem_putLocks {employmentRows : List (Int × Option String)} {month : Int × Nat} {lockedBy : Option String}
    {rows : Table MonthLock MonthLock.key} {lock : MonthLock}
    (member : lock ∈ employmentRows.foldl (fun rows row => rows.put ⟨row.1, month.1, month.2, row.2, lockedBy⟩) rows) :
    lock ∈ rows ∨ lock.employmentId ∈ employmentRows.map Prod.fst ∧ (lock.year, lock.month) = month := by
  induction employmentRows generalizing rows with
  | nil => exact .inl member
  | cons row employmentRows ih =>
    rcases ih member with put | later
    · rcases Table.mem_put.mp put with rfl | kept
      · exact .inr ⟨by simp, rfl⟩
      · exact .inl kept.1
    · exact .inr ⟨List.mem_cons_of_mem _ later.1, later.2⟩

/-- The employments that are locked afterwards are those that were and those of the rows. -/
theorem get_putLocks {employmentRows : List (Int × Option String)} {month : Int × Nat} {lockedBy : Option String}
    {rows : Table MonthLock MonthLock.key} {key : Int × Int × Nat} :
    (employmentRows.foldl (fun rows row => rows.put ⟨row.1, month.1, month.2, row.2, lockedBy⟩) rows).get key ≠ none ↔
      rows.get key ≠ none ∨ key.1 ∈ employmentRows.map Prod.fst ∧ key.2 = month := by
  induction employmentRows generalizing rows with
  | nil => simp
  | cons row employmentRows ih =>
    rw [List.foldl_cons, ih, Table.get_put, List.map_cons, List.mem_cons]
    split
    next same =>
      have mine : key.1 = row.1 ∧ key.2 = month := same ▸ ⟨rfl, rfl⟩
      exact iff_of_true (.inl (Option.some_ne_none _)) (.inr ⟨.inl mine.1, mine.2⟩)
    next different =>
      have other : ¬ (key.1 = row.1 ∧ key.2 = month) := by
        rintro ⟨first, second⟩
        exact different (Prod.ext first.symm second.symm)
      tauto

theorem mem_putLocks_other {employmentRows : List (Int × Option String)} {month : Int × Nat} {lockedBy : Option String}
    {rows : Table MonthLock MonthLock.key} {lock : MonthLock} (other : (lock.year, lock.month) ≠ month) :
    lock ∈ employmentRows.foldl (fun rows row => rows.put ⟨row.1, month.1, month.2, row.2, lockedBy⟩) rows ↔ lock ∈ rows := by
  induction employmentRows generalizing rows with
  | nil => exact Iff.rfl
  | cons row employmentRows ih =>
    rw [List.foldl_cons, ih]
    refine Table.mem_put_of_ne rfl fun same => other ?_
    exact congrArg Prod.snd same

/-- One month of a lock request writes locks for its own rows only. -/
theorem setMonthLockStateBulk_spec (db : Db) (lockType : LockType) (employmentRows : List (Int × Option String))
    (month : Int × Nat) (locked : Bool) (lockedBy : Option String) :
    let updated := setMonthLockStateBulk db lockType employmentRows month locked lockedBy
    updated = { db with attendanceLocks := updated.attendanceLocks, shiftPlanLocks := updated.shiftPlanLocks } ∧
      ∀ other, ∀ lock ∈ updated.locks other, lock ∈ db.locks other ∨
        lock.employmentId ∈ employmentRows.map Prod.fst ∧ (lock.year, lock.month) = month := by
  unfold setMonthLockStateBulk
  split
  · refine ⟨withLocks_frame _ _ _, ?_⟩
    intro other lock member
    rw [locks_withLocks] at member
    split at member
    next same => exact same ▸ mem_putLocks member
    · exact .inl member
  · refine ⟨withLocks_frame _ _ _, ?_⟩
    intro other lock member
    rw [locks_withLocks] at member
    split at member
    next same => exact .inl (same ▸ (Table.mem_deleteWhere.mp member).1)
    · exact .inl member

theorem setLocks_spec (db : Db) (lockType : LockType) (locked : Bool) (lockedBy : Option String)
    (targets : List ((Int × Nat) × List (Int × Option String))) :
    let updated := targets.foldl (fun db target =>
      setMonthLockStateBulk db lockType target.2 target.1 locked lockedBy) db
    updated = { db with attendanceLocks := updated.attendanceLocks, shiftPlanLocks := updated.shiftPlanLocks } ∧
      ∀ other, ∀ lock ∈ updated.locks other, lock ∈ db.locks other ∨
        ∃ target ∈ targets, lock.employmentId ∈ target.2.map Prod.fst ∧ (lock.year, lock.month) = target.1 := by
  induction targets generalizing db with
  | nil => exact ⟨rfl, fun _ _ member => .inl member⟩
  | cons target targets ih =>
    obtain ⟨frame, first⟩ := setMonthLockStateBulk_spec db lockType target.2 target.1 locked lockedBy
    obtain ⟨frame', later⟩ := ih (setMonthLockStateBulk db lockType target.2 target.1 locked lockedBy)
    refine ⟨?_, ?_⟩
    · rw [List.foldl_cons, frame', frame]
    · intro other lock member
      rcases later other lock member with kept | ⟨chosen, listed, fits⟩
      · rcases first other lock kept with old | new
        · exact .inl old
        · exact .inr ⟨target, List.mem_cons_self, new⟩
      · exact .inr ⟨chosen, List.mem_cons_of_mem _ listed, fits⟩

variable {zone : Zone} {clock : Clock} {db next : Db}

theorem monthsFlush_of_locks {updated : Db}
    (frame : updated = { db with attendanceLocks := updated.attendanceLocks, shiftPlanLocks := updated.shiftPlanLocks })
    (written : ∀ other, ∀ lock ∈ updated.locks other, lock ∈ db.locks other ∨
      MonthFits db lock.employmentId lock.year lock.month ∧ Modern lock.year lock.month)
    (runs : Table ShiftPlanAutoLockRun ShiftPlanAutoLockRun.key) : MonthsFlush db { updated with autoLockRuns := runs } := by
  refine ⟨?_, ?_, ?_⟩
  · rw [frame]
  · intro lockType lock member
    apply written lockType lock
    cases lockType <;> exact member
  · intro row member
    rw [frame] at member
    exact .inl member

/-- The request changed locks or selections and committed. -/
def MonthsCommit (zone : Zone) (db next : Db) : Prop := ∃ flushed, MonthsFlush db flushed ∧ commit zone flushed = next

theorem normalizeMonths_lockable {body : Admin.AdminLockSetIn} {months : List (Int × Nat)}
    (listed : ¬ ∃ month ∈ body.months, ¬ Admin.lockableMonth month) (years : ¬ ∃ year ∈ body.year, year < 2000 ∨ 2100 < year)
    (numbers : ¬ ∃ month ∈ body.month, month < 1 ∨ 12 < month) (done : Admin.normalizeMonths body = .ok months) :
    ∀ month ∈ months, Admin.lockableMonth month := by
  simp only [Admin.normalizeMonths, bind_eq_ok, raiseIf_eq_ok, pure_eq_ok] at done
  obtain ⟨_, -, _, -, rfl⟩ := done
  intro month member
  rcases List.mem_append.mp (List.mem_dedup.mp member) with inside | single
  · by_contra outside
    exact listed ⟨month, inside, outside⟩
  · obtain ⟨year, named, single⟩ := Option.bind_eq_some_iff.mp (Option.mem_toList.mp single)
    obtain ⟨number, numbered, rfl⟩ := Option.map_eq_some_iff.mp single
    have year' : ¬ (year < 2000 ∨ 2100 < year) := fun outside => years ⟨year, named, outside⟩
    have number' : ¬ (number < 1 ∨ 12 < number) := fun outside => numbers ⟨number, numbered, outside⟩
    simp only [Admin.lockableMonth]
    omega

theorem setLocks_commit {username : Option String} {body : Admin.AdminLockSetIn} {count : Nat}
    (done : Admin.setLocks zone db username body = .ok (next, count)) : MonthsCommit zone db next := by
  simp only [Admin.setLocks, bind_eq_ok, raiseIf_eq_ok, require_eq_ok, pure_eq_ok, Prod.mk.injEq] at done
  obtain ⟨_, listed, _, years, _, numbers, months, normalized, _, -, _, -, targets, chosen, _, -, rfl, -⟩ := done
  have lockable := normalizeMonths_lockable listed years numbers normalized
  obtain ⟨frame, written⟩ := setLocks_spec db body.lockType body.locked username
    (targets.filter fun target => target.2 ≠ [])
  refine ⟨_, monthsFlush_of_locks frame ?_ _, rfl⟩
  intro lockType row member
  rcases written lockType row member with old | ⟨target, kept, owner, sameMonth⟩
  · exact .inl old
  · right
    obtain ⟨month, inside, found⟩ := mem_of_mapM chosen (List.mem_of_mem_filter kept)
    obtain ⟨rows, built, rfl⟩ := Option.map_eq_some_iff.mp found
    simp only [Admin.monthTargets, Option.bind_eq_bind, Option.bind_eq_some_iff, Option.pure_def,
      Option.some.injEq] at built
    obtain ⟨⟨start, finish⟩, range, rfl⟩ := built
    obtain ⟨-, rfl, rfl⟩ := monthRange_eq_some.mp range
    simp only [List.map_map, List.mem_map, List.mem_filter, decide_eq_true_eq, List.mem_filterMap] at owner
    obtain ⟨employment, ⟨⟨id, -, stored⟩, overlaps⟩, same⟩ := owner
    obtain ⟨again, -, -⟩ := employment_again stored
    have valid := lockable month inside
    simp only [Function.comp_apply] at same
    have year : row.year = month.1 := congrArg Prod.fst sameMonth
    have number : row.month = month.2 := congrArg Prod.snd sameMonth
    rw [year, number]
    exact ⟨⟨employment, same ▸ again, overlaps⟩,
      modern_of_year (le_trans (by decide) valid.1) ⟨valid.2.2.1, valid.2.2.2⟩⟩

theorem modern_yearMonth {date : Int} (late : ordinal 1917 1 1 ≤ date) : Modern (yearMonth date).1 (yearMonth date).2 := by
  refine modern_of_year ?_ (monthOf_bounds date)
  have bounds := yearOf_bounds date
  have base : ordinal 1917 1 1 = daysBeforeYear 1917 + 1 := by decide
  simp only [yearMonth]
  by_contra early
  have := daysBeforeYear_mono (show yearOf date + 1 ≤ 1917 by omega)
  omega

theorem autoLock_commit {count : Nat} (done : autoLockCurrentShiftPlanMonth zone clock db = .ok (next, count)) :
    db = next ∨ MonthsCommit zone db next := by
  unfold autoLockCurrentShiftPlanMonth autoLockShiftPlanMonthAt autoLockMonth at done
  dsimp only at done
  split at done
  · simp only [pure_eq_ok, Prod.mk.injEq] at done
    exact .inl done.1
  · right
    simp only [bind_eq_ok, require_eq_ok, pure_eq_ok, Prod.mk.injEq] at done
    obtain ⟨⟨start, finish⟩, range, rfl, -⟩ := done
    obtain ⟨-, rfl, rfl⟩ := monthRange_eq_some.mp range
    have modern := modern_yearMonth (today_after_1917 zone clock)
    split
    · exact ⟨_, monthsFlush_of_locks rfl (fun _ _ member => .inl member) _, rfl⟩
    · obtain ⟨frame, written⟩ := setMonthLockStateBulk_spec db .shiftPlan _ (yearMonth (pragueToday zone clock)) true
        (some autoLockedBy)
      refine ⟨_, monthsFlush_of_locks frame ?_ _, rfl⟩
      intro lockType lock member
      rcases written lockType lock member with old | ⟨owner, sameMonth⟩
      · exact .inl old
      · right
        simp only [List.map_map, List.mem_map, List.mem_filter, decide_eq_true_eq] at owner
        obtain ⟨employment, ⟨stored, -, overlaps⟩, same⟩ := owner
        have year : lock.year = (yearMonth (pragueToday zone clock)).1 := congrArg Prod.fst sameMonth
        have number : lock.month = (yearMonth (pragueToday zone clock)).2 := congrArg Prod.snd sameMonth
        rw [year, number]
        exact ⟨⟨employment, Table.get_eq_some_iff.mpr ⟨stored, same⟩, overlaps⟩, modern⟩

theorem selection_commit {body : Admin.ShiftPlanSelectionIn} (done : Admin.setShiftPlanSelection zone db body = .ok next) :
    MonthsCommit zone db next := by
  simp only [Admin.setShiftPlanSelection, bind_eq_ok, raiseIf_eq_ok, require_eq_ok, pure_eq_ok, forM_eq_ok, not_not] at done
  obtain ⟨_, -, ⟨start, finish⟩, range, _, checked, rows, inserted, rfl⟩ := done
  obtain ⟨-, rfl, rfl⟩ := monthRange_eq_some.mp range
  refine ⟨_, ⟨rfl, ?_, ?_⟩, rfl⟩
  · intro lockType row member
    left
    cases lockType <;> exact member
  · intro row member
    rcases (Table.mem_insertAll inserted row).mp member with kept | added
    · exact .inl (Table.mem_deleteWhere.mp kept).1
    · right
      obtain ⟨id, listed, rfl⟩ := List.mem_map.mp added
      obtain ⟨employment, stored, -, overlaps⟩ := checked id (List.mem_dedup.mp listed)
      exact ⟨employment, stored, overlaps⟩

end Months

section Employments
variable {zone : Zone} {db next : Db}

/-- A new employment is stored under a number that no employment has. -/
def HireCommit (zone : Zone) (db next : Db) : Prop :=
  ∃ employment employments nextId, db.employments.get employment.id = none ∧
    db.employments.insertAll [employment] = some employments ∧
    commit zone { db with employments := employments, nextEmploymentId := nextId } = next

theorem createEmployment_commit {userId : Int} {payload : Admin.EmploymentCreateIn} {employment : Employment}
    (done : Admin.createEmployment zone db userId payload = .ok (next, employment)) : HireCommit zone db next := by
  simp only [Admin.createEmployment, bind_eq_ok, require_eq_ok, pure_eq_ok, Prod.mk.injEq] at done
  obtain ⟨⟨employmentType, profile⟩, -, user, -, _, -, finish, -, start, -, _, -, employments, inserted, rfl, -⟩ := done
  refine ⟨_, employments, _, ?_, inserted, rfl⟩
  rw [Table.get_eq_none_iff]
  intro row member same
  unfold Table.insertAll at inserted
  split at inserted
  next unique =>
    rw [List.map_append, List.nodup_append] at unique
    exact unique.2.2 _ (List.mem_map_of_mem member) _ (by simp) same
  · cases inserted

/-- The facts and month rows of a revised employment, and its row, after the flush. -/
structure Revision (db flushed : Db) (employment updated : Employment) : Prop where
  stored : db.employments.get employment.id = some employment
  sameId : updated.id = employment.id
  frame : flushed = { db with
    employments := db.employments.put updated, attendance := flushed.attendance, events := flushed.events
    shiftPlans := flushed.shiftPlans, attendanceLocks := flushed.attendanceLocks
    shiftPlanLocks := flushed.shiftPlanLocks, monthInstances := flushed.monthInstances, reminders := flushed.reminders }
  events : ∀ event ∈ flushed.events, event ∈ db.events ∧
    (event.employmentId = employment.id → employmentIsValidOnDay updated event.occurredAt.date)
  attendance : ∀ row ∈ flushed.attendance, row ∈ db.attendance ∧
    (row.employmentId = employment.id → employmentIsValidOnDay updated row.date)
  plans : ∀ plan ∈ flushed.shiftPlans, plan ∈ db.shiftPlans ∧
    (plan.employmentId = employment.id → employmentIsValidOnDay updated plan.date)
  locks : ∀ lockType, ∀ row ∈ flushed.locks lockType, row ∈ db.locks lockType ∧ (row.employmentId = employment.id →
    employmentOverlapsMonth updated (firstDay row.year row.month) (firstDay row.year (row.month + 1)))
  selections : ∀ row ∈ flushed.monthInstances, row ∈ db.monthInstances ∧ (row.employmentId = employment.id →
    employmentOverlapsMonth updated (firstDay row.year row.month) (firstDay row.year (row.month + 1)))
  keptEvents : ∀ event ∈ db.events, event ∉ flushed.events → event.employmentId = employment.id ∧
    ∃ other ∈ db.events, other.employmentId = employment.id ∧ ¬ employmentIsValidOnDay updated other.occurredAt.date
  keptAttendance : ∀ row ∈ db.attendance, row ∉ flushed.attendance → row.employmentId = employment.id ∧
    ¬ employmentIsValidOnDay updated row.date
  keptPlans : ∀ plan ∈ db.shiftPlans, plan ∉ flushed.shiftPlans → plan.employmentId = employment.id ∧
    ¬ employmentIsValidOnDay updated plan.date

theorem isDateOutOfRange_iff {employment : Employment} {date : Int} :
    isDateOutOfRange date employment.startDate employment.endDate ↔ ¬ employmentIsValidOnDay employment date := by
  simp only [isDateOutOfRange, employmentIsValidOnDay, not_and_or, not_le, not_forall, exists_prop]

theorem monthRecordOutOfRange_iff {employment : Employment} {year : Int} {month : Nat} :
    monthRecordOutOfRange year month employment.startDate employment.endDate ↔
      ¬ employmentOverlapsMonth employment (firstDay year month) (firstDay year (month + 1)) := by
  simp only [monthRecordOutOfRange, monthBounds, employmentOverlapsMonth, not_and_or, not_lt, not_forall, exists_prop,
    not_le, Int.sub_one_lt_iff]

theorem mem_outOfRangeEventIds {employmentId start : Int} {finish : Option Int} {event : AttendanceEvent}
    (member : event ∈ db.events) (listed : event.id ∈ outOfRangeEventIds (db.eventsOf employmentId) start finish) :
    event.employmentId = employmentId ∧
      ∃ other ∈ db.events, other.employmentId = employmentId ∧ isDateOutOfRange other.occurredAt.date start finish := by
  have outside (id : Int) (named : id ∈ ((db.eventsOf employmentId).filter fun event =>
      isDateOutOfRange event.occurredAt.date start finish).map AttendanceEvent.id) :
      ∃ other ∈ db.events, other.employmentId = employmentId ∧ isDateOutOfRange other.occurredAt.date start finish ∧
        other.id = id := by
    obtain ⟨other, chosen, same⟩ := List.mem_map.mp named
    obtain ⟨inside, late⟩ := List.mem_filter.mp chosen
    obtain ⟨held, owner⟩ := Db.mem_eventsOf.mp inside
    exact ⟨other, held, owner, of_decide_eq_true late, same⟩
  rcases List.mem_append.mp listed with single | paired
  · obtain ⟨other, held, owner, late, same⟩ := outside event.id single
    obtain rfl : other = event := db.events.key_inj held member same
    exact ⟨owner, other, held, owner, late⟩
  · obtain ⟨pair, inside, ends⟩ := List.mem_flatMap.mp paired
    obtain ⟨first, second, -, -⟩ := pair_sameDay inside
    rw [Db.mem_eventsOf] at first second
    split at ends
    next late =>
      have witness : ∃ other ∈ db.events, other.employmentId = employmentId ∧
          isDateOutOfRange other.occurredAt.date start finish := by
        rcases late with late | late
        · obtain ⟨other, held, owner, late, -⟩ := outside _ late
          exact ⟨other, held, owner, late⟩
        · obtain ⟨other, held, owner, late, -⟩ := outside _ late
          exact ⟨other, held, owner, late⟩
      simp only [List.mem_cons, List.not_mem_nil, or_false] at ends
      rcases ends with same | same
      · exact ⟨db.events.key_inj member first.1 same ▸ first.2, witness⟩
      · exact ⟨db.events.key_inj member second.1 same ▸ second.2, witness⟩
    · cases ends

theorem outOfRange_listed {employmentId start : Int} {finish : Option Int} {event : AttendanceEvent}
    (member : event ∈ db.events) (owner : event.employmentId = employmentId)
    (outside : isDateOutOfRange event.occurredAt.date start finish) :
    event.id ∈ outOfRangeEventIds (db.eventsOf employmentId) start finish := by
  apply List.mem_append_left
  apply List.mem_map_of_mem
  exact List.mem_filter.mpr ⟨Db.mem_eventsOf.mpr ⟨member, owner⟩, decide_eq_true outside⟩

/-- Without conflicts there is nothing for the pruning to delete. -/
theorem prune_clean {employmentId start : Int} {finish : Option Int}
    (clean : (collectRangeConflicts db employmentId start finish).hasConflicts = false) :
    deleteOutOfRangeRecords db employmentId start finish = db := by
  simp only [RangeConflictSummary.hasConflicts, collectRangeConflicts, Bool.or_eq_false_iff, ne_eq, decide_not,
    Bool.not_eq_false', Nat.add_eq_zero_iff, List.length_eq_zero_iff, List.filter_eq_nil_iff, decide_eq_true_eq,
    Db.mem_attendanceOf, Db.mem_eventsOf, Db.mem_plansOf, and_imp] at clean
  obtain ⟨⟨⟨⟨⟨⟨attendance, events⟩, plans⟩, attendanceLocks⟩, planLocks⟩, selections⟩, reminders⟩ := clean
  have unselected {ρ κ : Type} {key : ρ → κ} {table : Table ρ key} {p : ρ → Prop} [DecidablePred p]
      (none : table.select p = []) (row : ρ) (member : row ∈ table) : ¬ p row := by
    intro holds
    have := Table.mem_select.mpr ⟨member, holds⟩
    rw [none] at this
    cases this
  unfold deleteOutOfRangeRecords
  dsimp only
  rw [Table.deleteWhere_none, Table.deleteWhere_none, Table.deleteWhere_none, Table.deleteWhere_none,
    Table.deleteWhere_none, Table.deleteWhere_none, Table.deleteWhere_none]
  · exact unselected reminders
  · exact unselected selections
  · exact unselected planLocks
  · exact unselected attendanceLocks
  · exact fun plan member owned => plans plan member owned.1 owned.2
  · exact fun row member owned => attendance row member owned.1 owned.2
  · exact fun event member listed => events event member (mem_outOfRangeEventIds member listed).1 listed

theorem prune_revision {employment updated : Employment} (stored : db.employments.get employment.id = some employment)
    (sameId : updated.id = employment.id) :
    Revision db { deleteOutOfRangeRecords db employment.id updated.startDate updated.endDate with
      employments := db.employments.put updated } employment updated where
  stored := stored
  sameId := sameId
  frame := rfl
  events event member := by
    obtain ⟨held, kept⟩ := Table.mem_deleteWhere.mp member
    refine ⟨held, fun owner => ?_⟩
    by_contra outside
    exact kept (outOfRange_listed held owner (isDateOutOfRange_iff.mpr outside))
  attendance row member := by
    obtain ⟨held, kept⟩ := Table.mem_deleteWhere.mp member
    refine ⟨held, fun owner => ?_⟩
    by_contra outside
    exact kept ⟨owner, isDateOutOfRange_iff.mpr outside⟩
  plans plan member := by
    obtain ⟨held, kept⟩ := Table.mem_deleteWhere.mp member
    refine ⟨held, fun owner => ?_⟩
    by_contra outside
    exact kept ⟨owner, plan.date, by simp [shiftPlanDays], isDateOutOfRange_iff.mpr outside⟩
  locks lockType row member := by
    cases lockType with
    | attendance =>
      obtain ⟨held, kept⟩ := Table.mem_deleteWhere.mp member
      refine ⟨held, fun owner => ?_⟩
      by_contra outside
      exact kept ⟨owner, monthRecordOutOfRange_iff.mpr outside⟩
    | shiftPlan =>
      obtain ⟨held, kept⟩ := Table.mem_deleteWhere.mp member
      refine ⟨held, fun owner => ?_⟩
      by_contra outside
      exact kept ⟨owner, monthRecordOutOfRange_iff.mpr outside⟩
  selections row member := by
    obtain ⟨held, kept⟩ := Table.mem_deleteWhere.mp member
    refine ⟨held, fun owner => ?_⟩
    by_contra outside
    exact kept ⟨owner, monthRecordOutOfRange_iff.mpr outside⟩
  keptEvents event member missing := by
    have listed := not_not.mp fun unlisted => missing (Table.mem_deleteWhere.mpr ⟨member, unlisted⟩)
    obtain ⟨owner, other, held, owned, outside⟩ := mem_outOfRangeEventIds member listed
    exact ⟨owner, other, held, owned, isDateOutOfRange_iff.mp outside⟩
  keptAttendance row member missing := by
    obtain ⟨owner, outside⟩ := not_not.mp fun kept => missing (Table.mem_deleteWhere.mpr ⟨member, kept⟩)
    exact ⟨owner, isDateOutOfRange_iff.mp outside⟩
  keptPlans plan member missing := by
    obtain ⟨owner, date, named, outside⟩ := not_not.mp fun kept => missing (Table.mem_deleteWhere.mpr ⟨member, kept⟩)
    obtain rfl : date = plan.date := by simpa [shiftPlanDays] using named
    exact ⟨owner, isDateOutOfRange_iff.mp outside⟩

/-- The metrics read the same columns of both. -/
structure SameMetricColumns (before after : Employment) : Prop where
  employmentType : after.employmentType = before.employmentType
  profile : Admin.metricProfileChanged before.profile after.profile = false
  startDate : after.startDate = before.startDate
  endDate : after.endDate = before.endDate

/-- An employment was revised, its metrics written again unless nothing that they read has changed. -/
def ReviseCommit (zone : Zone) (db next : Db) : Prop :=
  ∃ employment updated flushed, Revision db flushed employment updated ∧
    ((∃ synced, syncEmploymentMetrics flushed updated = .ok synced ∧ commit zone synced = next) ∨
      SameMetricColumns employment updated ∧ commit zone flushed = next)

theorem updateEmployment_commit {employmentId : Int} {payload : Admin.EmploymentUpdateIn}
    (done : Admin.updateEmployment zone db employmentId payload = .ok next) : ReviseCommit zone db next := by
  simp only [Admin.updateEmployment, bind_eq_ok, raiseIf_eq_ok, require_eq_ok, lockEmploymentForTimeMutation_eq_ok] at done
  obtain ⟨_, -, _, -, _, -, afternoon, -, first, found, employment, stored, nextType, -, _, -, nextEnd, -, nextStart, -, _, -,
    _, -, _, -, done⟩ := done
  let updated : Employment :=
    { employment with
      employmentType := nextType, startDate := nextStart, endDate := nextEnd
      profile := normalizeProfileForType nextType (Admin.requestedProfile payload employment.profile afternoon)
        (nextType ≠ employment.employmentType) }
  obtain rfl : first = employment := Option.some.inj ((employment_again found).1.symm.trans stored)
  have pruned : (if (collectRangeConflicts db first.id nextStart nextEnd).hasConflicts then
      deleteOutOfRangeRecords db first.id nextStart nextEnd else db) = deleteOutOfRangeRecords db first.id nextStart nextEnd := by
    split
    · rfl
    next clean => exact (prune_clean (Bool.not_eq_true _ ▸ clean)).symm
  rw [pruned] at done
  refine ⟨first, updated, _, prune_revision stored rfl, ?_⟩
  split at done
  · simp only [bind_eq_ok, pure_eq_ok] at done
    exact .inl done
  next same =>
    rw [pure_eq_ok] at done
    simp only [not_or, not_not, Bool.not_eq_true] at same
    exact .inr ⟨⟨same.1, same.2.1, same.2.2.1, same.2.2.2⟩, done⟩

end Employments

end Dagmar.Proofs
