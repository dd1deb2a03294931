import Dagmar.Proofs.Transitions

/-! A full-day status that is sent twice. The rows that the first request writes are
conflicts to the second one, and a status that is cleared leaves nothing to say which
month locks the next request has to ask for. -/

namespace Dagmar.Proofs
open Library Library.Calendar Library.Outcome

section Rows

structure SameFactRows (first second : Db) : Prop where
  events : ∀ event, event ∈ first.events ↔ event ∈ second.events
  attendance : ∀ row, row ∈ first.attendance ↔ row ∈ second.attendance
  shiftPlans : ∀ plan, plan ∈ first.shiftPlans ↔ plan ∈ second.shiftPlans

structure SameRows (first second : Db) : Prop extends SameFactRows first second where
  metrics : ∀ row, row ∈ first.metrics ↔ row ∈ second.metrics

theorem SameFactRows.monthRows {first second : Db} (same : SameFactRows first second) (employment : Employment)
    (month : Int × Nat) : monthRows first employment month = monthRows second employment month :=
  monthRows_congr fun _ _ =>
    ⟨fun event _ _ => same.events event, fun row _ => same.attendance row, fun plan _ => same.shiftPlans plan⟩

variable {zone : Zone} {flushed synced again : Db} {employment : Employment} {months later : List (Int × Nat)}

/-- A sync writes the rows once more that are there from an earlier sync of the same facts. -/
theorem sync_again (rested : Rested zone flushed) (done : syncEmploymentMetricMonths flushed employment months = .ok synced)
    (same : SameFactRows again flushed) (metrics : again.metrics = synced.metrics) (fewer : ∀ month ∈ later, month ∈ months) :
    ∃ last, syncEmploymentMetricMonths again employment later = .ok last ∧ SameRows (commit zone last) synced := by
  obtain ⟨valid, frame, written⟩ := syncMonths_ok done
  obtain ⟨last, rewritten⟩ := syncMonths_total again employment fun month member => valid month (fewer month member)
  obtain ⟨-, frame', written'⟩ := syncMonths_ok rewritten
  have still : Rested zone last := by
    rw [frame']
    exact fun event member => rested event ((same.events event).mp member)
  refine ⟨last, rewritten, ?_⟩
  rw [commit_of_rested still]
  refine ⟨⟨?_, ?_, ?_⟩, fun row => ?_⟩
  · rw [frame', frame]
    exact same.events
  · rw [frame', frame]
    exact same.attendance
  · rw [frame', frame]
    exact same.shiftPlans
  · rw [written' row, metrics]
    split
    next synced' =>
      rw [written row, if_pos ⟨synced'.1, fewer _ synced'.2⟩, same.monthRows]
    next => exact Iff.rfl

end Rows

section Clearing
variable {zone : Zone} {db next : Db} {employmentId date : Int} {instanceId : Option String}

/-- What is left of the attendance rows when the status of a day is cleared. -/
def clearedAttendance (zone : Zone) (db : Db) (employmentId date : Int) (instanceId : Option String) :
    Table Attendance Attendance.key :=
  match getAttendanceDay db employmentId date with
  | none => db.attendance
  | some row =>
    if hasEventOnDay zone db employmentId date then db.attendance.put { row with status := none, instanceId := instanceId }
    else db.attendance.deleteWhere (·.key = row.key)

def clearedPlans (db : Db) (employmentId date : Int) (instanceId : Option String) : Table ShiftPlan ShiftPlan.key :=
  match getShiftPlanDay db employmentId date with
  | none => db.shiftPlans
  | some plan =>
    if plan.arrivalTime = none ∧ plan.departureTime = none then db.shiftPlans.deleteWhere (·.key = plan.key)
    else db.shiftPlans.put { plan with status := none, instanceId := instanceId }

theorem setAttendanceStatus_none (employment : Employment) (confirm : Bool) :
    setAttendanceStatus zone db employment date none confirm instanceId =
      .ok (dayStatusConflicts db employment.id date,
        { db with attendance := clearedAttendance zone db employment.id date instanceId }) := by
  cases found : getAttendanceDay db employment.id date with
  | none => simp [setAttendanceStatus, clearedAttendance, found, raiseIf, pure, Except.pure, bind, Except.bind]
  | some row =>
    by_cases worked : hasEventOnDay zone db employment.id date <;>
      simp [setAttendanceStatus, clearedAttendance, found, worked, raiseIf, pure, Except.pure, bind, Except.bind]

theorem setShiftPlanStatus_none (employment : Employment) (confirm : Bool) :
    setShiftPlanStatus db employment date none confirm instanceId =
      .ok (dayStatusConflicts db employment.id date,
        { db with shiftPlans := clearedPlans db employment.id date instanceId }) := by
  cases found : getShiftPlanDay db employment.id date with
  | none => simp [setShiftPlanStatus, clearedPlans, found, raiseIf, pure, Except.pure, bind, Except.bind]
  | some plan =>
    by_cases blank : plan.arrivalTime = none ∧ plan.departureTime = none <;>
      simp [setShiftPlanStatus, clearedPlans, found, blank, raiseIf, pure, Except.pure, bind, Except.bind]

/-- Putting a row that is there changes nothing. -/
theorem mem_put_of_mem {ρ κ : Type} {key : ρ → κ} [DecidableEq κ] {table : Table ρ key} {row other : ρ} (member : row ∈ table) :
    other ∈ table.put row ↔ other ∈ table := by
  rw [Table.mem_put]
  refine ⟨?_, fun inside => ?_⟩
  · rintro (rfl | ⟨inside, -⟩)
    · exact member
    · exact inside
  · by_cases same : key other = key row
    · exact .inl (table.key_inj inside member same)
    · exact .inr ⟨inside, same⟩

theorem get_clearedAttendance : (clearedAttendance zone db employmentId date instanceId).get (employmentId, date) =
    (getAttendanceDay db employmentId date).bind fun row =>
      if hasEventOnDay zone db employmentId date then some { row with status := none, instanceId := instanceId } else none := by
  cases found : getAttendanceDay db employmentId date with
  | none =>
    simp only [clearedAttendance, found]
    exact found
  | some row =>
    have key : row.key = (employmentId, date) := (Table.get_eq_some_iff.mp found).2
    simp only [clearedAttendance, found, Option.bind_some]
    split
    · exact Table.get_put_self _ key
    · rw [Table.get_deleteKey, if_pos key]

theorem get_clearedPlans : (clearedPlans db employmentId date instanceId).get (employmentId, date) =
    (getShiftPlanDay db employmentId date).bind fun plan =>
      if plan.arrivalTime = none ∧ plan.departureTime = none then none
      else some { plan with status := none, instanceId := instanceId } := by
  cases found : getShiftPlanDay db employmentId date with
  | none =>
    simp only [clearedPlans, found]
    exact found
  | some plan =>
    have key : plan.key = (employmentId, date) := (Table.get_eq_some_iff.mp found).2
    simp only [clearedPlans, found, Option.bind_some]
    split
    · rw [Table.get_deleteKey, if_pos key]
    · exact Table.get_put_self _ key

/-- Clearing again finds either no row or the one that it would write. -/
theorem clearedAttendance_again (events : ∀ event, event ∈ next.events ↔ event ∈ db.events)
    (attendance : next.attendance = clearedAttendance zone db employmentId date instanceId) (row : Attendance) :
    row ∈ clearedAttendance zone next employmentId date instanceId ↔ row ∈ next.attendance := by
  have worked : hasEventOnDay zone next employmentId date ↔ hasEventOnDay zone db employmentId date := by
    simp only [hasEventOnDay, Db.mem_eventsOf, events]
  have read : getAttendanceDay next employmentId date = _ := (congrArg (Table.get · _) attendance).trans get_clearedAttendance
  cases found : getAttendanceDay next employmentId date with
  | none => simp only [clearedAttendance, found]
  | some kept =>
    obtain ⟨old, -, written⟩ := Option.bind_eq_some_iff.mp (read.symm.trans found)
    split at written
    next some' =>
      cases written
      simp only [clearedAttendance, found, if_pos (worked.mpr some')]
      exact mem_put_of_mem (Table.get_eq_some_iff.mp found).1
    next => cases written

theorem clearedPlans_again (shiftPlans : next.shiftPlans = clearedPlans db employmentId date instanceId) (plan : ShiftPlan) :
    plan ∈ clearedPlans next employmentId date instanceId ↔ plan ∈ next.shiftPlans := by
  have read : getShiftPlanDay next employmentId date = _ := (congrArg (Table.get · _) shiftPlans).trans get_clearedPlans
  cases found : getShiftPlanDay next employmentId date with
  | none => simp only [clearedPlans, found]
  | some kept =>
    obtain ⟨old, -, written⟩ := Option.bind_eq_some_iff.mp (read.symm.trans found)
    split at written
    next => cases written
    next timed =>
      cases written
      simp only [clearedPlans, found, if_neg timed]
      exact mem_put_of_mem (Table.get_eq_some_iff.mp found).1

end Clearing

section Changes
variable {zone : Zone} {db next : Db} {employment : Employment} {date : Int} {confirm : Bool} {instanceId : Option String}
  {error : DayStatus → DayStatusConflicts → ApiError}

def clearedDay (zone : Zone) (db : Db) (employmentId date : Int) (instanceId : Option String)
    (metrics : Table EmploymentDailyTimeMetric EmploymentDailyTimeMetric.key) : Db :=
  { db with
    attendance := clearedAttendance zone db employmentId date instanceId
    shiftPlans := clearedPlans db employmentId date instanceId
    metrics := metrics }

/-- The kinds of lock that a request asks for; where nothing tells them, both. -/
def checkedLocks (db : Db) (employmentId date : Int) (status : Option DayStatus) : List LockType :=
  let lockTypes := dayStatusLockTypes status (getDayStatus db employmentId date) (dayStatusConflicts db employmentId date)
  if lockTypes = [] then [.attendance, .shiftPlan] else lockTypes

def LocksOpen (db : Db) (employmentId date : Int) (status : Option DayStatus) : Prop :=
  ∀ lockType ∈ checkedLocks db employmentId date status, ¬ isMonthLocked db lockType employmentId (yearMonth date)

theorem conflictingShiftPlanMonths_eq {employmentId : Int} {month : Int × Nat}
    (member : month ∈ conflictingShiftPlanMonths db employmentId date) : month = yearMonth date := by
  simp only [conflictingShiftPlanMonths, conflictingShiftPlans, List.mem_flatMap, Table.mem_select, shiftPlanMonths,
    Option.map_some, Option.toList_some, List.mem_singleton] at member
  obtain ⟨plan, ⟨-, -, today⟩, rfl⟩ := member
  rw [today]

theorem locksOpen_iff {employmentId : Int} {status : Option DayStatus} {done : Unit} :
    forM (checkedLocks db employmentId date status) (fun lockType => ensureMonthsUnlocked db lockType employmentId
      (lockMonths date (conflictingShiftPlanMonths db employmentId date) lockType)) = .ok done ↔
        LocksOpen db employmentId date status := by
  have months (lockType : LockType) : (∀ month ∈ lockMonths date (conflictingShiftPlanMonths db employmentId date) lockType,
      ¬ isMonthLocked db lockType employmentId month) ↔ ¬ isMonthLocked db lockType employmentId (yearMonth date) := by
    cases lockType with
    | attendance => exact List.forall_mem_singleton
    | shiftPlan =>
      refine ⟨fun unlocked => unlocked _ List.mem_cons_self, fun unlocked month member => ?_⟩
      rcases List.mem_cons.mp member with rfl | conflict
      · exact unlocked
      · rwa [conflictingShiftPlanMonths_eq conflict]
  simp only [forM_eq_ok, ensureMonthsUnlocked_eq_ok, months, LocksOpen]

theorem replaceDayStatus_none : replaceDayStatus zone db employment date none confirm instanceId =
    .ok (dayStatusConflicts db employment.id date, clearedDay zone db employment.id date instanceId db.metrics) := by
  simp only [replaceDayStatus, setAttendanceStatus_none, setShiftPlanStatus_none]
  rfl

/-- A status that is cleared leaves the events as they are. -/
theorem changeDayStatus_none_ok :
    changeDayStatus zone db employment date none confirm instanceId error = .ok next ↔
      date ≠ ordinal 9999 12 31 ∧ LocksOpen db employment.id date none ∧ ∃ synced,
        syncEmploymentMetricMonths (clearedDay zone db employment.id date instanceId db.metrics) employment
            (monthsForDays [date] ++ conflictingShiftPlanMonths db employment.id date) = .ok synced ∧
          commit zone synced = next := by
  have unchanged : changedEventDays (intervalSignatures (db.eventsOf employment.id))
      (intervalSignatures ((clearedDay zone db employment.id date instanceId db.metrics).eventsOf employment.id)) [] = [] := by
    have same : (clearedDay zone db employment.id date instanceId db.metrics).eventsOf employment.id = db.eventsOf employment.id := rfl
    simp [changedEventDays, same]
  simp only [changeDayStatus, collectDayStatusConflicts, bind_eq_ok, raiseIf_eq_ok, pure_eq_ok, replaceDayStatus_none]
  constructor
  · rintro ⟨_, ⟨-, early, rfl⟩, _, checked, _, replaced, done⟩
    cases replaced
    simp only [unchanged, List.nil_append] at done
    refine ⟨early, locksOpen_iff.mp checked, ?_⟩
    split at done
    · simp only [bind_eq_ok, pure_eq_ok] at done
      obtain ⟨-, -, done⟩ := done
      exact done
    · simpa only [bind_eq_ok, pure_eq_ok] using done
  · rintro ⟨early, unlocked, synced, written, same⟩
    refine ⟨_, ⟨(), early, rfl⟩, (), locksOpen_iff.mpr unlocked, _, rfl, ?_⟩
    simp only [unchanged, List.nil_append]
    split
    next subject =>
      have open' : ensureMonthsUnlocked (clearedDay zone db employment.id date instanceId db.metrics) .attendance employment.id
          (monthsForDays [date]) = .ok () := by
        rw [ensureMonthsUnlocked_eq_ok]
        intro month member
        obtain ⟨_, today, rfl⟩ := mem_monthsForDays.mp member
        rw [List.mem_singleton.mp today]
        refine unlocked .attendance ?_
        rwa [checkedLocks, if_neg (List.ne_nil_of_mem subject)]
      simp only [bind_eq_ok, pure_eq_ok]
      exact ⟨(), open', synced, written, same⟩
    next =>
      simp only [bind_eq_ok, pure_eq_ok]
      exact ⟨synced, written, same⟩

def HasPlannedTime (db : Db) (employmentId date : Int) : Prop :=
  ∃ plan ∈ getShiftPlanDay db employmentId date, ¬ (plan.arrivalTime = none ∧ plan.departureTime = none)

/-- What tells a second request which locks to ask for. -/
def StillRecorded (db : Db) (employmentId date : Int) : Prop :=
  conflictingAttendanceEvents db employmentId date ≠ [] ∨ HasPlannedTime db employmentId date

theorem conflictingShiftPlans_iff {employmentId : Int} :
    conflictingShiftPlans db employmentId date ≠ [] ↔ getShiftPlanDay db employmentId date ≠ none := by
  rw [not_iff_not, getShiftPlanDay, Table.get_eq_none_iff, List.eq_nil_iff_forall_not_mem]
  simp only [conflictingShiftPlans, Table.mem_select, ShiftPlan.key, Prod.mk.injEq, not_and, ne_eq]

variable {metrics : Table EmploymentDailyTimeMetric EmploymentDailyTimeMetric.key} {employmentId : Int}

theorem cleared_attendance_status : (getAttendanceDay (clearedDay zone db employmentId date instanceId metrics)
    employmentId date).bind Attendance.status = none := by
  rw [getAttendanceDay, clearedDay, get_clearedAttendance]
  cases getAttendanceDay db employmentId date with
  | none => rfl
  | some row =>
    rw [Option.bind_some]
    split <;> rfl

theorem cleared_status :
    getDayStatus (clearedDay zone db employmentId date instanceId metrics) employmentId date = none := by
  rw [getDayStatus, cleared_attendance_status]
  dsimp only
  rw [getShiftPlanDay, clearedDay, get_clearedPlans]
  cases getShiftPlanDay db employmentId date with
  | none => rfl
  | some plan =>
    rw [Option.bind_some]
    split <;> rfl

theorem cleared_attendanceExists : (dayStatusConflicts (clearedDay zone db employmentId date instanceId metrics)
    employmentId date).attendanceExists = true ↔ conflictingAttendanceEvents db employmentId date ≠ [] := by
  simp only [dayStatusConflicts, cleared_attendance_status, Option.isSome_none, Bool.false_or, decide_eq_true_eq]
  exact Iff.rfl

theorem cleared_shiftPlanExists : (dayStatusConflicts (clearedDay zone db employmentId date instanceId metrics)
    employmentId date).shiftPlanExists = true ↔ HasPlannedTime db employmentId date := by
  simp only [dayStatusConflicts, decide_eq_true_eq, HasPlannedTime]
  rw [conflictingShiftPlans_iff, getShiftPlanDay, clearedDay, get_clearedPlans]
  cases getShiftPlanDay db employmentId date with
  | none => simp
  | some plan =>
    by_cases blank : plan.arrivalTime = none ∧ plan.departureTime = none
    · simp [blank]
    · simpa [blank] using not_and.mp blank

/-- The locks that a request for a cleared day asks for are among those of the request that cleared it,
or they are all of them. -/
theorem cleared_locksOpen (before : LocksOpen db employmentId date none) :
    LocksOpen (clearedDay zone db employmentId date instanceId metrics) employmentId date none ↔
      StillRecorded db employmentId date ∨ ∀ lockType, ¬ isMonthLocked db lockType employmentId (yearMonth date) := by
  have locks (lockType : LockType) :
      isMonthLocked (clearedDay zone db employmentId date instanceId metrics) lockType employmentId
        (yearMonth date) ↔ isMonthLocked db lockType employmentId (yearMonth date) := by
    cases lockType <;> exact Iff.rfl
  have subject (lockType : LockType) (kept : lockType ∈ dayStatusLockTypes none (getDayStatus db employmentId date)
      (dayStatusConflicts db employmentId date)) : ¬ isMonthLocked db lockType employmentId (yearMonth date) := by
    refine before lockType ?_
    rwa [checkedLocks, if_neg (List.ne_nil_of_mem kept)]
  have worked (events : conflictingAttendanceEvents db employmentId date ≠ []) :
      ¬ isMonthLocked db .attendance employmentId (yearMonth date) :=
    subject .attendance (by simp [dayStatusLockTypes, dayStatusConflicts, events])
  have planned (times : HasPlannedTime db employmentId date) : ¬ isMonthLocked db .shiftPlan employmentId (yearMonth date) := by
    obtain ⟨plan, found, -⟩ := times
    have exists' : conflictingShiftPlans db employmentId date ≠ [] := conflictingShiftPlans_iff.mpr (by rw [found]; simp)
    exact subject .shiftPlan (by simp [dayStatusLockTypes, dayStatusConflicts, exists'])
  have attendanceExists := @cleared_attendanceExists zone db date instanceId metrics employmentId
  have shiftPlanExists := @cleared_shiftPlanExists zone db date instanceId metrics employmentId
  simp only [LocksOpen, checkedLocks, locks, cleared_status, StillRecorded, ← attendanceExists, ← shiftPlanExists]
  rw [← attendanceExists] at worked
  rw [← shiftPlanExists] at planned
  generalize dayStatusConflicts (clearedDay zone db employmentId date instanceId metrics) employmentId date = conflicts at *
  obtain ⟨attendance, shiftPlan⟩ := conflicts
  have both : (∀ lockType ∈ [LockType.attendance, .shiftPlan], ¬ isMonthLocked db lockType employmentId (yearMonth date)) ↔
      ∀ lockType, ¬ isMonthLocked db lockType employmentId (yearMonth date) :=
    ⟨fun both lockType => both lockType (by cases lockType <;> simp), fun every lockType _ => every lockType⟩
  cases attendance with
  | true =>
    cases shiftPlan with
    | true => simpa [dayStatusLockTypes] using ⟨worked rfl, planned rfl⟩
    | false => simpa [dayStatusLockTypes] using worked rfl
  | false =>
    cases shiftPlan with
    | true => simpa [dayStatusLockTypes] using planned rfl
    | false => simpa [dayStatusLockTypes] using both

/-- The rows of a clear, once its months are synced. -/
theorem clearedDay_of_sync {synced : Db} {months : List (Int × Nat)}
    (done : syncEmploymentMetricMonths (clearedDay zone db employmentId date instanceId db.metrics) employment months = .ok synced) :
    synced = clearedDay zone db employmentId date instanceId synced.metrics := by
  obtain ⟨-, frame, -⟩ := syncMonths_ok done
  exact frame

theorem clearedDay_again (first second third : Table EmploymentDailyTimeMetric EmploymentDailyTimeMetric.key) :
    SameFactRows (clearedDay zone (clearedDay zone db employmentId date instanceId first) employmentId date instanceId second)
      (clearedDay zone db employmentId date instanceId third) where
  events _ := Iff.rfl
  attendance := @clearedAttendance_again zone db _ employmentId date instanceId (fun _ => Iff.rfl) rfl
  shiftPlans := @clearedPlans_again db _ employmentId date instanceId rfl

theorem mem_clearMonths {month : Int × Nat} :
    month ∈ monthsForDays [date] ++ conflictingShiftPlanMonths db employmentId date ↔ month = yearMonth date := by
  rw [List.mem_append, mem_monthsForDays]
  refine ⟨?_, fun same => .inl ⟨date, List.mem_singleton.mpr rfl, same.symm⟩⟩
  rintro (⟨_, today, rfl⟩ | conflict)
  · rw [List.mem_singleton.mp today]
  · exact conflictingShiftPlanMonths_eq conflict

/-- A status that has been cleared is cleared again exactly when the locks allow it, and to no effect. -/
theorem changeDayStatus_again (rested : Rested zone db)
    (done : changeDayStatus zone db employment date none confirm instanceId error = .ok next) :
    (∃ again, changeDayStatus zone next employment date none false instanceId error = .ok again ∧ SameRows again next) ↔
      StillRecorded db employment.id date ∨ ∀ lockType, ¬ isMonthLocked db lockType employment.id (yearMonth date) := by
  obtain ⟨early, unlocked, synced, written, rfl⟩ := changeDayStatus_none_ok.mp done
  have cleared := clearedDay_of_sync written
  have flushed : Rested zone (clearedDay zone db employment.id date instanceId db.metrics) := rested
  have settled : commit zone synced = synced := by
    rw [cleared]
    exact commit_of_rested rested
  rw [settled]
  have locks := @cleared_locksOpen zone db date instanceId synced.metrics employment.id unlocked
  rw [← cleared] at locks
  rw [← locks]
  constructor
  · rintro ⟨again, repeated, -⟩
    exact (changeDayStatus_none_ok.mp repeated).2.1
  · intro still
    have facts : SameFactRows (clearedDay zone synced employment.id date instanceId synced.metrics)
        (clearedDay zone db employment.id date instanceId db.metrics) := by
      have again := @clearedDay_again zone db date instanceId employment.id synced.metrics synced.metrics db.metrics
      rwa [← cleared] at again
    obtain ⟨last, rewritten, same⟩ := sync_again flushed written facts rfl fun month member =>
      mem_clearMonths.mpr (mem_clearMonths.mp member)
    exact ⟨commit zone last, changeDayStatus_none_ok.mpr ⟨early, still, last, rewritten, rfl⟩, same⟩

/-- The row of a new status conflicts with the next request for the day. -/
theorem replacedDay_conflicts {status : DayStatus} (attendance : next.attendance = (replacedDay db employment date status instanceId).attendance)
    (plans : next.shiftPlans = (replacedDay db employment date status instanceId).shiftPlans) :
    (dayStatusConflicts next employment.id date).hasConflicts = true ∧
      (status.isPlan → (dayStatusConflicts next employment.id date).shiftPlanExists = true) := by
  unfold replacedDay at attendance plans
  dsimp only at attendance plans
  split at attendance
  next plan =>
    rw [if_pos plan] at plans
    have put := Table.get_put_self db.shiftPlans
      (show ShiftPlan.key ⟨employment.id, date, none, none, some status, instanceId⟩ = (employment.id, date) from rfl)
    have found : getShiftPlanDay next employment.id date = some ⟨employment.id, date, none, none, some status, instanceId⟩ := by
      rw [getShiftPlanDay, plans]
      exact put
    have exists' := conflictingShiftPlans_ne_nil found
    exact ⟨by rw [DayStatusConflicts.hasConflicts, exists', Bool.or_true], fun _ => exists'⟩
  next leave =>
    have put := Table.get_put_self db.attendance
      (show Attendance.key ⟨employment.id, date, some status, instanceId⟩ = (employment.id, date) from rfl)
    have found : getAttendanceDay next employment.id date = some ⟨employment.id, date, some status, instanceId⟩ := by
      rw [getAttendanceDay, attendance]
      exact put
    have exists' : (dayStatusConflicts next employment.id date).attendanceExists = true := by
      simp [dayStatusConflicts, found]
    exact ⟨by rw [DayStatusConflicts.hasConflicts, exists', Bool.true_or], fun plan => absurd plan leave⟩

theorem synced_tables {flushed synced : Db} {months : List (Int × Nat)}
    (done : syncEmploymentMetricMonths flushed employment months = .ok synced) (same : commit zone synced = next) :
    next.attendance = flushed.attendance ∧ next.shiftPlans = flushed.shiftPlans := by
  obtain ⟨-, frame, -⟩ := syncMonths_ok done
  rw [← same, commit, frame]
  exact ⟨rfl, rfl⟩

/-- A status that has been set is not set again without a confirmation. -/
theorem changeDayStatus_refuses {status : DayStatus} {again : Db}
    (done : changeDayStatus zone db employment date (some status) confirm instanceId error = .ok next) :
    changeDayStatus zone next employment date (some status) false instanceId error ≠ .ok again := by
  intro repeated
  obtain ⟨-, _, flushed, _, synced, -, replaced, confirmed, -, written, same⟩ := changeDayStatus_ok done
  obtain ⟨rfl, refused | stored⟩ := replaceDayStatus_ok replaced
  · exact confirmed rfl refused
  · obtain ⟨-, _, _, _, _, -, replaced', confirmed', -⟩ := changeDayStatus_ok repeated
    obtain ⟨attendance, plans⟩ := synced_tables written same
    rw [← stored] at attendance plans
    obtain ⟨rfl, -⟩ := replaceDayStatus_ok replaced'
    exact confirmed' rfl ⟨(replacedDay_conflicts attendance plans).1, Bool.false_ne_true⟩

/-- After a clear the day still says which locks a request has to ask for, or no lock of its month is set. -/
def LeavesOpen (db : Db) (employmentId date : Int) : Prop :=
  StillRecorded db employmentId date ∨ ∀ lockType, ¬ isMonthLocked db lockType employmentId (yearMonth date)

theorem changeDayStatus_repeats {status : Option DayStatus} (rested : Rested zone db)
    (done : changeDayStatus zone db employment date status confirm instanceId error = .ok next) :
    (∃ again, changeDayStatus zone next employment date status false instanceId error = .ok again ∧ SameRows again next) ↔
      status = none ∧ LeavesOpen db employment.id date := by
  cases status with
  | some status =>
    refine iff_of_false ?_ (fun cleared => by cases cleared.1)
    rintro ⟨again, repeated, -⟩
    exact changeDayStatus_refuses done repeated
  | none =>
    rw [eq_self_iff_true, true_and]
    exact changeDayStatus_again rested done

end Changes

section Endpoints

inductive DayStatusEndpoint where
  | portalAttendance (auth : PortalUserAuth)
  | portalShiftPlan (auth : PortalUserAuth)
  | admin

def DayStatusEndpoint.request (body : DayStatusUpsertIn) : DayStatusEndpoint → Request
  | .portalAttendance auth => .portalUpsertAttendanceStatus auth body
  | .portalShiftPlan auth => .portalUpsertDayStatus auth body
  | .admin => .adminUpsertDayStatus body

/-- The same request at once, without a confirmation, succeeds and leaves the rows as they are. -/
def Repeats (zone : Zone) (clock : Clock) (endpoint : DayStatusEndpoint) (body : DayStatusUpsertIn) (next : Db) : Prop :=
  ∃ again, (endpoint.request { body with confirmDeleteConflicts := false }).handle zone clock next = .ok again ∧ SameRows again next

/-- A status is cleared; and the plan endpoint, which asks for one lock only, clears it, or the day leaves open. -/
def ClearsOpenly (db : Db) (endpoint : DayStatusEndpoint) (body : DayStatusUpsertIn) : Prop :=
  body.status = none ∧
    match endpoint with
    | .portalAttendance _ => ∀ date, dateFromIsoformat body.date = some date → LeavesOpen db body.employmentId date
    | .portalShiftPlan _ => True
    | .admin => ∀ date, parseYyyyMmDd body.date = some date → LeavesOpen db body.employmentId date

variable {zone : Zone} {clock : Clock} {db next : Db} {body : DayStatusUpsertIn}

theorem normalizeDayStatus_none {text : Option String} (read : normalizeDayStatus text = some none) : text = none := by
  cases text with
  | none => rfl
  | some text => simp [normalizeDayStatus] at read

theorem DayCommit.staff {employmentId : Int} (committed : DayCommit zone clock db next employmentId) :
    next.users = db.users ∧ next.employments = db.employments := by
  obtain ⟨_, _, flushed, _, synced, flush, -, written, rfl, -⟩ := committed
  obtain ⟨-, frame, -⟩ := syncMonths_ok written
  rw [commit, frame, flush.frame]
  exact ⟨rfl, rfl⟩

theorem locked_congr (users : next.users = db.users) (employment : Employment) :
    lockedEmploymentHasActiveUser zone clock next employment ↔ lockedEmploymentHasActiveUser zone clock db employment := by
  rw [lockedEmploymentHasActiveUser, userIsActive, users]
  exact Iff.rfl

theorem status_none_iff {status : Option DayStatus} (read : normalizeDayStatus body.status = some status) :
    body.status = none ↔ status = none := by
  refine ⟨fun same => ?_, fun same => normalizeDayStatus_none (same ▸ read)⟩
  rw [same] at read
  exact (Option.some.inj read).symm

theorem portalAttendance_repeats {auth : PortalUserAuth} (rested : Rested zone db)
    (done : Portal.upsertAttendanceStatus zone clock db auth body = .ok next) :
    Repeats zone clock (.portalAttendance auth) body next ↔ ClearsOpenly db (.portalAttendance auth) body := by
  obtain ⟨users, employments⟩ := (portalAttendanceStatus_commit done).staff
  simp only [Repeats, DayStatusEndpoint.request, Request.handle, Portal.upsertAttendanceStatus, Portal.ensureDayInPeriod,
    ensureDayInEmploymentPeriod, bind_eq_ok, raiseIf_eq_ok, require_eq_ok, portalEmployment_eq_ok,
    lockEmploymentForTimeMutation_eq_ok, not_or, not_not] at done ⊢
  simp only [locked_congr users, users, employments]
  obtain ⟨_, field, _, pattern, employment, ⟨found, owner, user⟩, stored', stored, _, active, date, parsed, status, read, _, valid,
    changed⟩ := done
  obtain rfl : employment = stored' := Option.some.inj ((employment_again found).1.symm.trans stored)
  have condition : ClearsOpenly db (.portalAttendance auth) body ↔ status = none ∧ LeavesOpen db employment.id date := by
    simp only [ClearsOpenly, status_none_iff read, parsed, Option.some.injEq, forall_eq', (employment_again found).2.1]
  rw [condition, ← changeDayStatus_repeats rested changed]
  constructor
  · rintro ⟨again, ⟨_, _, _, _, employment', ⟨found', -⟩, stored', again', _, _, date', parsed', status', read', _, _, repeated⟩, same⟩
    obtain rfl : employment = employment' := Option.some.inj (found.symm.trans found')
    obtain rfl : employment = stored' := Option.some.inj (stored.symm.trans again')
    obtain rfl : date = date' := Option.some.inj (parsed.symm.trans parsed')
    obtain rfl : status = status' := Option.some.inj (read.symm.trans read')
    exact ⟨again, repeated, same⟩
  · rintro ⟨again, repeated, same⟩
    exact ⟨again, ⟨(), field, (), pattern, employment, ⟨found, owner, user⟩, employment, stored, (), active, date, parsed, status,
      read, (), valid, repeated⟩, same⟩

theorem admin_repeats (rested : Rested zone db) (done : Admin.upsertDayStatus zone clock db body = .ok next) :
    Repeats zone clock .admin body next ↔ ClearsOpenly db .admin body := by
  obtain ⟨users, employments⟩ := (adminDayStatus_commit done).staff
  simp only [Repeats, DayStatusEndpoint.request, Request.handle, Admin.upsertDayStatus, Admin.editableEmployment,
    ensureDayInEmploymentPeriod, bind_eq_ok, raiseIf_eq_ok, require_eq_ok, pure_eq_ok, lockEmploymentForTimeMutation_eq_ok,
    not_not] at done ⊢
  simp only [locked_congr users, Admin.userInstanceId, users, employments]
  obtain ⟨_, field, _, pattern, _, ⟨employment, found, stored', stored, _, active, rfl⟩, date, parsed, _, valid, status, read,
    changed⟩ := done
  obtain rfl : employment = stored' := Option.some.inj ((employment_again found).1.symm.trans stored)
  have condition : ClearsOpenly db .admin body ↔ status = none ∧ LeavesOpen db employment.id date := by
    simp only [ClearsOpenly, status_none_iff read, parsed, Option.some.injEq, forall_eq', (employment_again found).2.1]
  rw [condition, ← changeDayStatus_repeats rested changed]
  constructor
  · rintro ⟨again, ⟨_, _, _, _, _, ⟨employment', found', stored', again', _, _, rfl⟩, date', parsed', _, _, status', read', repeated⟩,
      same⟩
    obtain rfl : employment = employment' := Option.some.inj (found.symm.trans found')
    obtain rfl : employment = stored' := Option.some.inj (stored.symm.trans again')
    obtain rfl : date = date' := Option.some.inj (parsed.symm.trans parsed')
    obtain rfl : status = status' := Option.some.inj (read.symm.trans read')
    exact ⟨again, repeated, same⟩
  · rintro ⟨again, repeated, same⟩
    exact ⟨again, ⟨(), field, (), pattern, employment, ⟨employment, found, employment, stored, (), active, rfl⟩, date, parsed, (),
      valid, status, read, repeated⟩, same⟩

/-- The plan endpoint finds the plan row of the status that it has set. -/
theorem portalShiftPlan_refuses {auth : PortalUserAuth} {again : Db} (set : body.status ≠ none)
    (done : Portal.upsertDayStatus zone clock db auth body = .ok next) :
    Portal.upsertDayStatus zone clock next auth { body with confirmDeleteConflicts := false } ≠ .ok again := by
  intro repeated
  have employments := (portalDayStatus_commit done).staff.2
  obtain ⟨employment, date, status, flushed, _, _, ⟨found, -, -, -, parsed, pattern, read⟩, ⟨-, written, same⟩, outcome⟩ :=
    portalDayStatus_ok done
  obtain ⟨employment', date', status', _, _, _, ⟨found', -, -, -, parsed', -, read'⟩, -, outcome'⟩ := portalDayStatus_ok repeated
  rw [employments] at found'
  obtain rfl : employment = employment' := Option.some.inj (found.symm.trans found')
  obtain rfl : date = date' := Option.some.inj (parsed.symm.trans parsed')
  obtain rfl : status = status' := Option.some.inj (read.symm.trans read')
  have named : status ≠ none := fun absent => set ((status_none_iff read).mpr absent)
  obtain ⟨chosen, rfl, -, -, stored⟩ := outcome.resolve_left fun cleared => named cleared.1
  obtain ⟨_, -, -, confirmed, -⟩ := outcome'.resolve_left fun cleared => named cleared.1
  obtain ⟨attendance, plans⟩ := synced_tables written same
  rw [← stored] at attendance plans
  have conflicts := (replacedDay_conflicts attendance plans).2 (planStatus_isPlan pattern read)
  exact confirmed ⟨conflicts, Bool.false_ne_true⟩

theorem portalShiftPlan_repeats {auth : PortalUserAuth} (rested : Rested zone db)
    (done : Portal.upsertDayStatus zone clock db auth body = .ok next) :
    Repeats zone clock (.portalShiftPlan auth) body next ↔ ClearsOpenly db (.portalShiftPlan auth) body := by
  obtain ⟨users, employments⟩ := (portalDayStatus_commit done).staff
  constructor
  · rintro ⟨again, repeated, -⟩
    refine ⟨?_, trivial⟩
    by_contra set
    exact portalShiftPlan_refuses set done repeated
  · rintro ⟨cleared, -⟩
    simp only [Repeats, DayStatusEndpoint.request, Request.handle, Portal.upsertDayStatus, Portal.requireActiveEmploymentForEdit,
      Portal.ensureDayInPeriod, ensureDayInEmploymentPeriod, cleared, normalizeDayStatus, setShiftPlanStatus_none, bind_eq_ok,
      raiseIf_eq_ok, require_eq_ok, portalEmployment_eq_ok, lockEmploymentForTimeMutation_eq_ok, ensureMonthUnlocked_eq_ok,
      not_not] at done ⊢
    simp only [locked_congr users, users, employments]
    obtain ⟨_, field, _, pattern, employment, ⟨found, owner, user⟩, employment', stored, _, active, date, parsed, _, valid, _, unlocked,
      none', read, conflicts, collected, done⟩ := done
    cases read
    simp only [bind_eq_ok, Except.ok.injEq, exists_eq_left', pure_eq_ok] at done
    obtain ⟨synced, written, rfl⟩ := done
    obtain ⟨-, frame, -⟩ := syncMonths_ok written
    have settled : commit zone synced = synced := by
      rw [frame]
      exact commit_of_rested rested
    rw [settled]
    have unlocked' : ¬ isMonthLocked synced .shiftPlan employment'.id (yearMonth date) := by
      rw [frame]
      exact unlocked
    have collected' : collectDayStatusConflicts synced employment'.id date = .ok (dayStatusConflicts synced employment'.id date) := by
      simp only [collectDayStatusConflicts, bind_eq_ok, raiseIf_eq_ok] at collected ⊢
      exact ⟨(), collected.choose_spec.1, rfl⟩
    have facts : SameFactRows { synced with shiftPlans := clearedPlans synced employment'.id date (some auth.instanceId) }
        { db with shiftPlans := clearedPlans db employment'.id date (some auth.instanceId) } := by
      rw [frame]
      exact ⟨fun _ => Iff.rfl, fun _ => Iff.rfl, @clearedPlans_again db _ employment'.id date (some auth.instanceId) rfl⟩
    have flushed : Rested zone { db with shiftPlans := clearedPlans db employment'.id date (some auth.instanceId) } := rested
    obtain ⟨last, rewritten, same⟩ := sync_again flushed written facts rfl fun _ member => member
    refine ⟨commit zone last, ⟨(), field, (), pattern, employment, ⟨found, owner, user⟩, employment', stored, (), active, date, parsed,
      (), valid, (), unlocked', none, rfl, _, collected', ?_⟩, same⟩
    simp only [bind_eq_ok, Except.ok.injEq, exists_eq_left', pure_eq_ok]
    refine ⟨last, ?_, rfl⟩
    rw [frame] at rewritten ⊢
    exact rewritten

/-- A status that is sent again without a confirmation is taken once more only if it was cleared, and
the locks that the second request asks for are open. -/
theorem day_status_repeats (zone : Zone) (clock : Clock) (db : Db) (rested : Rested zone db) (endpoint : DayStatusEndpoint)
    (body : DayStatusUpsertIn) {next : Db} (done : (endpoint.request body).handle zone clock db = .ok next) :
    Repeats zone clock endpoint body next ↔ ClearsOpenly db endpoint body := by
  cases endpoint with
  | portalAttendance auth => exact portalAttendance_repeats rested done
  | portalShiftPlan auth => exact portalShiftPlan_repeats rested done
  | admin => exact admin_repeats rested done

theorem sampleDb_rested : Rested sampleZone sampleDb := fun _ member => absurd member (Table.not_mem_empty _)

theorem sample_day_status_repeats : ∃ next,
    (Request.adminUpsertDayStatus ⟨1, "2026-08-06", none, true⟩).handle sampleZone sampleClock sampleDb = .ok next ∧
      Repeats sampleZone sampleClock .admin ⟨1, "2026-08-06", none, true⟩ next := by
  have accepted : ((Request.adminUpsertDayStatus ⟨1, "2026-08-06", none, true⟩).handle sampleZone sampleClock sampleDb).toOption.isSome := by
    decide +kernel
  obtain ⟨next, done⟩ := Option.isSome_iff_exists.mp accepted
  rw [toOption_eq_some] at done
  refine ⟨next, done, (day_status_repeats sampleZone sampleClock sampleDb sampleDb_rested .admin _ done).mpr ⟨rfl, fun _ _ => .inr ?_⟩⟩
  intro lockType locked
  cases lockType <;> exact locked rfl

/-- Sickness on a free day, and the same once more. -/
theorem sickness_not_repeated : ∃ next,
    (Request.portalUpsertAttendanceStatus ⟨1, "portal"⟩ ⟨1, "2026-08-06", some "SICKNESS", false⟩).handle sampleZone sampleClock
        sampleDb = .ok next ∧
      ¬ Repeats sampleZone sampleClock (.portalAttendance ⟨1, "portal"⟩) ⟨1, "2026-08-06", some "SICKNESS", false⟩ next := by
  have accepted : ((Request.portalUpsertAttendanceStatus ⟨1, "portal"⟩ ⟨1, "2026-08-06", some "SICKNESS", false⟩).handle sampleZone
      sampleClock sampleDb).toOption.isSome := by decide +kernel
  obtain ⟨next, done⟩ := Option.isSome_iff_exists.mp accepted
  rw [toOption_eq_some] at done
  refine ⟨next, done, fun repeats => ?_⟩
  cases ((portalAttendance_repeats sampleDb_rested done).mp repeats).1

end Endpoints

end Dagmar.Proofs
