import Dagmar.Proofs.Transitions

/-! The first run for a month locks its plans for the employments that are valid
on the day of the run. Its record outlives every request, so no later run for the
month does anything. -/

namespace Dagmar.Proofs
open Library Library.Calendar Library.Outcome

section Statements

/-- The plans of a month were locked for the employments that qualify, and no other lock has changed. -/
structure AutoLocked (db next : Db) (month : Int × Nat) (eligible : Employment → Prop) : Prop where
  locked : ∀ employmentId, isMonthLocked next .shiftPlan employmentId month ↔
    isMonthLocked db .shiftPlan employmentId month ∨ ∃ employment ∈ db.employments, employment.id = employmentId ∧ eligible employment
  attendance : next.attendanceLocks = db.attendanceLocks
  otherMonths : ∀ row : MonthLock, (row.year, row.month) ≠ month → (row ∈ next.shiftPlanLocks ↔ row ∈ db.shiftPlanLocks)

/-- An employment of an active user whose period overlaps the month. -/
def ActiveInMonth (db : Db) (month : Int × Nat) (employment : Employment) : Prop :=
  userIsActive db employment ∧
    employmentOverlapsMonth employment (firstDay month.1 month.2) (firstDay month.1 (month.2 + 1))

/-- No later run for the month changes anything, whatever requests are handled in between. -/
def RunsOnce (zone : Zone) (next : Db) (month : Int × Nat) (count : Nat) : Prop :=
  ∀ calls clock now, autoLockMonth zone clock now = month →
    autoLockShiftPlanMonthAt zone clock now (run zone next calls) = .ok (run zone next calls, count)

end Statements

section Outcome
variable {zone : Zone} {clock : Clock} {now : Option RequestTime} {db : Db}

/-- The employments that a run finds active. -/
def autoLockRows (zone : Zone) (clock : Clock) (db : Db) (month : Int × Nat) : List (Int × Option String) :=
  (db.employments.rows.filter fun employment => lockedEmploymentHasActiveUser zone clock db employment ∧
    employmentOverlapsMonth employment (firstDay month.1 month.2) (firstDay month.1 (month.2 + 1))).map fun employment =>
      (employment.id, (db.users.get employment.userId).bind PortalUser.instanceId)

theorem mem_autoLockRows {month : Int × Nat} {employmentId : Int} :
    employmentId ∈ (autoLockRows zone clock db month).map Prod.fst ↔ ∃ employment ∈ db.employments,
      employment.id = employmentId ∧ ActiveInMonth db month employment ∧
        employmentIsValidOnDay employment (pragueToday zone clock) := by
  simp only [autoLockRows, List.map_map, List.mem_map, List.mem_filter, decide_eq_true_eq, Function.comp_apply]
  constructor
  · rintro ⟨employment, ⟨member, ⟨today, active⟩, overlaps⟩, same⟩
    exact ⟨employment, member, same, ⟨active, overlaps⟩, today⟩
  · rintro ⟨employment, member, same, ⟨active, overlaps⟩, today⟩
    exact ⟨employment, ⟨member, ⟨today, active⟩, overlaps⟩, same⟩

/-- The locks and the record that the first run for a month writes. -/
def autoLocked (zone : Zone) (clock : Clock) (db : Db) (month : Int × Nat) : Db :=
  { db with
    shiftPlanLocks := (autoLockRows zone clock db month).foldl
      (fun rows row => rows.put ⟨row.1, month.1, month.2, row.2, some autoLockedBy⟩) db.shiftPlanLocks
    autoLockRuns := db.autoLockRuns.put ⟨month.1, month.2, (autoLockRows zone clock db month).length⟩ }

theorem autoLock_first (fresh : db.autoLockRuns.get (autoLockMonth zone clock now) = none)
    (valid : Representable (autoLockMonth zone clock now)) :
    autoLockShiftPlanMonthAt zone clock now db = .ok (commit zone (autoLocked zone clock db (autoLockMonth zone clock now)),
      (autoLockRows zone clock db (autoLockMonth zone clock now)).length) := by
  have nobody (rows : List (Int × Option String)) : (if rows = [] then db
      else setMonthLockStateBulk db .shiftPlan rows (autoLockMonth zone clock now) true (some autoLockedBy)) =
        setMonthLockStateBulk db .shiftPlan rows (autoLockMonth zone clock now) true (some autoLockedBy) := by
    split
    next none =>
      subst none
      rfl
    · rfl
  have range : require (monthRange (autoLockMonth zone clock now).1 (autoLockMonth zone clock now).2)
      (.uncaught "ValueError" : ApiError) = .ok _ := require_eq_ok.mpr (monthRange_eq_some.mpr ⟨valid, rfl, rfl⟩)
  unfold autoLockShiftPlanMonthAt
  simp only [fresh, range, ok_bind, nobody]
  rfl

theorem autoLock_again {record : ShiftPlanAutoLockRun}
    (stored : db.autoLockRuns.get (autoLockMonth zone clock now) = some record) :
    autoLockShiftPlanMonthAt zone clock now db = .ok (db, record.lockedCount) := by
  unfold autoLockShiftPlanMonthAt
  simp only [stored]
  rfl

theorem autoLock_overflow (fresh : db.autoLockRuns.get (autoLockMonth zone clock now) = none)
    (late : ¬ Representable (autoLockMonth zone clock now)) :
    autoLockShiftPlanMonthAt zone clock now db = .error (.uncaught "ValueError") := by
  have range : monthRange (autoLockMonth zone clock now).1 (autoLockMonth zone clock now).2 = none := by
    by_contra found
    obtain ⟨range, found⟩ := Option.ne_none_iff_exists'.mp found
    exact late (monthRange_eq_some.mp found).1
  unfold autoLockShiftPlanMonthAt
  simp only [fresh, range]
  rfl

theorem autoLocked_locked (month : Int × Nat) : AutoLocked db (commit zone (autoLocked zone clock db month)) month fun employment =>
    ActiveInMonth db month employment ∧ employmentIsValidOnDay employment (pragueToday zone clock) where
  locked employmentId := by
    rw [← mem_autoLockRows]
    have written := @get_putLocks (autoLockRows zone clock db month) month (some autoLockedBy) db.shiftPlanLocks
      (employmentId, month.1, month.2)
    rw [and_iff_left rfl] at written
    exact written
  attendance := rfl
  otherMonths _ other := mem_putLocks_other other

end Outcome

section Records
variable {zone : Zone} {clock : Clock} {db next : Db} {month : Int × Nat} {record : ShiftPlanAutoLockRun}

theorem FactChange.records {employmentId : Int} {writes : List Timestamp}
    (changed : FactChange zone clock db next employmentId writes) : next.autoLockRuns = db.autoLockRuns := by
  cases changed with
  | nothing same => rw [same]
  | events committed =>
    obtain ⟨employment, flushed, days, synced, flush, written, rfl, -⟩ := committed
    obtain ⟨-, frame, -⟩ := syncMonths_ok written
    rw [frame, flush.frame]
    rfl
  | day committed =>
    obtain ⟨employment, date, flushed, months, synced, flush, -, written, rfl, -⟩ := committed
    obtain ⟨-, frame, -⟩ := syncMonths_ok written
    rw [frame, flush.frame]
    rfl

theorem ReviseCommit.records (committed : ReviseCommit zone db next) : next.autoLockRuns = db.autoLockRuns := by
  obtain ⟨employment, updated, flushed, revision, ⟨synced, written, rfl⟩ | ⟨-, rfl⟩⟩ := committed
  · obtain ⟨frame, -⟩ := syncMetrics_ok written
    rw [frame, revision.frame]
    rfl
  · rw [revision.frame]
    rfl

theorem setLocks_records {username : Option String} {body : Admin.AdminLockSetIn} {count : Nat}
    (done : Admin.setLocks zone db username body = .ok (next, count)) : next.autoLockRuns = db.autoLockRuns := by
  simp only [Admin.setLocks, bind_eq_ok, raiseIf_eq_ok, require_eq_ok, pure_eq_ok, Prod.mk.injEq] at done
  obtain ⟨_, -, _, -, _, -, months, -, _, -, _, -, targets, -, _, -, rfl, -⟩ := done
  rw [(setLocks_spec db body.lockType body.locked username (targets.filter fun target => target.2 ≠ [])).1]
  rfl

theorem selection_records {body : Admin.ShiftPlanSelectionIn} (done : Admin.setShiftPlanSelection zone db body = .ok next) :
    next.autoLockRuns = db.autoLockRuns := by
  simp only [Admin.setShiftPlanSelection, bind_eq_ok, raiseIf_eq_ok, require_eq_ok, pure_eq_ok] at done
  obtain ⟨_, -, ⟨start, finish⟩, -, _, -, rows, -, rfl⟩ := done
  rfl

theorem autoLock_records {now : Option RequestTime} {count : Nat}
    (done : autoLockShiftPlanMonthAt zone clock now db = .ok (next, count)) (stored : db.autoLockRuns.get month = some record) :
    next.autoLockRuns.get month = some record := by
  cases found : db.autoLockRuns.get (autoLockMonth zone clock now) with
  | some earlier =>
    rw [autoLock_again found, Except.ok.injEq, Prod.mk.injEq] at done
    exact done.1 ▸ stored
  | none =>
    by_cases valid : Representable (autoLockMonth zone clock now)
    · rw [autoLock_first found valid, Except.ok.injEq, Prod.mk.injEq] at done
      have different : autoLockMonth zone clock now ≠ month := by
        rintro rfl
        rw [found] at stored
        cases stored
      rw [← done.1]
      change (db.autoLockRuns.put _).get month = some record
      rw [Table.get_put]
      exact (if_neg different).trans stored
    · rw [autoLock_overflow found valid] at done
      cases done

/-- No request takes the record of a run away. -/
theorem handle_records {request : Request} (done : request.handle zone clock db = .ok next)
    (stored : db.autoLockRuns.get month = some record) : next.autoLockRuns.get month = some record := by
  have facts (kind : Request.OfFacts request) : next.autoLockRuns.get month = some record := by
    obtain ⟨_, -, changed⟩ := factChange_of_handle done kind
    rw [changed.records, stored]
  cases request with
  | createEmployment userId payload =>
    obtain ⟨_, handled⟩ := answered done
    obtain ⟨employment, employments, nextId, -, -, rfl⟩ := createEmployment_commit handled
    exact stored
  | updateEmployment employmentId payload => rw [(updateEmployment_commit done).records, stored]
  | setLocks username body =>
    obtain ⟨_, handled⟩ := answered done
    rw [setLocks_records handled, stored]
  | setShiftPlanSelection body => rw [selection_records done, stored]
  | autoLock =>
    obtain ⟨_, handled⟩ := answered done
    exact autoLock_records handled stored
  | _ => exact facts trivial

theorem run_records (calls : List Call) (stored : db.autoLockRuns.get month = some record) :
    (run zone db calls).autoLockRuns.get month = some record :=
  run_always (fun db => db.autoLockRuns.get month = some record) stored fun _ _ _ kept done => handle_records done kept

end Records

section Runs
variable {zone : Zone} {clock : Clock} {db : Db} {month : Int × Nat}

theorem autoLocked_once : RunsOnce zone (commit zone (autoLocked zone clock db month)) month
    (autoLockRows zone clock db month).length := by
  rintro calls later now rfl
  have stored : (commit zone (autoLocked zone clock db (autoLockMonth zone later now))).autoLockRuns.get
      (autoLockMonth zone later now) = some ⟨_, _, (autoLockRows zone clock db (autoLockMonth zone later now)).length⟩ :=
    Table.get_put_self _ rfl
  exact autoLock_again (run_records calls stored)

/-- The first run for a month locks its plans for the active employments that are valid on the day of the run, and is the
only one; in the last month of the calendar there is none. -/
theorem autoLock_spec (zone : Zone) (clock : Clock) (now : Option RequestTime) (db : Db)
    (fresh : db.autoLockRuns.get (autoLockMonth zone clock now) = none) :
    (Representable (autoLockMonth zone clock now) → ∃ next count, autoLockShiftPlanMonthAt zone clock now db = .ok (next, count) ∧
      AutoLocked db next (autoLockMonth zone clock now) (fun employment =>
        ActiveInMonth db (autoLockMonth zone clock now) employment ∧
          employmentIsValidOnDay employment (pragueToday zone clock)) ∧
      RunsOnce zone next (autoLockMonth zone clock now) count) ∧
    (¬ Representable (autoLockMonth zone clock now) →
      autoLockShiftPlanMonthAt zone clock now db = .error (.uncaught "ValueError")) :=
  ⟨fun valid => ⟨_, _, autoLock_first fresh valid, autoLocked_locked _, autoLocked_once⟩, autoLock_overflow fresh⟩

/-- The run of 5 August 2026, the first of its month. -/
theorem sample_autoLock : ∃ next count, autoLockShiftPlanMonthAt sampleZone sampleClock none sampleDb = .ok (next, count) ∧
    isMonthLocked next .shiftPlan 1 (2026, 8) ∧ RunsOnce sampleZone next (2026, 8) count := by
  obtain ⟨next, count, done, locked, once⟩ := (autoLock_spec sampleZone sampleClock none sampleDb (by decide)).1 (by decide +kernel)
  have month : autoLockMonth sampleZone sampleClock none = (2026, 8) := by decide +kernel
  rw [month] at locked once
  refine ⟨next, count, done, (locked.locked 1).mpr (.inr ?_), once⟩
  exact ⟨sampleEmployment, by simp [sampleDb, Db.blank, Table.mem_def], rfl, ⟨by decide, by decide +kernel⟩, by decide +kernel⟩

/-- An employment of an active user that starts on 20 August. -/
def laterDb : Db := Db.blank sampleDb.users ⟨[⟨1, 1, .dppDpc, {}, ordinal 2026 8 20, none⟩], by decide⟩ 2

/-- The run of 5 August leaves it open. -/
theorem later_start_not_locked : laterDb.autoLockRuns.get (autoLockMonth sampleZone sampleClock none) = none ∧
    ∃ next count, autoLockShiftPlanMonthAt sampleZone sampleClock none laterDb = .ok (next, count) ∧
      ¬ AutoLocked laterDb next (autoLockMonth sampleZone sampleClock none)
        (ActiveInMonth laterDb (autoLockMonth sampleZone sampleClock none)) := by
  have valid : Representable (autoLockMonth sampleZone sampleClock none) := by decide +kernel
  refine ⟨by decide, _, _, autoLock_first (by decide) valid, fun locked => ?_⟩
  have month : autoLockMonth sampleZone sampleClock none = (2026, 8) := by decide +kernel
  rw [month] at locked
  have missing : ¬ isMonthLocked (commit sampleZone (autoLocked sampleZone sampleClock laterDb (2026, 8))) .shiftPlan 1 (2026, 8) := by
    decide +kernel
  refine missing ((locked.locked 1).mpr (.inr ?_))
  exact ⟨⟨1, 1, .dppDpc, {}, ordinal 2026 8 20, none⟩, by simp [laterDb, Db.blank, Table.mem_def], rfl, by decide,
    by decide +kernel⟩

end Runs

end Dagmar.Proofs
