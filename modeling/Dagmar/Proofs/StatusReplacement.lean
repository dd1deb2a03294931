import Dagmar.Proofs.StatusRepeats

/-! What replacing the status of a day leaves on the day, and that it leaves every
other day and every other employment alone. -/

namespace Dagmar.Proofs
open Library Library.Calendar Library.Outcome

section Statements

/-- Only the facts of one day of an employment are different, and no event is new. -/
structure OtherDaysKept (db next : Db) (employmentId date : Int) : Prop where
  tables : next = { db with events := next.events, attendance := next.attendance, shiftPlans := next.shiftPlans }
  events : ∀ event : AttendanceEvent, ¬ (event.employmentId = employmentId ∧ event.occurredAt.date = date) →
    (event ∈ next.events ↔ event ∈ db.events)
  attendance : ∀ row : Attendance, row.key ≠ (employmentId, date) → (row ∈ next.attendance ↔ row ∈ db.attendance)
  plans : ∀ plan : ShiftPlan, plan.key ≠ (employmentId, date) → (plan ∈ next.shiftPlans ↔ plan ∈ db.shiftPlans)

/-- A status takes the place of what the day held. -/
structure DayTaken (next : Db) (employmentId date : Int) : Prop where
  events : ∀ event ∈ next.events, event.employmentId = employmentId → event.occurredAt.date ≠ date
  plans : ∀ plan ∈ next.shiftPlans, plan.key = (employmentId, date) → plan.arrivalTime = none ∧ plan.departureTime = none

/-- Without a status the events and the planned times stay, and a row that holds neither goes. -/
structure DayCleared (db next : Db) (employmentId date : Int) (instanceId : Option String) : Prop where
  events : next.events = db.events
  attendance : getAttendanceDay next employmentId date = (getAttendanceDay db employmentId date).bind fun row =>
    if ∃ event ∈ db.events, event.employmentId = employmentId ∧ event.occurredAt.date = date
    then some { row with status := none, instanceId := instanceId } else none
  plans : getShiftPlanDay next employmentId date = (getShiftPlanDay db employmentId date).bind fun plan =>
    if plan.arrivalTime = none ∧ plan.departureTime = none then none
    else some { plan with status := none, instanceId := instanceId }

end Statements

section Cases
variable {zone : Zone} {db : Db} {employment : Employment} {date : Int} {instanceId : Option String}

theorem otherDaysKept_refl (db : Db) (employmentId date : Int) : OtherDaysKept db db employmentId date :=
  ⟨rfl, fun _ _ => Iff.rfl, fun _ _ => Iff.rfl, fun _ _ => Iff.rfl⟩

theorem replacedDay_others (db : Db) (employment : Employment) (date : Int) (status : DayStatus) (instanceId : Option String) :
    OtherDaysKept db (replacedDay db employment date status instanceId) employment.id date := by
  have events (event : AttendanceEvent) (other : ¬ (event.employmentId = employment.id ∧ event.occurredAt.date = date)) :
      event ∈ db.events.deleteWhere (· ∈ conflictingAttendanceEvents db employment.id date) ↔ event ∈ db.events := by
    rw [Table.mem_deleteWhere, mem_conflictingAttendanceEvents, and_iff_left]
    exact fun conflict => other conflict.2
  unfold replacedDay
  dsimp only
  split
  · refine ⟨rfl, events, ?_, fun plan different => Table.mem_put_of_ne rfl different⟩
    intro row different
    rw [Table.mem_deleteWhere, and_iff_left different]
  · refine ⟨rfl, events, fun row different => Table.mem_put_of_ne rfl different, ?_⟩
    intro plan different
    rw [Table.mem_deleteWhere, and_iff_left different]

theorem replacedDay_taken (db : Db) (employment : Employment) (date : Int) (status : DayStatus) (instanceId : Option String) :
    DayTaken (replacedDay db employment date status instanceId) employment.id date := by
  unfold replacedDay
  dsimp only
  split
  · refine ⟨gone_of_conflicts, fun plan member same => ?_⟩
    rcases Table.mem_put.mp member with rfl | ⟨-, different⟩
    · exact ⟨rfl, rfl⟩
    · exact absurd same different
  · refine ⟨gone_of_conflicts, fun plan member same => ?_⟩
    exact absurd same (Table.mem_deleteWhere.mp member).2

theorem replacedDay_status (db : Db) (employment : Employment) (date : Int) (status : DayStatus) (instanceId : Option String) :
    getDayStatus (replacedDay db employment date status instanceId) employment.id date = some status := by
  unfold replacedDay
  dsimp only
  split
  · have absent : (db.attendance.deleteWhere (·.key = (employment.id, date))).get (employment.id, date) = none := by
      rw [Table.get_deleteKey, if_pos rfl]
    have put := Table.get_put_self db.shiftPlans
      (show ShiftPlan.key ⟨employment.id, date, none, none, some status, instanceId⟩ = (employment.id, date) from rfl)
    simp only [getDayStatus, getAttendanceDay, getShiftPlanDay, absent, put, Option.bind_none, Option.bind_some]
  · have put := Table.get_put_self db.attendance
      (show Attendance.key ⟨employment.id, date, some status, instanceId⟩ = (employment.id, date) from rfl)
    simp only [getDayStatus, getAttendanceDay, put, Option.bind_some]

theorem replaceDayStatus_some (zone : Zone) (db : Db) (employment : Employment) (date : Int) (status : DayStatus)
    (confirm : Bool) (instanceId : Option String) :
    replaceDayStatus zone db employment date (some status) confirm instanceId =
      .ok (dayStatusConflicts db employment.id date,
        if some status ≠ getDayStatus db employment.id date ∧ (dayStatusConflicts db employment.id date).hasConflicts ∧
          ¬ confirm then db else replacedDay db employment date status instanceId) := by
  unfold replaceDayStatus
  dsimp only
  by_cases refused : some status ≠ getDayStatus db employment.id date ∧
      (dayStatusConflicts db employment.id date).hasConflicts ∧ ¬ confirm
  · rw [if_pos ⟨rfl, refused⟩, if_pos refused]
    rfl
  · rw [if_neg fun all => refused all.2, if_neg refused]
    by_cases plan : status.isPlan <;>
      simp [plan, setShiftPlanStatus, setAttendanceStatus, replacedDay, raiseIf, pure, Except.pure, bind, Except.bind]

theorem clearedDay_others : OtherDaysKept db (clearedDay zone db employment.id date instanceId db.metrics) employment.id date := by
  refine ⟨rfl, fun _ _ => Iff.rfl, fun row different => ?_, fun plan different => ?_⟩
  · cases found : getAttendanceDay db employment.id date with
    | none => simp only [clearedDay, clearedAttendance, found]
    | some old =>
      have key : old.key = (employment.id, date) := (Table.get_eq_some_iff.mp found).2
      simp only [clearedDay, clearedAttendance, found]
      split
      · exact Table.mem_put_of_ne key different
      · rw [Table.mem_deleteWhere, key, and_iff_left different]
  · cases found : getShiftPlanDay db employment.id date with
    | none => simp only [clearedDay, clearedPlans, found]
    | some old =>
      have key : old.key = (employment.id, date) := (Table.get_eq_some_iff.mp found).2
      simp only [clearedDay, clearedPlans, found]
      split
      · rw [Table.mem_deleteWhere, key, and_iff_left different]
      · exact Table.mem_put_of_ne key different

theorem clearedDay_cleared (rested : Rested zone db) :
    DayCleared db (clearedDay zone db employment.id date instanceId db.metrics) employment.id date instanceId := by
  refine ⟨rfl, ?_, get_clearedPlans⟩
  rw [getAttendanceDay, clearedDay, get_clearedAttendance]
  simp only [rested.hasEventOnDay]

end Cases

section Sample

/-- A day off on 6 August 2026. -/
def dayOffDb : Db := { sampleDb with shiftPlans := ⟨[⟨1, 739834, none, none, some .off, none⟩], by decide⟩ }

end Sample

end Dagmar.Proofs
