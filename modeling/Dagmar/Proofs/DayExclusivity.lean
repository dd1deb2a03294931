import Dagmar.Proofs.PeriodContainment
import Dagmar.Proofs.EventInterfaces

/-! A day is worked, planned or taken off, never two of these. A time that the
clock skipped can come back on another day than the one it was checked for; on the
days where that does not happen the rules of a day hold along every run. -/

namespace Dagmar.Proofs
open Library Library.Calendar Library.Outcome

section Steps
variable {zone : Zone} {clock : Clock} {db next : Db} {writes : List Timestamp} {employmentId date : Int}

theorem getDayStatus_free (free : ¬ daysHaveStatus db employmentId [date]) : getDayStatus db employmentId date = none := by
  have attendance : (getAttendanceDay db employmentId date).bind Attendance.status = none := by
    rw [Option.bind_eq_none_iff]
    intro row found
    obtain ⟨member, key⟩ := Table.get_eq_some_iff.mp found
    by_contra given
    exact free (.inl ⟨row, Db.mem_attendanceOf.mpr ⟨member, (Prod.mk.inj key).1⟩, by simp [(Prod.mk.inj key).2], given⟩)
  have plan : (getShiftPlanDay db employmentId date).bind ShiftPlan.status = none := by
    rw [Option.bind_eq_none_iff]
    intro plan found
    obtain ⟨member, owner, today⟩ := getShiftPlanDay_date found
    by_contra given
    exact free (.inr ⟨plan, Db.mem_plansOf.mpr ⟨member, owner⟩, by simp [today], given⟩)
  rw [getDayStatus, attendance, plan]

/-- The rules of a day are about its rows; they survive the loss of any of them. -/
theorem DayLegal.of_subset (legal : DayLegal db employmentId date)
    (events : ∀ event ∈ next.events, event.employmentId = employmentId → event ∈ db.events)
    (attendance : ∀ row ∈ next.attendance, row.key = (employmentId, date) → row ∈ db.attendance)
    (plans : ∀ plan ∈ next.shiftPlans, plan.key = (employmentId, date) → plan ∈ db.shiftPlans) :
    DayLegal next employmentId date := by
  have fewer {row : Attendance} (found : getAttendanceDay next employmentId date = some row) :
      getAttendanceDay db employmentId date = some row := by
    obtain ⟨member, key⟩ := Table.get_eq_some_iff.mp found
    exact Table.get_eq_some_iff.mpr ⟨attendance row member key, key⟩
  have fewer' {plan : ShiftPlan} (found : getShiftPlanDay next employmentId date = some plan) :
      getShiftPlanDay db employmentId date = some plan := by
    obtain ⟨member, key⟩ := Table.get_eq_some_iff.mp found
    exact Table.get_eq_some_iff.mpr ⟨plans plan member key, key⟩
  refine ⟨fun row found => legal.attendance row (fewer found), fun plan found => legal.plan plan (fewer' found), ?_, ?_⟩
  · cases first : getAttendanceDay next employmentId date with
    | none => exact .inl rfl
    | some row =>
      cases second : getShiftPlanDay next employmentId date with
      | none => exact .inr rfl
      | some plan =>
        rcases legal.single with none | none
        · cases none.symm.trans (fewer first)
        · cases none.symm.trans (fewer' second)
  · intro event member owner today
    have quiet := legal.worked event (events event member owner) owner today
    have absent := legal.attendance_status quiet
    have absent' : getAttendanceDay next employmentId date = none := by
      cases found : getAttendanceDay next employmentId date with
      | none => rfl
      | some row => cases absent.symm.trans (fewer found)
    rw [getDayStatus, absent] at quiet
    rw [getDayStatus, absent']
    cases found : getShiftPlanDay next employmentId date with
    | none => rfl
    | some plan =>
      rw [fewer' found] at quiet
      exact quiet

theorem EventsChanged.legal {employment : Employment} (changed : EventsChanged zone clock db next writes employment)
    (keeps : ∀ time ∈ writes, dateOf (zone.toWall time.utc) = date → zone.KeepsDay time)
    (legal : DayLegal db employmentId date) : DayLegal next employmentId date := by
  have attendance : getAttendanceDay next employmentId date = getAttendanceDay db employmentId date := by
    rw [changed.frame]
    rfl
  have plans : getShiftPlanDay next employmentId date = getShiftPlanDay db employmentId date := by
    rw [changed.frame]
    rfl
  have status : getDayStatus next employmentId date = getDayStatus db employmentId date := by
    rw [getDayStatus, getDayStatus, attendance, plans]
  refine ⟨attendance ▸ legal.attendance, plans ▸ legal.plan, by rw [attendance, plans]; exact legal.single, ?_⟩
  intro event member owner today
  rw [status]
  by_cases kept : event ∈ db.events
  · exact legal.worked event kept owner today
  · obtain ⟨owned, time, written, read, -, free, -⟩ := changed.added event member kept
    -- The day that was checked is the day on which the event is read back.
    have back : dateOf (zone.toWall time.utc) = date := by
      rw [← today, read]
      rfl
    have checked : time.date = date := (keeps time written back).symm.trans back
    rw [checked, ← owned, owner] at free
    exact getDayStatus_free free

theorem DayFlush.legalDay {flushed : Db} {employment : Employment} {day : Int} (rested : Rested zone db)
    (flush : DayFlush zone clock db flushed employment day) (legal : DayLegal db employmentId date) :
    DayLegal flushed employmentId date := by
  by_cases key : (employmentId, date) = (employment.id, day)
  · obtain ⟨rfl, rfl⟩ := Prod.mk.inj key
    exact flush.legal rested legal
  · apply legal.of_subset fun event member _ => flush.events event member
    · intro row member same
      exact (flush.attendance row (same ▸ key)).mp member
    · intro plan member same
      exact (flush.plans plan (same ▸ key)).mp member

theorem Transition.legal (rested : Rested zone db) (transition : Transition zone clock db next writes)
    (keeps : ∀ time ∈ writes, dateOf (zone.toWall time.utc) = date → zone.KeepsDay time)
    (legal : DayLegal db employmentId date) : DayLegal next employmentId date := by
  cases transition with
  | facts changed =>
    cases changed with
    | nothing same => exact same ▸ legal
    | events committed =>
      obtain ⟨employment, changed, -⟩ := committed.changed rested
      exact changed.legal keeps legal
    | day committed =>
      obtain ⟨employment, day, flushed, flush, frame, -⟩ := committed.changed rested
      rw [frame]
      exact (flush.legalDay rested legal).of_subset (fun _ member _ => member) (fun _ member _ => member)
        (fun _ member _ => member)
  | months committed =>
    rw [(committed.changed rested).frame]
    exact legal.of_subset (fun _ member _ => member) (fun _ member _ => member) (fun _ member _ => member)
  | hired committed =>
    obtain ⟨employment, -, frame, -⟩ := committed.changed rested
    rw [frame]
    exact legal.of_subset (fun _ member _ => member) (fun _ member _ => member) (fun _ member _ => member)
  | revised committed =>
    obtain ⟨employment, updated, flushed, revision, frame, -⟩ := committed.changed rested
    rw [frame]
    exact legal.of_subset (fun event member _ => (revision.events event member).1)
      (fun row member _ => (revision.attendance row member).1) (fun plan member _ => (revision.plans plan member).1)

end Steps

section Exclusive

/-- What a day may hold, in terms of its rows. -/
structure DayExclusive (db : Db) (employmentId date : Int) : Prop where
  unworked : (∃ row ∈ db.attendance, row.key = (employmentId, date) ∧ row.status ≠ none) ∨
      (∃ plan ∈ db.shiftPlans, plan.key = (employmentId, date) ∧ plan.status ≠ none) →
    ∀ event ∈ db.events, event.employmentId = employmentId → event.occurredAt.date ≠ date
  unplanned : ∀ row ∈ db.attendance, row.key = (employmentId, date) → row.status ≠ none →
    ∀ plan ∈ db.shiftPlans, plan.key ≠ (employmentId, date)
  timeless : ∀ plan ∈ db.shiftPlans, plan.key = (employmentId, date) → plan.status ≠ none →
    plan.arrivalTime = none ∧ plan.departureTime = none
  leaves : ∀ row ∈ db.attendance, row.key = (employmentId, date) →
    row.status ∈ [none, some .sickness, some .paragraph]
  daysOff : ∀ plan ∈ db.shiftPlans, plan.key = (employmentId, date) → plan.status ∈ [none, some .holiday, some .off]

theorem DayLegal.exclusive {db : Db} {employmentId date : Int} (legal : DayLegal db employmentId date) :
    DayExclusive db employmentId date := by
  have read {row : Attendance} (member : row ∈ db.attendance) (key : row.key = (employmentId, date)) :
      getAttendanceDay db employmentId date = some row := Table.get_eq_some_iff.mpr ⟨member, key⟩
  have read' {plan : ShiftPlan} (member : plan ∈ db.shiftPlans) (key : plan.key = (employmentId, date)) :
      getShiftPlanDay db employmentId date = some plan := Table.get_eq_some_iff.mpr ⟨member, key⟩
  refine ⟨?_, ?_, ?_, ?_, ?_⟩
  · intro status event member owner today
    have quiet := legal.worked event member owner today
    have absent := legal.attendance_status quiet
    rcases status with ⟨row, held, key, -⟩ | ⟨plan, held, key, given⟩
    · cases absent.symm.trans (read held key)
    · rw [getDayStatus, absent, read' held key] at quiet
      exact given quiet
  · intro row member key _ plan held key'
    rcases legal.single with none | none
    · cases none.symm.trans (read member key)
    · cases none.symm.trans (read' held key')
  · intro plan member key given
    obtain ⟨status, given⟩ := Option.ne_none_iff_exists'.mp given
    exact (legal.plan plan (read' member key) status given).2
  · intro row member key
    rcases legal.attendance row (read member key) with leave | leave <;> simp [leave]
  · intro plan member key
    cases given : plan.status with
    | none => simp
    | some status =>
      have plan := (legal.plan plan (read' member key) status given).1
      cases status with
      | holiday => simp
      | off => simp
      | sickness => cases plan
      | paragraph => cases plan

/-- Every time that an accepted request writes comes back on the day it was given for. -/
def WritesKeepDay (zone : Zone) (db : Db) (call : Call) : Prop :=
  ∀ next, call.request.handle zone call.clock db = .ok next →
    ∀ time ∈ Request.writes zone db call.request, zone.KeepsDay time

theorem blank_legal (users : Table PortalUser PortalUser.id) (employments : Table Employment Employment.id)
    (nextEmploymentId employmentId date : Int) : DayLegal (Db.blank users employments nextEmploymentId) employmentId date := by
  refine ⟨?_, ?_, .inl rfl, ?_⟩
  · intro row found
    cases found
  · intro plan found
    cases found
  · intro event member
    cases member

/-- In every state that such requests reach from a database without records, every day is exclusive. -/
theorem run_day_exclusivity (zone : Zone) (users : Table PortalUser PortalUser.id)
    (employments : Table Employment Employment.id) (nextEmploymentId : Int) (calls : List Call)
    (keeps : RunMeets zone (WritesKeepDay zone) (Db.blank users employments nextEmploymentId) calls)
    (employmentId date : Int) :
    DayExclusive (run zone (Db.blank users employments nextEmploymentId) calls) employmentId date := by
  have start := (blank_contained zone users employments nextEmploymentId).1.1
  have invariant : Rested zone (run zone (Db.blank users employments nextEmploymentId) calls) ∧
      DayLegal (run zone (Db.blank users employments nextEmploymentId) calls) employmentId date := by
    refine run_keeps (fun db => Rested zone db ∧ DayLegal db employmentId date)
      ⟨start, blank_legal users employments nextEmploymentId employmentId date⟩ keeps ?_
    intro db call next holds keeps done
    have transition := transition_of_handle done
    exact ⟨transition.rested holds.1, transition.legal holds.1 (fun time member _ => keeps next done time member) holds.2⟩
  exact invariant.2.exclusive

/-- A morning of work on 5 August 2026, then a holiday on the next day. -/
def sampleShift : List Call :=
  [⟨sampleClock, .adminCreateEvent ⟨1, sampleMorning, some (.aware (midnight 739833 + 600 * minute))⟩⟩,
    ⟨sampleClock, .adminUpsertDayStatus ⟨1, "2026-08-06", some "HOLIDAY", false⟩⟩]

theorem sample_day_exclusivity :
    DayExclusive (run sampleZone (Db.blank sampleDb.users sampleDb.employments 2) sampleShift) 1 (ordinal 2026 8 6) := by
  refine run_day_exclusivity sampleZone sampleDb.users sampleDb.employments 2 sampleShift ⟨?_, ?_, trivial⟩ 1 _
  · intro _ _
    decide +kernel
  · intro _ _ time written
    cases written

/-- Prague in 1916, when the last hour of 30 April was skipped. -/
def zone1916 : Zone := pragueSpring april1916 (.inr rfl)

def employment1916 : Employment := ⟨1, 1, .dppDpc, {}, ordinal 1916 1 1, none⟩

def db1916 : Db := Db.blank sampleDb.users ⟨[employment1916], by decide⟩ 2

/-- A day off on 1 May, then an event half past eleven in the evening before. -/
def calls1916 : List Call :=
  [⟨sampleClock, .adminUpsertDayStatus ⟨1, "1916-05-01", some "OFF", false⟩⟩,
    ⟨sampleClock, .adminCreateEvent ⟨1, .naive (midnight (ordinal 1916 4 30) + 1410 * minute), none⟩⟩]

/-- The event is checked for 30 April and comes back on the day off. -/
theorem skipped_hour_breaks_exclusivity : ¬ DayExclusive (run zone1916 db1916 calls1916) 1 (ordinal 1916 5 1) := by
  have off : ((run zone1916 db1916 calls1916).shiftPlans.rows.any fun plan =>
      plan.key = (1, ordinal 1916 5 1) ∧ plan.status ≠ none) = true := by decide +kernel
  have worked : ((run zone1916 db1916 calls1916).events.rows.any fun event =>
      event.employmentId = 1 ∧ event.occurredAt.date = ordinal 1916 5 1) = true := by decide +kernel
  obtain ⟨plan, held, given⟩ := List.any_eq_true.mp off
  obtain ⟨event, member, today⟩ := List.any_eq_true.mp worked
  rw [decide_eq_true_eq] at given today
  intro exclusive
  exact exclusive.unworked (.inr ⟨plan, held, given⟩) event member today.1 today.2

end Exclusive

end Dagmar.Proofs
