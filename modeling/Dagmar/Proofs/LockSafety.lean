import Dagmar.Proofs.DayExclusivity

/-! A locked month keeps its rows. Locks are for months from 1917 on, where a time
never changes its day; there every attendance row carries a status, so a request
that touches one always checks the attendance lock. -/

namespace Dagmar.Proofs
open Library Library.Calendar Library.Outcome

/-- What lock safety rests on in a state. -/
structure Lockable (zone : Zone) (db : Db) : Prop where
  rested : Rested zone db
  modern : ∀ lockType, ∀ row ∈ db.locks lockType, Modern row.year row.month
  legal : ∀ employmentId date, ordinal 1917 1 1 ≤ date → DayLegal db employmentId date

section Reachable
variable {zone : Zone} {clock : Clock} {db next : Db} {writes : List Timestamp}

theorem Transition.modern (rested : Rested zone db) (transition : Transition zone clock db next writes)
    (modern : ∀ lockType, ∀ row ∈ db.locks lockType, Modern row.year row.month) :
    ∀ lockType, ∀ row ∈ next.locks lockType, Modern row.year row.month := by
  have same (locks : ∀ lockType, next.locks lockType = db.locks lockType) :
      ∀ lockType, ∀ row ∈ next.locks lockType, Modern row.year row.month := by
    intro lockType row member
    exact modern lockType row (locks lockType ▸ member)
  cases transition with
  | facts changed =>
    cases changed with
    | nothing same => exact same ▸ modern
    | events committed =>
      obtain ⟨employment, changed, -⟩ := committed.changed rested
      apply same
      intro lockType
      rw [changed.frame]
      cases lockType <;> rfl
    | day committed =>
      obtain ⟨employment, date, flushed, flush, frame, -⟩ := committed.changed rested
      apply same
      intro lockType
      rw [frame, flush.frame]
      cases lockType <;> rfl
  | months committed =>
    intro lockType row member
    rcases (committed.changed rested).locks lockType row member with old | new
    · exact modern lockType row old
    · exact new.2
  | hired committed =>
    obtain ⟨employment, -, frame, -⟩ := committed.changed rested
    apply same
    intro lockType
    rw [frame]
    cases lockType <;> rfl
  | revised committed =>
    obtain ⟨employment, updated, flushed, revision, frame, -⟩ := committed.changed rested
    intro lockType row member
    apply modern lockType row
    apply (revision.locks lockType row _).1
    rw [frame] at member
    cases lockType <;> exact member

theorem lockable_step {call : Call} (holds : Lockable zone db) (done : call.request.handle zone call.clock db = .ok next) :
    Lockable zone next := by
  have transition := transition_of_handle done
  refine ⟨transition.rested holds.rested, transition.modern holds.rested holds.modern, ?_⟩
  intro employmentId date late
  refine transition.legal holds.rested ?_ (holds.legal employmentId date late)
  intro time written back
  exact (placed_writes zone db call.request time written).keepsDay (back ▸ late)

theorem run_lockable (zone : Zone) (users : Table PortalUser PortalUser.id) (employments : Table Employment Employment.id)
    (nextEmploymentId : Int) (calls : List Call) :
    Lockable zone (run zone (Db.blank users employments nextEmploymentId) calls) := by
  apply run_always (Lockable zone)
  · refine ⟨(blank_contained zone users employments nextEmploymentId).1.1, ?_, ?_⟩
    · intro lockType row member
      cases lockType <;> cases member
    · intro employmentId date _
      exact blank_legal users employments nextEmploymentId employmentId date
  · exact fun db call next holds done => lockable_step holds done

end Reachable

section Locked
variable {zone : Zone} {clock : Clock} {db next : Db} {writes : List Timestamp} {employmentId : Int} {month : Int × Nat}

/-- The days of a locked month lie in or after 1917. -/
theorem locked_late (modern : ∀ lockType, ∀ row ∈ db.locks lockType, Modern row.year row.month) {lockType : LockType}
    (locked : isMonthLocked db lockType employmentId month) {date : Int} (inside : yearMonth date = month) :
    ordinal 1917 1 1 ≤ date := by
  obtain ⟨row, stored⟩ := Option.ne_none_iff_exists'.mp locked
  obtain ⟨member, key⟩ := Table.get_eq_some_iff.mp stored
  simp only [MonthLock.key, Prod.mk.injEq] at key
  have first := (modern lockType row member).1
  have begins := firstDay_le date
  rw [key.2.1, key.2.2, ← inside] at first
  exact le_trans first begins

/-- No row of a locked month is added, removed or changed. -/
structure KeepsLocked (db next : Db) (employmentId : Int) (month : Int × Nat) : Prop where
  events : isMonthLocked db .attendance employmentId month → ∀ event : AttendanceEvent,
    event.employmentId = employmentId → yearMonth event.occurredAt.date = month → (event ∈ next.events ↔ event ∈ db.events)
  attendance : isMonthLocked db .attendance employmentId month → ∀ row : Attendance,
    row.employmentId = employmentId → yearMonth row.date = month → (row ∈ next.attendance ↔ row ∈ db.attendance)
  plans : isMonthLocked db .shiftPlan employmentId month → ∀ plan : ShiftPlan,
    plan.employmentId = employmentId → yearMonth plan.date = month → (plan ∈ next.shiftPlans ↔ plan ∈ db.shiftPlans)

theorem KeepsLocked.refl (db : Db) : KeepsLocked db db employmentId month :=
  ⟨fun _ _ _ _ => Iff.rfl, fun _ _ _ _ => Iff.rfl, fun _ _ _ _ => Iff.rfl⟩

theorem EventsChanged.keepsLocked (modern : ∀ lockType, ∀ row ∈ db.locks lockType, Modern row.year row.month)
    {employment : Employment} (placed : ∀ time ∈ writes, Placed zone time) (changed : EventsChanged zone clock db next writes employment) :
    KeepsLocked db next employmentId month := by
  refine ⟨?_, ?_, ?_⟩
  · intro locked event owner inside
    constructor
    · intro member
      by_contra fresh
      obtain ⟨owned, time, written, read, unlocked, -, -⟩ := changed.added event member fresh
      have back : event.occurredAt.date = dateOf (zone.toWall time.utc) := by
        rw [read]
        rfl
      have late := locked_late modern locked inside
      rw [back] at late
      have same : dateOf (zone.toWall time.utc) = time.date := (placed time written).keepsDay late
      rw [← same, ← back, inside, ← owned, owner] at unlocked
      exact unlocked locked
    · intro member
      by_contra missing
      obtain ⟨owned, unlocked⟩ := changed.removed event member missing
      rw [inside, ← owned, owner] at unlocked
      exact unlocked locked
  · intro _ row _ _
    rw [changed.frame]
  · intro _ plan _ _
    rw [changed.frame]

theorem DayFlush.keepsLocked (modern : ∀ lockType, ∀ row ∈ db.locks lockType, Modern row.year row.month) {flushed : Db}
    {employment : Employment} {date : Int} (legal : ordinal 1917 1 1 ≤ date → DayLegal db employment.id date)
    (flush : DayFlush zone clock db flushed employment date) : KeepsLocked db flushed employmentId month := by
  refine ⟨?_, ?_, ?_⟩
  · intro locked event owner inside
    refine ⟨flush.events event, ?_⟩
    intro member
    by_contra missing
    obtain ⟨owned, today, unlocked⟩ := flush.removed event member missing
    rw [← today, inside, ← owned, owner] at unlocked
    exact unlocked locked
  · intro locked row owner inside
    by_cases key : row.key = (employment.id, date)
    · obtain ⟨owned, today⟩ := Prod.mk.inj key
      have late := locked_late modern locked inside
      rw [today] at late inside
      rw [← owner, owned, ← inside] at locked
      have same : getAttendanceDay flushed employment.id date = getAttendanceDay db employment.id date := by
        by_contra changed
        exact flush.attendanceUnlocked changed (legal late).attendance locked
      constructor
      · intro member
        have found : getAttendanceDay flushed employment.id date = some row := Table.get_eq_some_iff.mpr ⟨member, key⟩
        exact (Table.get_eq_some_iff.mp (same ▸ found)).1
      · intro member
        have found : getAttendanceDay db employment.id date = some row := Table.get_eq_some_iff.mpr ⟨member, key⟩
        exact (Table.get_eq_some_iff.mp (same.symm ▸ found)).1
    · exact flush.attendance row key
  · intro locked plan owner inside
    by_cases key : plan.key = (employment.id, date)
    · obtain ⟨owned, today⟩ := Prod.mk.inj key
      rw [today] at inside
      rw [← owner, owned, ← inside] at locked
      have same : getShiftPlanDay flushed employment.id date = getShiftPlanDay db employment.id date := by
        by_contra changed
        exact flush.plansUnlocked changed locked
      constructor
      · intro member
        have found : getShiftPlanDay flushed employment.id date = some plan := Table.get_eq_some_iff.mpr ⟨member, key⟩
        exact (Table.get_eq_some_iff.mp (same ▸ found)).1
      · intro member
        have found : getShiftPlanDay db employment.id date = some plan := Table.get_eq_some_iff.mpr ⟨member, key⟩
        exact (Table.get_eq_some_iff.mp (same.symm ▸ found)).1
    · exact flush.plans plan key

/-- A request about facts keeps the locked months of a state that is legal for its employment. -/
theorem factChange_keepsLocked {request : Request} {subject : Int} (rested : Rested zone db)
    (modern : ∀ lockType, ∀ row ∈ db.locks lockType, Modern row.year row.month)
    (legal : ∀ date, ordinal 1917 1 1 ≤ date → DayLegal db subject date)
    (change : FactChange zone clock db next subject (Request.writes zone db request)) :
    KeepsLocked db next employmentId month := by
  cases change with
  | nothing same => exact same ▸ KeepsLocked.refl db
  | events committed =>
    obtain ⟨employment, changed, -⟩ := committed.changed rested
    exact changed.keepsLocked modern (placed_writes zone db request)
  | day committed =>
    obtain ⟨employment, date, flushed, flush, frame, rfl⟩ := committed.changed rested
    rw [frame]
    have kept : KeepsLocked db flushed employmentId month := flush.keepsLocked modern (legal date)
    exact ⟨kept.events, kept.attendance, kept.plans⟩

/-- In every reachable state, a request about events, plans or statuses leaves the
events and attendance rows of an attendance-locked month and the plans of a
plan-locked month as they are. -/
theorem locked_months_unchanged (zone : Zone) (users : Table PortalUser PortalUser.id)
    (employments : Table Employment Employment.id) (nextEmploymentId : Int) (calls : List Call) (call : Call)
    (facts : Request.OfFacts call.request) (employmentId : Int) (month : Int × Nat) :
    KeepsLocked (run zone (Db.blank users employments nextEmploymentId) calls)
      (step zone (run zone (Db.blank users employments nextEmploymentId) calls) call) employmentId month := by
  have lockable := run_lockable zone users employments nextEmploymentId calls
  generalize run zone (Db.blank users employments nextEmploymentId) calls = db at lockable
  apply step_keeps fun next => KeepsLocked db next employmentId month
  · exact KeepsLocked.refl db
  intro next done
  obtain ⟨subject, -, change⟩ := factChange_of_handle done facts
  exact factChange_keepsLocked lockable.rested lockable.modern (lockable.legal subject) change

/-- August 2026 is locked for attendance. -/
def sampleLock : List Call :=
  [⟨sampleClock, .setLocks (some "admin") ⟨.attendance, some 2026, some 8, [], true, [1]⟩⟩]

theorem sample_locked_month :
    isMonthLocked (run sampleZone (Db.blank sampleDb.users sampleDb.employments 2) sampleLock) .attendance 1 (2026, 8) ∧
      KeepsLocked (run sampleZone (Db.blank sampleDb.users sampleDb.employments 2) sampleLock)
        (step sampleZone (run sampleZone (Db.blank sampleDb.users sampleDb.employments 2) sampleLock)
          ⟨sampleClock, .adminCreateEvent ⟨1, sampleMorning, none⟩⟩) 1 (2026, 8) :=
  ⟨by decide +kernel, locked_months_unchanged sampleZone sampleDb.users sampleDb.employments 2 sampleLock
    ⟨sampleClock, .adminCreateEvent ⟨1, sampleMorning, none⟩⟩ trivial 1 (2026, 8)⟩

end Locked

end Dagmar.Proofs
