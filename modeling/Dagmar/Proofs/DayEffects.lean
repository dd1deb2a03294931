import Dagmar.Proofs.EventEffects

/-! What a successful plan or status request does to the database: the facts of
one employment change on one day, which lies in its period; rows of a kind change
only where their month is not locked; and a day that kept the rules keeps them. -/

namespace Dagmar.Proofs
open Library Library.Calendar Library.Outcome Library.Pairing

section Rules

/-- Every event reads as its stored instant does. -/
def Rested (zone : Zone) (db : Db) : Prop := ∀ event ∈ db.events, zone.Settled event.occurredAt

/-- An attendance row always carries sickness or care leave. -/
def Attendance.OnLeave (row : Attendance) : Prop := row.status = some .sickness ∨ row.status = some .paragraph

/-- The rules of one day of an employment. -/
structure DayLegal (db : Db) (employmentId date : Int) : Prop where
  attendance : ∀ row ∈ getAttendanceDay db employmentId date, Attendance.OnLeave row
  plan : ∀ plan ∈ getShiftPlanDay db employmentId date, ∀ status ∈ plan.status,
    status.isPlan ∧ plan.arrivalTime = none ∧ plan.departureTime = none
  single : getAttendanceDay db employmentId date = none ∨ getShiftPlanDay db employmentId date = none
  worked : ∀ event ∈ db.events, event.employmentId = employmentId → event.occurredAt.date = date →
    getDayStatus db employmentId date = none

/-- The facts of an employment after the flush of a request about one day. -/
structure DayFlush (zone : Zone) (clock : Clock) (db flushed : Db) (employment : Employment) (date : Int) : Prop where
  stored : db.employments.get employment.id = some employment
  active : lockedEmploymentHasActiveUser zone clock db employment
  valid : employmentIsValidOnDay employment date
  frame : flushed =
    { db with events := flushed.events, attendance := flushed.attendance, shiftPlans := flushed.shiftPlans }
  events : ∀ event ∈ flushed.events, event ∈ db.events
  removed : ∀ event ∈ db.events, event ∉ flushed.events → event.employmentId = employment.id ∧
    event.occurredAt.date = date ∧ ¬ isMonthLocked db .attendance employment.id (yearMonth date)
  attendance : ∀ row : Attendance, row.key ≠ (employment.id, date) → (row ∈ flushed.attendance ↔ row ∈ db.attendance)
  plans : ∀ plan : ShiftPlan, plan.key ≠ (employment.id, date) → (plan ∈ flushed.shiftPlans ↔ plan ∈ db.shiftPlans)
  attendanceUnlocked : getAttendanceDay flushed employment.id date ≠ getAttendanceDay db employment.id date →
    (∀ row ∈ getAttendanceDay db employment.id date, Attendance.OnLeave row) →
      ¬ isMonthLocked db .attendance employment.id (yearMonth date)
  plansUnlocked : getShiftPlanDay flushed employment.id date ≠ getShiftPlanDay db employment.id date →
    ¬ isMonthLocked db .shiftPlan employment.id (yearMonth date)
  legal : Rested zone db → DayLegal db employment.id date → DayLegal flushed employment.id date

/-- The request flushed a change of one day of an employment, wrote the metrics of its month at least and committed. -/
def DayCommit (zone : Zone) (clock : Clock) (db next : Db) (employmentId : Int) : Prop :=
  ∃ employment date flushed months synced, DayFlush zone clock db flushed employment date ∧
    yearMonth date ∈ months ∧ syncEmploymentMetricMonths flushed employment months = .ok synced ∧
    commit zone synced = next ∧ employment.id = employmentId

variable {db : Db} {employmentId date : Int}

/-- The conflicting events of a day are its events: a pair never leaves its day. -/
theorem mem_conflictingAttendanceEvents {event : AttendanceEvent} :
    event ∈ conflictingAttendanceEvents db employmentId date ↔
      event ∈ db.events ∧ event.employmentId = employmentId ∧ event.occurredAt.date = date := by
  have onDay (wall : Int) : midnight date ≤ wall ∧ wall < midnight (date + 1) ↔ dateOf wall = date := by
    rw [midnight_le_iff, lt_midnight_iff]
    omega
  simp only [conflictingAttendanceEvents, List.mem_filter, decide_eq_true_eq, onDay, Db.mem_eventsOf, and_assoc]
  constructor
  · intro conflict
    obtain ⟨member, owner, sameDay | ⟨pair, paired, before, after, ids⟩⟩ := conflict
    · exact ⟨member, owner, sameDay⟩
    · obtain ⟨first, second, below, oneDay⟩ := pair_sameDay paired
      rw [Db.mem_eventsOf] at first second
      have today : pair.1.occurredAt.date = date ∧ pair.2.occurredAt.date = date := by
        rw [lt_midnight_iff] at before
        have : date ≤ pair.2.occurredAt.date := (midnight_le_iff _ _).mp (le_of_lt after)
        simp only [Timestamp.date] at oneDay this ⊢
        omega
      refine ⟨member, owner, ?_⟩
      rcases ids with same | same
      · rw [db.events.key_inj member first.1 same]
        exact today.1
      · rw [db.events.key_inj member second.1 same]
        exact today.2
  · intro today
    exact ⟨today.1, today.2.1, .inl today.2.2⟩

/-- Only a day without an attendance status and without events has no attendance conflict. -/
theorem attendance_quiet (quiet : (dayStatusConflicts db employmentId date).attendanceExists = false) :
    (getAttendanceDay db employmentId date).bind Attendance.status = none ∧
      ∀ event ∈ db.events, event.employmentId = employmentId → event.occurredAt.date ≠ date := by
  simp only [dayStatusConflicts, Bool.or_eq_false_iff, Option.isSome_eq_false_iff, Option.isNone_iff_eq_none,
    decide_eq_false_iff_not, not_not] at quiet
  refine ⟨quiet.1, ?_⟩
  intro event member owner today
  have listed : event ∈ conflictingAttendanceEvents db employmentId date :=
    mem_conflictingAttendanceEvents.mpr ⟨member, owner, today⟩
  rw [quiet.2] at listed
  cases listed

theorem DayLegal.noAttendance (legal : DayLegal db employmentId date)
    (quiet : (getAttendanceDay db employmentId date).bind Attendance.status = none) :
    getAttendanceDay db employmentId date = none := by
  cases found : getAttendanceDay db employmentId date with
  | none => rfl
  | some row =>
    rw [found, Option.bind_some] at quiet
    rcases legal.attendance row found with leave | leave
    · cases quiet.symm.trans leave
    · cases quiet.symm.trans leave

theorem DayLegal.attendance_status (legal : DayLegal db employmentId date)
    (quiet : getDayStatus db employmentId date = none) : getAttendanceDay db employmentId date = none := by
  apply legal.noAttendance
  unfold getDayStatus at quiet
  split at quiet
  · cases quiet
  next none => exact none

end Rules

section Plans
variable {zone : Zone} {clock : Clock} {db next : Db} {employment : Employment} {date : Int} {body : ShiftPlanUpsertIn}
  {times : Option ClockTime × Option ClockTime} {status : Option DayStatus}

/-- A plan table with lawful rows on the day keeps the day lawful. -/
theorem DayLegal.withPlans {employmentId : Int} (legal : DayLegal db employmentId date)
    (table : Table ShiftPlan ShiftPlan.key)
    (single : getAttendanceDay db employmentId date = none ∨ table.get (employmentId, date) = none)
    (rule : ∀ plan ∈ table.get (employmentId, date), ∀ status ∈ plan.status,
      (status.isPlan ∧ plan.arrivalTime = none ∧ plan.departureTime = none) ∧
        ∀ event ∈ db.events, event.employmentId = employmentId → event.occurredAt.date ≠ date) :
    DayLegal { db with shiftPlans := table } employmentId date := by
  refine ⟨legal.attendance, fun plan found status given => (rule plan found status given).1, single, ?_⟩
  intro event member owner today
  have absent := legal.attendance_status (legal.worked event member owner today)
  have same : getAttendanceDay { db with shiftPlans := table } employmentId date = none := absent
  rw [getDayStatus, same]
  cases found : table.get (employmentId, date) with
  | none => exact congrArg (Option.bind · ShiftPlan.status) found
  | some plan =>
    have read : getShiftPlanDay { db with shiftPlans := table } employmentId date = some plan := found
    cases given : plan.status with
    | none => simp [read, given]
    | some status => exact absurd today ((rule plan found status given).2 event member owner)

/-- A request that rewrites the plan of the day and nothing else. -/
theorem planFlush (stored : db.employments.get employment.id = some employment)
    (active : lockedEmploymentHasActiveUser zone clock db employment) (valid : employmentIsValidOnDay employment date)
    (table : Table ShiftPlan ShiftPlan.key)
    (others : ∀ plan : ShiftPlan, plan.key ≠ (employment.id, date) → (plan ∈ table ↔ plan ∈ db.shiftPlans))
    (unlocked : table.get (employment.id, date) ≠ getShiftPlanDay db employment.id date →
      ¬ isMonthLocked db .shiftPlan employment.id (yearMonth date))
    (legal : DayLegal db employment.id date → DayLegal { db with shiftPlans := table } employment.id date) :
    DayFlush zone clock db { db with shiftPlans := table } employment date := by
  refine ⟨stored, active, valid, rfl, fun _ member => member, ?_, fun _ _ => Iff.rfl, others, ?_, unlocked, fun _ => legal⟩
  · intro event member missing
    exact absurd member missing
  · intro changed
    exact absurd rfl changed

theorem planStatus_isPlan {text : Option String} {status : DayStatus}
    (pattern : checkStatusPattern [.holiday, .off] text = .ok ()) (read : normalizeDayStatus text = some (some status)) :
    status.isPlan := by
  rcases status_readings pattern with ⟨other, read', listed, named, -⟩ | ⟨unread, -⟩
  · obtain rfl : other = some status := Option.some.inj (read'.symm.trans read)
    simp only [List.mem_cons, List.not_mem_nil, or_false] at listed
    rcases listed with rfl | rfl | rfl
    · cases named
    · cases named
      rfl
    · cases named
      rfl
  · cases unread.symm.trans read

theorem collectDayStatusConflicts_ok {employmentId : Int} {conflicts : DayStatusConflicts}
    (done : collectDayStatusConflicts db employmentId date = .ok conflicts) :
    dayStatusConflicts db employmentId date = conflicts := by
  simp only [collectDayStatusConflicts, bind_eq_ok, pure_eq_ok] at done
  obtain ⟨_, -, same⟩ := done
  exact same

/-- What an accepted body asks to store keeps the rules of its day. -/
theorem PlanRequest.lawful (request : PlanRequest db employment body date times status)
    (legal : DayLegal db employment.id date) (given : ¬ (times.1 = none ∧ times.2 = none ∧ status = none)) :
    getAttendanceDay db employment.id date = none ∧ ∀ chosen ∈ status,
      (chosen.isPlan ∧ times.1 = none ∧ times.2 = none) ∧
        ∀ event ∈ db.events, event.employmentId = employment.id → event.occurredAt.date ≠ date := by
  obtain ⟨arrival, departure, -, -, -, planned⟩ := request.planned
  have read := request.read
  cases status with
  | some chosen =>
    simp only [Portal.plannedTimes, bind_eq_ok, raiseIf_eq_ok, pure_eq_ok] at planned
    obtain ⟨conflicts, collected, -, quiet, -, -, rfl⟩ := planned
    rw [← collectDayStatusConflicts_ok collected, Bool.not_eq_true] at quiet
    obtain ⟨noStatus, noEvents⟩ := attendance_quiet quiet
    refine ⟨legal.noAttendance noStatus, ?_⟩
    intro other same
    obtain rfl := Option.some.inj same
    exact ⟨⟨planStatus_isPlan request.pattern read, rfl, rfl⟩, noEvents⟩
  | none =>
    refine ⟨?_, fun _ impossible => by cases impossible⟩
    cases blocked : getDayStatus db employment.id date with
    | none => exact legal.attendance_status blocked
    | some other =>
      simp only [Portal.plannedTimes, blocked, bind_eq_ok, raiseIf_eq_ok, pure_eq_ok, not_or, not_not] at planned
      obtain ⟨_, ⟨noArrival, noDeparture⟩, rfl⟩ := planned
      exact absurd ⟨noArrival, noDeparture, rfl⟩ given

theorem planWrite_commit {instanceId : Option String} (stored : db.employments.get employment.id = some employment)
    (active : lockedEmploymentHasActiveUser zone clock db employment)
    (request : PlanRequest db employment body date times status)
    (written : planWrite zone db employment date times.1 times.2 status instanceId = .ok next) :
    db = next ∨ DayCommit zone clock db next employment.id := by
  by_cases empty : times.1 = none ∧ times.2 = none ∧ status = none
  · rw [planWrite, if_pos empty] at written
    cases existing : getShiftPlanDay db employment.id date with
    | none =>
      rw [existing, pure_eq_ok] at written
      exact .inl written
    | some plan =>
      rw [existing] at written
      simp only [bind_eq_ok, pure_eq_ok] at written
      obtain ⟨synced, done, rfl⟩ := written
      obtain ⟨-, owner, today⟩ := getShiftPlanDay_date existing
      have key : plan.key = (employment.id, date) := Prod.ext owner today
      have gone : (db.shiftPlans.deleteWhere (·.key = plan.key)).get (employment.id, date) = none := by
        rw [Table.get_deleteKey, if_pos key]
      refine .inr ⟨employment, date, _, _, synced,
        planFlush stored active request.valid (db.shiftPlans.deleteWhere (·.key = plan.key)) ?_
          (fun _ => request.unlocked) ?_, List.mem_singleton.mpr rfl, done, rfl, rfl⟩
      · intro other different
        rw [Table.mem_deleteWhere, key, and_iff_left different]
      · intro legal
        apply legal.withPlans _ (.inr gone)
        intro other found
        cases gone.symm.trans found
  · simp only [planWrite, if_neg empty, flushPlan, bind_eq_ok, raiseIf_eq_ok, pure_eq_ok] at written
    obtain ⟨_, ⟨_, -, rfl⟩, synced, done, rfl⟩ := written
    let plan : ShiftPlan := ⟨employment.id, date, times.1, times.2, status, instanceId⟩
    have put : (db.shiftPlans.put plan).get (employment.id, date) = some plan := Table.get_put_self _ rfl
    refine .inr ⟨employment, date, _, _, synced, planFlush stored active request.valid (db.shiftPlans.put plan) ?_
      (fun _ => request.unlocked) ?_, List.mem_singleton.mpr rfl, done, rfl, rfl⟩
    · exact fun other different => Table.mem_put_of_ne rfl different
    · intro legal
      obtain ⟨absent, lawful⟩ := request.lawful legal empty
      apply legal.withPlans _ (.inl absent)
      intro other found chosen given
      obtain rfl : plan = other := Option.some.inj (put.symm.trans found)
      exact lawful chosen given

/-- What an accepted portal upsert asked for, and that it was written. -/
theorem portalPlan_request {auth : PortalUserAuth} (done : Portal.upsertShiftPlan zone clock db auth body = .ok next) :
    ∃ employment date times status, db.employments.get body.employmentId = some employment ∧
      lockedEmploymentHasActiveUser zone clock db employment ∧ PlanRequest db employment body date times status ∧
      planWrite zone db employment date times.1 times.2 status (some auth.instanceId) = .ok next := by
  have accepted := done
  simp only [Portal.upsertShiftPlan, Portal.requireActiveEmploymentForEdit, bind_eq_ok, raiseIf_eq_ok,
    portalEmployment_eq_ok, lockEmploymentForTimeMutation_eq_ok, not_not] at accepted
  obtain ⟨-, -, -, -, employment, ⟨found, owner, -⟩, again, stored, -, active, -⟩ := accepted
  obtain rfl : employment = again := Option.some.inj ((employment_again found).1.symm.trans stored)
  obtain ⟨date, times, status, request, written⟩ := (portalUpsert_ok found owner active).mp done
  exact ⟨employment, date, times, status, found, active, request, written⟩

theorem adminPlan_request (done : Admin.upsertShiftPlanImpl zone clock db body = .ok next) :
    ∃ employment date times status, db.employments.get body.employmentId = some employment ∧
      lockedEmploymentHasActiveUser zone clock db employment ∧ PlanRequest db employment body date times status ∧
      planWrite zone db employment date times.1 times.2 status (adminInstance db employment date) = .ok next := by
  have accepted := done
  simp only [Admin.upsertShiftPlanImpl, Admin.editableEmployment, bind_eq_ok, raiseIf_eq_ok, require_eq_ok, pure_eq_ok,
    lockEmploymentForTimeMutation_eq_ok, not_not] at accepted
  obtain ⟨-, -, -, -, _, ⟨employment, found, again, stored, -, active, rfl⟩, -⟩ := accepted
  obtain rfl : employment = again := Option.some.inj ((employment_again found).1.symm.trans stored)
  obtain ⟨date, times, status, request, written⟩ := (adminUpsert_ok found active).mp done
  exact ⟨employment, date, times, status, found, active, request, written⟩

theorem portalPlan_commit {auth : PortalUserAuth} (done : Portal.upsertShiftPlan zone clock db auth body = .ok next) :
    db = next ∨ DayCommit zone clock db next body.employmentId := by
  obtain ⟨employment, date, times, status, found, active, request, written⟩ := portalPlan_request done
  obtain ⟨stored, same, -⟩ := employment_again found
  rw [← same]
  exact planWrite_commit stored active request written

theorem adminPlan_commit (done : Admin.upsertShiftPlanImpl zone clock db body = .ok next) :
    db = next ∨ DayCommit zone clock db next body.employmentId := by
  obtain ⟨employment, date, times, status, found, active, request, written⟩ := adminPlan_request done
  obtain ⟨stored, same, -⟩ := employment_again found
  rw [← same]
  exact planWrite_commit stored active request written

end Plans

section Statuses
variable {zone : Zone} {clock : Clock} {db next flushed : Db} {employment : Employment} {date : Int}
  {conflicts : DayStatusConflicts} {instanceId : Option String} {confirm : Bool}

/-- Clearing the plan status of a day leaves its plan without a status, or no plan. -/
theorem clearPlan_ok (done : setShiftPlanStatus db employment date none confirm instanceId = .ok (conflicts, flushed)) :
    ∃ table, { db with shiftPlans := table } = flushed ∧
      (∀ plan : ShiftPlan, plan.key ≠ (employment.id, date) → (plan ∈ table ↔ plan ∈ db.shiftPlans)) ∧
      (getShiftPlanDay db employment.id date = none → table.get (employment.id, date) = none) ∧
      ∀ plan ∈ table.get (employment.id, date), plan.status = none := by
  cases existing : getShiftPlanDay db employment.id date with
  | none =>
    simp [setShiftPlanStatus, existing] at done
    refine ⟨db.shiftPlans, done.2, fun _ _ => Iff.rfl, fun _ => existing, ?_⟩
    intro plan found
    cases existing.symm.trans found
  | some plan =>
    obtain ⟨-, owner, today⟩ := getShiftPlanDay_date existing
    have key : plan.key = (employment.id, date) := Prod.ext owner today
    by_cases blank : plan.arrivalTime = none ∧ plan.departureTime = none
    · simp [setShiftPlanStatus, existing, blank] at done
      have gone : (db.shiftPlans.deleteWhere (·.key = plan.key)).get (employment.id, date) = none := by
        rw [Table.get_deleteKey, if_pos key]
      refine ⟨db.shiftPlans.deleteWhere (·.key = plan.key), done.2, ?_, fun _ => gone, ?_⟩
      · intro other different
        rw [Table.mem_deleteWhere, key, and_iff_left different]
      · intro other found
        cases gone.symm.trans found
    · simp [setShiftPlanStatus, existing, blank] at done
      have put := Table.get_put_self db.shiftPlans (show ShiftPlan.key { plan with status := none, instanceId := instanceId } =
        (employment.id, date) from key)
      refine ⟨_, done.2, fun other different => Table.mem_put_of_ne key different, (fun impossible => by cases impossible), ?_⟩
      intro other found
      obtain rfl := Option.some.inj (put.symm.trans found)
      rfl

/-- Clearing the attendance status of a day leaves no row, unless events are stored for the day. -/
theorem clearAttendance_ok
    (done : setAttendanceStatus zone db employment date none confirm instanceId = .ok (conflicts, flushed)) :
    ∃ table, { db with attendance := table } = flushed ∧
      (∀ row : Attendance, row.key ≠ (employment.id, date) → (row ∈ table ↔ row ∈ db.attendance)) ∧
      (getAttendanceDay db employment.id date = none → table.get (employment.id, date) = none) ∧
      (¬ hasEventOnDay zone db employment.id date → table.get (employment.id, date) = none) := by
  cases existing : getAttendanceDay db employment.id date with
  | none =>
    simp [setAttendanceStatus, existing] at done
    exact ⟨db.attendance, done.2, fun _ _ => Iff.rfl, fun _ => existing, fun _ => existing⟩
  | some row =>
    have key : row.key = (employment.id, date) := (Table.get_eq_some_iff.mp existing).2
    by_cases worked : hasEventOnDay zone db employment.id date
    · simp [setAttendanceStatus, existing, worked] at done
      exact ⟨_, done.2, fun other different => Table.mem_put_of_ne key different, (fun impossible => by cases impossible),
        fun quiet => absurd worked quiet⟩
    · simp [setAttendanceStatus, existing, worked] at done
      have gone : (db.attendance.deleteWhere (·.key = row.key)).get (employment.id, date) = none := by
        rw [Table.get_deleteKey, if_pos key]
      refine ⟨_, done.2, ?_, (fun impossible => by cases impossible), fun _ => gone⟩
      intro other different
      rw [Table.mem_deleteWhere, key, and_iff_left different]

theorem Rested.hasEventOnDay (rested : Rested zone db) {employmentId : Int} : hasEventOnDay zone db employmentId date ↔
    ∃ event ∈ db.events, event.employmentId = employmentId ∧ event.occurredAt.date = date := by
  simp only [Dagmar.hasEventOnDay, Db.mem_eventsOf, ← zone.days, and_assoc]
  constructor
  · intro found
    obtain ⟨event, member, owner, today⟩ := found
    exact ⟨event, member, owner, (congrArg dateOf (rested event member)).symm.trans today⟩
  · intro found
    obtain ⟨event, member, owner, today⟩ := found
    exact ⟨event, member, owner, (congrArg dateOf (rested event member)).trans today⟩

/-- A new status replaces everything the day held. -/
def replacedDay (db : Db) (employment : Employment) (date : Int) (status : DayStatus) (instanceId : Option String) : Db :=
  let removed := conflictingAttendanceEvents db employment.id date
  let attendance := db.attendance.deleteWhere (·.key = (employment.id, date))
  let plans := db.shiftPlans.deleteWhere (·.key = (employment.id, date))
  if status.isPlan then
    let plan : ShiftPlan := ⟨employment.id, date, none, none, some status, instanceId⟩
    { db with
      events := db.events.deleteWhere (· ∈ removed), attendance := attendance, shiftPlans := db.shiftPlans.put plan }
  else
    let row : Attendance := ⟨employment.id, date, some status, instanceId⟩
    { db with
      events := db.events.deleteWhere (· ∈ removed), attendance := db.attendance.put row, shiftPlans := plans }

theorem replaceDayStatus_ok {status : DayStatus}
    (done : replaceDayStatus zone db employment date (some status) confirm instanceId = .ok (conflicts, flushed)) :
    dayStatusConflicts db employment.id date = conflicts ∧
      (conflicts.hasConflicts ∧ ¬ confirm ∨ replacedDay db employment date status instanceId = flushed) := by
  unfold replaceDayStatus at done
  dsimp only at done
  split at done
  next refused =>
    simp only [pure_eq_ok, Prod.mk.injEq] at done
    obtain ⟨rfl, rfl⟩ := done
    exact ⟨rfl, .inl refused.2.2⟩
  next accepted =>
    by_cases plan : status.isPlan
    · simp [plan, setShiftPlanStatus] at done
      refine ⟨done.1, .inr ?_⟩
      rw [replacedDay, if_pos plan]
      exact done.2
    · simp [plan, setAttendanceStatus] at done
      refine ⟨done.1, .inr ?_⟩
      rw [replacedDay, if_neg plan]
      exact done.2

theorem conflictingShiftPlans_ne_nil {plan : ShiftPlan} (found : getShiftPlanDay db employment.id date = some plan) :
    (dayStatusConflicts db employment.id date).shiftPlanExists = true := by
  obtain ⟨member, owner, today⟩ := getShiftPlanDay_date found
  have listed : plan ∈ conflictingShiftPlans db employment.id date := Table.mem_select.mpr ⟨member, owner, today⟩
  simp only [dayStatusConflicts, decide_eq_true_eq]
  exact List.ne_nil_of_mem listed

theorem attendanceExists_of_leave {row : Attendance} (found : getAttendanceDay db employment.id date = some row)
    (leave : Attendance.OnLeave row) : (dayStatusConflicts db employment.id date).attendanceExists = true := by
  simp only [dayStatusConflicts, found, Option.bind_some, Bool.or_eq_true]
  rcases leave with same | same <;> simp [same]

theorem attendanceExists_of_event {event : AttendanceEvent}
    (member : event ∈ conflictingAttendanceEvents db employment.id date) :
    (dayStatusConflicts db employment.id date).attendanceExists = true := by
  simp only [dayStatusConflicts, Bool.or_eq_true, decide_eq_true_eq]
  exact .inr (List.ne_nil_of_mem member)

/-- The events of a day are gone once its conflicts are deleted. -/
theorem gone_of_conflicts (event : AttendanceEvent)
    (member : event ∈ db.events.deleteWhere (· ∈ conflictingAttendanceEvents db employment.id date))
    (owner : event.employmentId = employment.id) : event.occurredAt.date ≠ date := by
  intro today
  obtain ⟨stored, kept⟩ := Table.mem_deleteWhere.mp member
  exact kept (mem_conflictingAttendanceEvents.mpr ⟨stored, owner, today⟩)

theorem replacedDay_legal (db : Db) (employment : Employment) (date : Int) (status : DayStatus) (instanceId : Option String) :
    DayLegal (replacedDay db employment date status instanceId) employment.id date := by
  have noAttendance : (db.attendance.deleteWhere (·.key = (employment.id, date))).get (employment.id, date) = none := by
    rw [Table.get_deleteKey, if_pos rfl]
  have noPlan : (db.shiftPlans.deleteWhere (·.key = (employment.id, date))).get (employment.id, date) = none := by
    rw [Table.get_deleteKey, if_pos rfl]
  unfold replacedDay
  dsimp only
  split
  next plan =>
    refine ⟨?_, ?_, .inl noAttendance, fun event member owner today => absurd today (gone_of_conflicts event member owner)⟩
    · intro row found
      cases noAttendance.symm.trans found
    · intro other found chosen given
      have put := Table.get_put_self db.shiftPlans
        (show ShiftPlan.key ⟨employment.id, date, none, none, some status, instanceId⟩ = (employment.id, date) from rfl)
      obtain rfl := Option.some.inj (put.symm.trans found)
      obtain rfl := Option.some.inj given
      exact ⟨plan, rfl, rfl⟩
  next leave =>
    refine ⟨?_, ?_, .inr noPlan, fun event member owner today => absurd today (gone_of_conflicts event member owner)⟩
    · intro row found
      have put := Table.get_put_self db.attendance
        (show Attendance.key ⟨employment.id, date, some status, instanceId⟩ = (employment.id, date) from rfl)
      obtain rfl := Option.some.inj (put.symm.trans found)
      cases status with
      | holiday => exact absurd rfl leave
      | off => exact absurd rfl leave
      | sickness => exact .inl rfl
      | paragraph => exact .inr rfl
    · intro plan found
      cases noPlan.symm.trans found

theorem replacedFlush {status : DayStatus} (stored : db.employments.get employment.id = some employment)
    (active : lockedEmploymentHasActiveUser zone clock db employment) (valid : employmentIsValidOnDay employment date)
    (attendanceOpen : ¬ status.isPlan ∨ (dayStatusConflicts db employment.id date).attendanceExists →
      ¬ isMonthLocked db .attendance employment.id (yearMonth date))
    (plansOpen : status.isPlan ∨ (dayStatusConflicts db employment.id date).shiftPlanExists →
      ¬ isMonthLocked db .shiftPlan employment.id (yearMonth date)) :
    DayFlush zone clock db (replacedDay db employment date status instanceId) employment date := by
  have legal := replacedDay_legal db employment date status instanceId
  have removed (event : AttendanceEvent) (member : event ∈ db.events)
      (missing : event ∉ db.events.deleteWhere (· ∈ conflictingAttendanceEvents db employment.id date)) :
      event.employmentId = employment.id ∧ event.occurredAt.date = date ∧
        ¬ isMonthLocked db .attendance employment.id (yearMonth date) := by
    rw [Table.mem_deleteWhere, not_and, not_not] at missing
    have conflict := missing member
    obtain ⟨-, owner, today⟩ := mem_conflictingAttendanceEvents.mp conflict
    exact ⟨owner, today, attendanceOpen (.inr (attendanceExists_of_event conflict))⟩
  have kept (row : Attendance) (different : row.key ≠ (employment.id, date)) :
      row ∈ db.attendance.deleteWhere (·.key = (employment.id, date)) ↔ row ∈ db.attendance := by
    rw [Table.mem_deleteWhere, and_iff_left different]
  have keptPlan (plan : ShiftPlan) (different : plan.key ≠ (employment.id, date)) :
      plan ∈ db.shiftPlans.deleteWhere (·.key = (employment.id, date)) ↔ plan ∈ db.shiftPlans := by
    rw [Table.mem_deleteWhere, and_iff_left different]
  unfold replacedDay at legal ⊢
  dsimp only at legal ⊢
  split at legal
  next plan =>
    rw [if_pos plan]
    refine ⟨stored, active, valid, rfl, fun event member => (Table.mem_deleteWhere.mp member).1, removed, kept,
      fun other different => Table.mem_put_of_ne rfl different, ?_, fun _ => plansOpen (.inl plan), fun _ _ => legal⟩
    intro changed leave
    cases found : getAttendanceDay db employment.id date with
    | none =>
      rw [found] at changed
      exact absurd (by rw [getAttendanceDay, Table.get_deleteKey, if_pos rfl]) changed
    | some row => exact attendanceOpen (.inr (attendanceExists_of_leave found (leave row found)))
  next leave =>
    rw [if_neg leave]
    refine ⟨stored, active, valid, rfl, fun event member => (Table.mem_deleteWhere.mp member).1, removed,
      fun other different => Table.mem_put_of_ne rfl different, keptPlan, fun _ _ => attendanceOpen (.inl leave), ?_,
      fun _ _ => legal⟩
    intro changed
    cases found : getShiftPlanDay db employment.id date with
    | none =>
      rw [found] at changed
      exact absurd (by rw [getShiftPlanDay, Table.get_deleteKey, if_pos rfl]) changed
    | some plan => exact plansOpen (.inr (conflictingShiftPlans_ne_nil found))

/-- A status of neither kind is left after both are cleared. -/
theorem clearedFlush {first second : DayStatusConflicts} {middle : Db}
    (stored : db.employments.get employment.id = some employment)
    (active : lockedEmploymentHasActiveUser zone clock db employment) (valid : employmentIsValidOnDay employment date)
    (attendanceOpen : (∃ row ∈ getAttendanceDay db employment.id date, Attendance.OnLeave row) →
      ¬ isMonthLocked db .attendance employment.id (yearMonth date))
    (plansOpen : getShiftPlanDay db employment.id date ≠ none → ¬ isMonthLocked db .shiftPlan employment.id (yearMonth date))
    (attendanceCleared : setAttendanceStatus zone db employment date none true instanceId = .ok (first, middle))
    (planCleared : setShiftPlanStatus middle employment date none true instanceId = .ok (second, flushed)) :
    DayFlush zone clock db flushed employment date := by
  obtain ⟨attendance, rfl, otherRows, keptNone, quiet⟩ := clearAttendance_ok attendanceCleared
  obtain ⟨plans, rfl, otherPlans, keptPlan, cleared⟩ := clearPlan_ok planCleared
  refine ⟨stored, active, valid, rfl, fun _ member => member, fun event member missing => absurd member missing,
    otherRows, otherPlans, ?_, ?_, ?_⟩
  · intro changed leave
    cases found : getAttendanceDay db employment.id date with
    | none => exact absurd ((keptNone found).trans found.symm) changed
    | some row => exact attendanceOpen ⟨row, found, leave row found⟩
  · intro changed
    apply plansOpen
    intro absent
    exact changed ((keptPlan absent).trans absent.symm)
  · intro rested legal
    -- A row of the day would carry a status, so no event is stored for it and the row goes.
    have gone : attendance.get (employment.id, date) = none := by
      cases found : getAttendanceDay db employment.id date with
      | none => exact keptNone found
      | some row =>
        apply quiet
        intro worked
        obtain ⟨event, member, owner, today⟩ := rested.hasEventOnDay.mp worked
        cases (legal.attendance_status (legal.worked event member owner today)).symm.trans found
    refine ⟨fun row found => (by cases gone.symm.trans found), ?_, .inl gone, ?_⟩
    · intro plan found status given
      cases (cleared plan found).symm.trans given
    · intro event member owner today
      have absent : getAttendanceDay { db with attendance := attendance, shiftPlans := plans } employment.id date = none := gone
      rw [getDayStatus, absent]
      cases found : plans.get (employment.id, date) with
      | none => exact congrArg (Option.bind · ShiftPlan.status) found
      | some plan =>
        have read : getShiftPlanDay { db with attendance := attendance, shiftPlans := plans } employment.id date = some plan := found
        simp [read, cleared plan found]

/-- A lock type that a change of status is subject to is checked for the month of the day. -/
theorem dayStatus_unlocked {lockType : LockType} {lockTypes : List LockType} {months : List (Int × Nat)} {done : Unit}
    (checked : forM (if lockTypes = [] then [.attendance, .shiftPlan] else lockTypes) (fun lockType =>
      ensureMonthsUnlocked db lockType employment.id (lockMonths date months lockType)) = .ok done)
    (subject : lockType ∈ lockTypes) : ¬ isMonthLocked db lockType employment.id (yearMonth date) := by
  rw [if_neg (List.ne_nil_of_mem subject), forM_eq_ok] at checked
  have unlocked := ensureMonthsUnlocked_eq_ok.mp (checked lockType subject)
  apply unlocked
  cases lockType <;> simp [lockMonths]

theorem changeDayStatus_ok {status : Option DayStatus} {error : DayStatus → DayStatusConflicts → ApiError}
    (done : changeDayStatus zone db employment date status confirm instanceId error = .ok next) :
    ∃ checkedTypes found flushed months synced, forM (if dayStatusLockTypes status (getDayStatus db employment.id date)
          (dayStatusConflicts db employment.id date) = [] then [.attendance, .shiftPlan]
        else dayStatusLockTypes status (getDayStatus db employment.id date) (dayStatusConflicts db employment.id date))
        (fun lockType => ensureMonthsUnlocked db lockType employment.id
          (lockMonths date (conflictingShiftPlanMonths db employment.id date) lockType)) = .ok checkedTypes ∧
      replaceDayStatus zone db employment date status confirm instanceId = .ok (found, flushed) ∧
      (status.isSome → ¬ (found.hasConflicts ∧ ¬ confirm)) ∧ yearMonth date ∈ months ∧
      syncEmploymentMetricMonths flushed employment months = .ok synced ∧ commit zone synced = next := by
  simp only [changeDayStatus, bind_eq_ok] at done
  obtain ⟨conflicts, collected, checkedTypes, checked, ⟨found, flushed⟩, replaced, done⟩ := done
  rw [← collectDayStatusConflicts_ok collected] at checked
  have inMonths (days : List Int) (more : List (Int × Nat)) : yearMonth date ∈ monthsForDays (days ++ [date]) ++ more :=
    List.mem_append_left _ (mem_monthsForDays.mpr ⟨date, by simp, rfl⟩)
  cases status with
  | none =>
    dsimp only at done
    split at done
    · simp only [bind_eq_ok, pure_eq_ok] at done
      obtain ⟨_, -, synced, written, same⟩ := done
      exact ⟨checkedTypes, found, flushed, _, synced, checked, replaced, by simp, inMonths _ _, written, same⟩
    · simp only [bind_eq_ok, pure_eq_ok] at done
      obtain ⟨synced, written, same⟩ := done
      exact ⟨checkedTypes, found, flushed, _, synced, checked, replaced, by simp, inMonths _ _, written, same⟩
  | some status =>
    simp only [bind_eq_ok, raiseIf_eq_ok] at done
    obtain ⟨_, confirmed, done⟩ := done
    split at done
    · simp only [bind_eq_ok, pure_eq_ok] at done
      obtain ⟨_, -, synced, written, same⟩ := done
      exact ⟨checkedTypes, found, flushed, _, synced, checked, replaced, fun _ => confirmed, inMonths _ _, written, same⟩
    · simp only [bind_eq_ok, pure_eq_ok] at done
      obtain ⟨synced, written, same⟩ := done
      exact ⟨checkedTypes, found, flushed, _, synced, checked, replaced, fun _ => confirmed, inMonths _ _, written, same⟩

theorem changeDayStatus_commit {status : Option DayStatus} {error : DayStatus → DayStatusConflicts → ApiError}
    (stored : db.employments.get employment.id = some employment)
    (active : lockedEmploymentHasActiveUser zone clock db employment) (valid : employmentIsValidOnDay employment date)
    (done : changeDayStatus zone db employment date status confirm instanceId error = .ok next) :
    DayCommit zone clock db next employment.id := by
  obtain ⟨_, found, flushed, months, synced, checked, replaced, confirmed, inMonths, written, same⟩ := changeDayStatus_ok done
  refine ⟨employment, date, flushed, months, synced, ?_, inMonths, written, same, rfl⟩
  cases status with
  | some status =>
    obtain ⟨rfl, refused | rfl⟩ := replaceDayStatus_ok replaced
    · exact absurd refused (confirmed rfl)
    · apply replacedFlush stored active valid
      · intro subject
        apply dayStatus_unlocked checked
        rcases subject with leave | exists' <;> simp [dayStatusLockTypes, *]
      · intro subject
        apply dayStatus_unlocked checked
        rcases subject with plan | exists' <;> simp [dayStatusLockTypes, *]
  | none =>
    simp only [replaceDayStatus, bind_eq_ok, pure_eq_ok, Option.isSome_none, Bool.false_eq_true, false_and, if_false,
      Prod.mk.injEq] at replaced
    obtain ⟨⟨_, middle⟩, attendanceCleared, ⟨_, _⟩, planCleared, rfl, rfl⟩ := replaced
    refine clearedFlush stored active valid ?_ ?_ attendanceCleared planCleared
    · intro onLeave
      obtain ⟨row, present, leave⟩ := onLeave
      apply dayStatus_unlocked checked
      have exists' := attendanceExists_of_leave present leave
      simp [dayStatusLockTypes, exists']
    · intro present
      obtain ⟨plan, present⟩ := Option.ne_none_iff_exists'.mp present
      apply dayStatus_unlocked checked
      have exists' := conflictingShiftPlans_ne_nil present
      simp [dayStatusLockTypes, exists']

theorem portalAttendanceStatus_commit {auth : PortalUserAuth} {body : DayStatusUpsertIn}
    (done : Portal.upsertAttendanceStatus zone clock db auth body = .ok next) :
    DayCommit zone clock db next body.employmentId := by
  simp only [Portal.upsertAttendanceStatus, Portal.ensureDayInPeriod, ensureDayInEmploymentPeriod, bind_eq_ok,
    raiseIf_eq_ok, require_eq_ok, portalEmployment_eq_ok, lockEmploymentForTimeMutation_eq_ok, not_or, not_not] at done
  obtain ⟨-, -, -, -, employment, ⟨found, -, -⟩, again, stored, -, active, date, -, status, -, -, valid, changed⟩ := done
  obtain rfl : employment = again := Option.some.inj ((employment_again found).1.symm.trans stored)
  rw [← (employment_again found).2.1]
  exact changeDayStatus_commit stored active.2 valid changed

theorem adminDayStatus_commit {body : DayStatusUpsertIn} (done : Admin.upsertDayStatus zone clock db body = .ok next) :
    DayCommit zone clock db next body.employmentId := by
  simp only [Admin.upsertDayStatus, Admin.editableEmployment, ensureDayInEmploymentPeriod, bind_eq_ok, raiseIf_eq_ok,
    require_eq_ok, pure_eq_ok, lockEmploymentForTimeMutation_eq_ok, not_not] at done
  obtain ⟨-, -, -, -, _, ⟨employment, found, again, stored, -, active, rfl⟩, date, -, -, valid, status, -, changed⟩ := done
  obtain rfl : employment = again := Option.some.inj ((employment_again found).1.symm.trans stored)
  rw [← (employment_again found).2.1]
  exact changeDayStatus_commit stored active valid changed

/-- What a plan status through the portal flushes: a cleared plan, or the new status. -/
theorem portalDayStatus_ok {auth : PortalUserAuth} {body : DayStatusUpsertIn}
    (done : Portal.upsertDayStatus zone clock db auth body = .ok next) :
    ∃ employment date status flushed months synced, (db.employments.get body.employmentId = some employment ∧
      lockedEmploymentHasActiveUser zone clock db employment ∧ employmentIsValidOnDay employment date ∧
      ¬ isMonthLocked db .shiftPlan employment.id (yearMonth date) ∧ parseYyyyMmDd body.date = some date ∧
      checkStatusPattern [.holiday, .off] body.status = .ok () ∧ normalizeDayStatus body.status = some status) ∧
      (yearMonth date ∈ months ∧ syncEmploymentMetricMonths flushed employment months = .ok synced ∧ commit zone synced = next) ∧
      (status = none ∧ (∃ found, setShiftPlanStatus db employment date none body.confirmDeleteConflicts (some auth.instanceId) =
          .ok (found, flushed)) ∨
        ∃ chosen, status = some chosen ∧ (dayStatusConflicts db employment.id date).attendanceExists = false ∧
          ¬ ((dayStatusConflicts db employment.id date).shiftPlanExists ∧ ¬ body.confirmDeleteConflicts) ∧
          replacedDay db employment date chosen (some auth.instanceId) = flushed) := by
  simp only [Portal.upsertDayStatus, Portal.requireActiveEmploymentForEdit, Portal.ensureDayInPeriod,
    ensureDayInEmploymentPeriod, bind_eq_ok, raiseIf_eq_ok, require_eq_ok, portalEmployment_eq_ok,
    lockEmploymentForTimeMutation_eq_ok, ensureMonthUnlocked_eq_ok, not_not] at done
  obtain ⟨-, -, _, pattern, employment, ⟨found, -, -⟩, again, stored, -, active, date, parsed, -, valid, -, unlocked, status, read,
    conflicts, collected, done⟩ := done
  obtain rfl : employment = again := Option.some.inj ((employment_again found).1.symm.trans stored)
  have same := collectDayStatusConflicts_ok collected
  subst same
  cases status with
  | none =>
    simp only [bind_eq_ok, pure_eq_ok] at done
    obtain ⟨⟨cleared, flushed⟩, clears, synced, written, same⟩ := done
    exact ⟨employment, date, none, flushed, _, synced, ⟨found, active, valid, unlocked, parsed, pattern, read⟩,
      ⟨List.mem_singleton.mpr rfl, written, same⟩, .inl ⟨rfl, cleared, clears⟩⟩
  | some chosen =>
    simp only [bind_eq_ok, raiseIf_eq_ok] at done
    obtain ⟨-, quiet, done⟩ := done
    rw [Bool.not_eq_true] at quiet
    obtain ⟨conflicts, flushed, months, synced, replaced, confirmed, inMonths, written, same⟩ : ∃ found flushed months synced,
        replaceDayStatus zone db employment date (some chosen) body.confirmDeleteConflicts (some auth.instanceId) =
          .ok (found, flushed) ∧ ¬ (found.shiftPlanExists ∧ ¬ body.confirmDeleteConflicts) ∧ yearMonth date ∈ months ∧
        syncEmploymentMetricMonths flushed employment months = .ok synced ∧ commit zone synced = next := by
      split at done
      · simp only [bind_eq_ok, raiseIf_eq_ok, pure_eq_ok] at done
        obtain ⟨_, -, ⟨found, flushed⟩, replaced, _, confirmed, synced, written, same⟩ := done
        exact ⟨found, flushed, _, synced, replaced, confirmed, List.mem_cons_self, written, same⟩
      · simp only [bind_eq_ok, raiseIf_eq_ok, pure_eq_ok] at done
        obtain ⟨⟨found, flushed⟩, replaced, _, confirmed, synced, written, same⟩ := done
        exact ⟨found, flushed, _, synced, replaced, confirmed, List.mem_cons_self, written, same⟩
    obtain ⟨rfl, refused | stored⟩ := replaceDayStatus_ok replaced
    · rw [DayStatusConflicts.hasConflicts, quiet, Bool.false_or] at refused
      exact absurd refused confirmed
    · exact ⟨employment, date, some chosen, flushed, months, synced,
        ⟨found, active, valid, unlocked, parsed, pattern, read⟩, ⟨inMonths, written, same⟩, .inr ⟨chosen, rfl, quiet, confirmed, stored⟩⟩

theorem portalDayStatus_commit {auth : PortalUserAuth} {body : DayStatusUpsertIn}
    (done : Portal.upsertDayStatus zone clock db auth body = .ok next) :
    DayCommit zone clock db next body.employmentId := by
  obtain ⟨employment, date, status, flushed, months, synced, ⟨found, active, valid, unlocked, -, pattern, read⟩,
    ⟨inMonths, written, same⟩, cleared | replaced⟩ := portalDayStatus_ok done
  · obtain ⟨stored, owner, -⟩ := employment_again found
    obtain ⟨-, found, cleared⟩ := cleared
    obtain ⟨table, rfl, others, keptNone, noStatus⟩ := clearPlan_ok cleared
    refine ⟨employment, date, _, months, synced, planFlush stored active valid table others (fun _ => unlocked) ?_, inMonths,
      written, same, owner⟩
    intro legal
    apply legal.withPlans
    · exact legal.single.imp_right keptNone
    · intro plan found status given
      cases (noStatus plan found).symm.trans given
  · obtain ⟨stored, owner, -⟩ := employment_again found
    obtain ⟨chosen, rfl, quiet, -, rfl⟩ := replaced
    have plan := planStatus_isPlan pattern read
    refine ⟨employment, date, _, months, synced, replacedFlush stored active valid ?_ (fun _ => unlocked), inMonths,
      written, same, owner⟩
    intro subject
    rcases subject with leave | exists'
    · exact absurd plan leave
    · cases quiet.symm.trans exists'

end Statuses

end Dagmar.Proofs
