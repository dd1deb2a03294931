import Dagmar.Requests
import Dagmar.Proofs.CachedSummaries

/-! The two shift-plan upserts accept the same bodies and store the same plan, up
to the instance recorded with it. -/

namespace Dagmar.Proofs
open Library Library.Calendar Library.Outcome

section Access

@[simp] theorem portalEmployment_eq_ok {db : Db} {auth : PortalUserAuth} {employmentId : Int} {employment : Employment} :
    portalEmployment db auth employmentId = .ok employment ↔ db.employments.get employmentId = some employment ∧
      employment.userId = auth.userId ∧ (db.users.get auth.userId).any PortalUser.isActive := by
  simp only [portalEmployment, bind_eq_ok, require_eq_ok, raiseIf_eq_ok, pure_eq_ok, not_or, not_not, ne_eq]
  constructor
  · intro found
    obtain ⟨other, stored, -, ⟨owner, active⟩, rfl⟩ := found
    exact ⟨stored, owner, active⟩
  · intro found
    exact ⟨employment, found.1, (), found.2, rfl⟩

/-- Reading an employment again by its own number finds it again. -/
theorem employment_again {db : Db} {employmentId : Int} {employment : Employment}
    (found : db.employments.get employmentId = some employment) :
    db.employments.get employment.id = some employment ∧ employment.id = employmentId ∧ employment ∈ db.employments := by
  obtain ⟨member, same⟩ := Table.get_eq_some_iff.mp found
  exact ⟨same ▸ found, same, member⟩

end Access

section Writing

/-- What both upserts write once a body is accepted. -/
def planWrite (zone : Zone) (db : Db) (employment : Employment) (date : Int) (arrival departure : Option ClockTime)
    (status : Option DayStatus) (instanceId : Option String) : Api Db :=
  if arrival = none ∧ departure = none ∧ status = none then
    match getShiftPlanDay db employment.id date with
    | none => return db
    | some plan => do
      let synced ← syncEmploymentMetricMonths (deletePlan db plan) employment [yearMonth date]
      return commit zone synced
  else do
    let flushed ← flushPlan db ⟨employment.id, date, arrival, departure, status, instanceId⟩
    let synced ← syncEmploymentMetricMonths flushed employment [yearMonth date]
    return commit zone synced

/-- A plan to be stored overlaps no other plan of the employment. -/
def PlanFits (db : Db) (employment : Employment) (date : Int) (arrival departure : Option ClockTime)
    (status : Option DayStatus) : Prop :=
  ¬ (arrival = none ∧ departure = none ∧ status = none) →
    ∀ other ∈ otherPlans db employment.id (getShiftPlanDay db employment.id date),
      ¬ shiftPlansOverlap ⟨employment.id, date, arrival, departure, status, none⟩ other

theorem getShiftPlanDay_date {db : Db} {employmentId date : Int} {plan : ShiftPlan}
    (found : getShiftPlanDay db employmentId date = some plan) : plan ∈ db.shiftPlans ∧
      plan.employmentId = employmentId ∧ plan.date = date := by
  obtain ⟨member, same⟩ := Table.get_eq_some_iff.mp found
  exact ⟨member, (Prod.mk.inj same).1, (Prod.mk.inj same).2⟩

private theorem syncMonths_twice (db : Db) (employment : Employment) (month : Int × Nat) :
    syncEmploymentMetricMonths db employment [month, month] = syncEmploymentMetricMonths db employment [month] := by
  simp [syncEmploymentMetricMonths]

variable {zone : Zone} {db next : Db} {employment : Employment} {date : Int} {arrival departure : Option ClockTime}
  {status : Option DayStatus}

theorem portalStorePlan_ok {auth : PortalUserAuth} (valid : employmentIsValidOnDay employment date)
    (unlocked : ¬ isMonthLocked db .shiftPlan employment.id (yearMonth date)) :
    Portal.storePlan zone db auth employment date arrival departure status = .ok next ↔
      PlanFits db employment date arrival departure status ∧
        planWrite zone db employment date arrival departure status (some auth.instanceId) = .ok next := by
  cases existing : getShiftPlanDay db employment.id date with
  | none =>
    by_cases empty : arrival = none ∧ departure = none ∧ status = none
    · obtain ⟨rfl, rfl, rfl⟩ := empty
      simp [Portal.storePlan, PlanFits, planWrite, existing, shiftPlanDays, shiftPlanMonths]
    · simp [Portal.storePlan, PlanFits, planWrite, existing, shiftPlanDays, shiftPlanMonths, empty, valid,
        unlocked, Portal.ensureDayInPeriod, ensureDayInEmploymentPeriod]
  | some plan =>
    have sameDate := (getShiftPlanDay_date existing).2.2
    by_cases empty : arrival = none ∧ departure = none ∧ status = none
    · obtain ⟨rfl, rfl, rfl⟩ := empty
      simp [Portal.storePlan, PlanFits, planWrite, existing, shiftPlanDays, shiftPlanMonths, sameDate, unlocked]
    · simp [Portal.storePlan, PlanFits, planWrite, existing, shiftPlanDays, shiftPlanMonths, empty, valid,
        unlocked, Portal.ensureDayInPeriod, ensureDayInEmploymentPeriod, sameDate, syncMonths_twice]

/-- The administration keeps the instance of a stored plan and gives a new one the user's. -/
def adminInstance (db : Db) (employment : Employment) (date : Int) : Option String :=
  match getShiftPlanDay db employment.id date with
  | none => Admin.userInstanceId db employment
  | some plan => plan.instanceId

theorem adminStorePlan_ok {body : ShiftPlanUpsertIn} (named : body.status.bind DayStatus.ofText = status)
    (null : body.status = none ↔ status = none) (valid : employmentIsValidOnDay employment date)
    (unlocked : ¬ isMonthLocked db .shiftPlan employment.id (yearMonth date)) :
    Admin.storePlan zone db employment date body arrival departure = .ok next ↔
      PlanFits db employment date arrival departure status ∧
        planWrite zone db employment date arrival departure status (adminInstance db employment date) = .ok next := by
  have stored : db.shiftPlans.get (employment.id, date) = getShiftPlanDay db employment.id date := rfl
  cases existing : getShiftPlanDay db employment.id date with
  | none =>
    by_cases empty : arrival = none ∧ departure = none ∧ status = none
    · obtain ⟨rfl, rfl, rfl⟩ := empty
      simp [Admin.storePlan, PlanFits, planWrite, stored, existing, shiftPlanDays, shiftPlanMonths, null]
    · simp [Admin.storePlan, PlanFits, planWrite, adminInstance, stored, existing, shiftPlanDays, shiftPlanMonths, null,
        named, empty, valid, unlocked, ensureDayInEmploymentPeriod]
  | some plan =>
    have sameDate := (getShiftPlanDay_date existing).2.2
    by_cases empty : arrival = none ∧ departure = none ∧ status = none
    · obtain ⟨rfl, rfl, rfl⟩ := empty
      simp [Admin.storePlan, PlanFits, planWrite, stored, existing, shiftPlanDays, shiftPlanMonths, null, sameDate, unlocked]
    · simp [Admin.storePlan, PlanFits, planWrite, adminInstance, stored, existing, shiftPlanDays, shiftPlanMonths, null,
        named, empty, valid, unlocked, ensureDayInEmploymentPeriod, sameDate, syncMonths_twice]

end Writing

section Verdicts
variable {zone : Zone} {clock : Clock} {db next : Db} {employment : Employment} {date : Int}
  {body : ShiftPlanUpsertIn}

/-- Past the pattern, both readings of the status refuse the empty text alone. -/
theorem status_readings {text : Option String} (pattern : checkStatusPattern [.holiday, .off] text = .ok ()) :
    (∃ status, normalizeDayStatus text = some status ∧ text ∈ [none, some "HOLIDAY", some "OFF"] ∧
        text.bind DayStatus.ofText = status ∧ (text = none ↔ status = none)) ∨
      normalizeDayStatus text = none ∧ text ∉ [none, some "HOLIDAY", some "OFF"] := by
  cases text with
  | none => exact .inl ⟨none, rfl, by simp, rfl, by simp⟩
  | some text =>
    unfold checkStatusPattern at pattern
    split at pattern
    next none => cases none
    next empty =>
      obtain rfl := Option.some.inj empty
      exact .inr ⟨rfl, by decide⟩
    next given nonempty same =>
      obtain rfl := Option.some.inj same
      rw [raiseIf_eq_ok, not_not, Option.any_eq_true] at pattern
      obtain ⟨status, named, allowed⟩ := pattern
      have listed : text = "HOLIDAY" ∨ text = "OFF" := by
        unfold DayStatus.ofText at named
        split at named <;> grind
      refine .inl ⟨some status, by simp [normalizeDayStatus, named], ?_, by simpa using named, by simp⟩
      rcases listed with rfl | rfl <;> simp

/-- Both upserts ask the same of the day once a status is known. -/
theorem plannedTimes_agree {status : Option DayStatus} (null : body.status = none ↔ status = none)
    (arrival departure : Option ClockTime) (times : Option ClockTime × Option ClockTime) :
    Admin.plannedTimes db employment.id date body arrival departure = .ok times ↔
      Portal.plannedTimes db employment.id date body.confirmDeleteConflicts status arrival departure = .ok times := by
  cases status with
  | none =>
    have absent := null.mpr rfl
    cases blocked : getDayStatus db employment.id date with
    | none => simp [Admin.plannedTimes, Portal.plannedTimes, absent, blocked]
    | some other => simp [Admin.plannedTimes, Portal.plannedTimes, absent, blocked]
  | some status =>
    have given : body.status ≠ none := by simp [null]
    simp [Admin.plannedTimes, Portal.plannedTimes, given]

/-- A body that either upsert accepts, with what it asks to store. -/
structure PlanRequest (db : Db) (employment : Employment) (body : ShiftPlanUpsertIn) (date : Int)
    (times : Option ClockTime × Option ClockTime) (status : Option DayStatus) : Prop where
  numbered : ¬ body.employmentId < 1
  pattern : checkStatusPattern [.holiday, .off] body.status = .ok ()
  parsed : parseYyyyMmDd body.date = some date
  valid : employmentIsValidOnDay employment date
  unlocked : ¬ isMonthLocked db .shiftPlan employment.id (yearMonth date)
  read : normalizeDayStatus body.status = some status
  planned : ∃ arrival departure, parseHhmmOrNone body.arrivalTime = some arrival ∧
    parseHhmmOrNone body.departureTime = some departure ∧ ¬ shiftMustEndSameDay arrival departure ∧
    Portal.plannedTimes db employment.id date body.confirmDeleteConflicts status arrival departure = .ok times
  fits : PlanFits db employment date times.1 times.2 status

theorem portalUpsert_ok {auth : PortalUserAuth} (found : db.employments.get body.employmentId = some employment)
    (owner : employment.userId = auth.userId) (active : lockedEmploymentHasActiveUser zone clock db employment) :
    Portal.upsertShiftPlan zone clock db auth body = .ok next ↔ ∃ date times status,
      PlanRequest db employment body date times status ∧
        planWrite zone db employment date times.1 times.2 status (some auth.instanceId) = .ok next := by
  obtain ⟨again, -, -⟩ := employment_again found
  have signedIn : (db.users.get auth.userId).any PortalUser.isActive := by
    have := active.2
    rwa [userIsActive, owner] at this
  have opened : portalEmployment db auth body.employmentId = .ok employment :=
    portalEmployment_eq_ok.mpr ⟨found, owner, signedIn⟩
  simp only [Portal.upsertShiftPlan, employmentIdField, Portal.requireActiveEmploymentForEdit, Portal.ensureDayInPeriod,
    ensureDayInEmploymentPeriod, bind_eq_ok, raiseIf_eq_ok, require_eq_ok, ensureMonthUnlocked_eq_ok, opened,
    lockEmploymentForTimeMutation_eq_ok, not_not, exists_const, Except.ok.injEq]
  constructor
  · intro accepted
    obtain ⟨id, _, pattern, _, rfl, _, same, -, date, parsed, valid, unlocked, arrival, starts, departure, ends, below,
      status, read, times, planned, stored⟩ := accepted
    obtain rfl : employment = _ := Option.some.inj (again.symm.trans same)
    obtain ⟨fits, written⟩ := (portalStorePlan_ok valid unlocked).mp stored
    exact ⟨date, times, status,
      ⟨id, pattern, parsed, valid, unlocked, read, ⟨arrival, departure, starts, ends, below, planned⟩, fits⟩, written⟩
  · intro accepted
    obtain ⟨date, times, status, request, written⟩ := accepted
    obtain ⟨arrival, departure, starts, ends, below, planned⟩ := request.planned
    exact ⟨request.numbered, (), request.pattern, employment, rfl, employment, again, active, date, request.parsed, request.valid,
      request.unlocked, arrival, starts, departure, ends, below, status, request.read, times, planned,
      (portalStorePlan_ok request.valid request.unlocked).mpr ⟨request.fits, written⟩⟩

theorem adminUpsert_ok (found : db.employments.get body.employmentId = some employment)
    (active : lockedEmploymentHasActiveUser zone clock db employment) :
    Admin.upsertShiftPlanImpl zone clock db body = .ok next ↔ ∃ date times status,
      PlanRequest db employment body date times status ∧
        planWrite zone db employment date times.1 times.2 status (adminInstance db employment date) = .ok next := by
  obtain ⟨again, -, -⟩ := employment_again found
  have opened : Admin.editableEmployment zone clock db body.employmentId = .ok employment := by
    simp [Admin.editableEmployment, found, again, active]
  simp only [Admin.upsertShiftPlanImpl, employmentIdField, ensureDayInEmploymentPeriod, bind_eq_ok, raiseIf_eq_ok,
    require_eq_ok, ensureMonthUnlocked_eq_ok, opened, not_not, exists_const, Except.ok.injEq]
  constructor
  · intro accepted
    obtain ⟨id, _, pattern, _, rfl, date, parsed, valid, unlocked, arrival, starts, departure, ends, below, listed,
      times, planned, stored⟩ := accepted
    rcases status_readings pattern with ⟨status, read, -, named, null⟩ | ⟨-, refused⟩
    · obtain ⟨fits, written⟩ := (adminStorePlan_ok named null valid unlocked).mp stored
      have planned := (plannedTimes_agree null arrival departure times).mp planned
      exact ⟨date, times, status,
        ⟨id, pattern, parsed, valid, unlocked, read, ⟨arrival, departure, starts, ends, below, planned⟩, fits⟩, written⟩
    · exact absurd listed refused
  · intro accepted
    obtain ⟨date, times, status, request, written⟩ := accepted
    obtain ⟨arrival, departure, starts, ends, below, planned⟩ := request.planned
    rcases status_readings request.pattern with ⟨other, read, listed, named, null⟩ | ⟨unread, -⟩
    · obtain rfl : other = status := Option.some.inj (read.symm.trans request.read)
      exact ⟨request.numbered, (), request.pattern, employment, rfl, date, request.parsed, request.valid, request.unlocked, arrival,
        starts, departure, ends, below, listed, times, (plannedTimes_agree null arrival departure times).mpr planned,
        (adminStorePlan_ok named null request.valid request.unlocked).mpr ⟨request.fits, written⟩⟩
    · cases unread.symm.trans request.read

end Verdicts

section Agreement

def withoutInstance (plan : ShiftPlan) : ShiftPlan := { plan with instanceId := none }

/-- The instance of a plan is read by no summary. -/
theorem monthRows_instance (db : Db) (employment : Employment) (plan other : ShiftPlan)
    (same : withoutInstance plan = withoutInstance other) (month : Int × Nat) :
    monthRows { db with shiftPlans := db.shiftPlans.put plan } employment month =
      monthRows { db with shiftPlans := db.shiftPlans.put other } employment month := by
  obtain ⟨owner, date, arrival, departure, status, instanceId⟩ := plan
  obtain ⟨owner', date', arrival', departure', status', instanceId'⟩ := other
  simp only [withoutInstance, ShiftPlan.mk.injEq, and_true] at same
  obtain ⟨rfl, rfl, rfl, rfl, rfl⟩ := same
  apply monthRows_of_days
  intro range today found inside
  have planned : calculateDailyMetrics employment today (shiftPlanIntervals
      (Db.plansBetween { db with shiftPlans := db.shiftPlans.put ⟨owner, date, arrival, departure, status, instanceId⟩ }
        employment.id range.1 range.2)) = calculateDailyMetrics employment today (shiftPlanIntervals
      (Db.plansBetween { db with shiftPlans := db.shiftPlans.put ⟨owner, date, arrival, departure, status, instanceId'⟩ }
        employment.id range.1 range.2)) := by
    apply calculateDailyMetrics_congr
    rw [dayIntervals_plans _ _ _ _ _ inside, dayIntervals_plans _ _ _ _ _ inside]
    simp only [Table.get_put, ShiftPlan.key]
    by_cases today' : (owner, date) = (employment.id, today) <;> simp [today', shiftPlanInterval]
  have stored : ((db.shiftPlans.put ⟨owner, date, arrival, departure, status, instanceId⟩).get
      (employment.id, today)).isSome = ((db.shiftPlans.put ⟨owner, date, arrival, departure, status, instanceId'⟩).get
      (employment.id, today)).isSome := by
    simp only [Table.get_put, ShiftPlan.key]
    by_cases today' : (owner, date) = (employment.id, today) <;> simp [today']
  exact ⟨rfl, rfl, planned, rfl, congrArg plannedState planned, rfl, stored⟩

variable {zone : Zone} {db : Db} {employment : Employment} {date : Int} {arrival departure : Option ClockTime}
  {status : Option DayStatus}

/-- The same plans but for the instance recorded with them, and the same metrics. -/
structure SamePlans (first second : Db) : Prop where
  plans : first.shiftPlans.rows.map withoutInstance = second.shiftPlans.rows.map withoutInstance
  metrics : first.metrics = second.metrics

theorem planWrite_instance (instanceId instanceId' : Option String) {next : Db}
    (written : planWrite zone db employment date arrival departure status instanceId = .ok next) :
    ∃ other, planWrite zone db employment date arrival departure status instanceId' = .ok other ∧
      SamePlans next other := by
  by_cases empty : arrival = none ∧ departure = none ∧ status = none
  · refine ⟨next, ?_, rfl, rfl⟩
    rw [planWrite, if_pos empty] at written ⊢
    exact written
  · simp only [planWrite, if_neg empty, flushPlan, bind_eq_ok, raiseIf_eq_ok, pure_eq_ok] at written ⊢
    obtain ⟨_, ⟨_, short, rfl⟩, synced, done, rfl⟩ := written
    have rows := monthRows_instance db employment ⟨employment.id, date, arrival, departure, status, instanceId⟩
      ⟨employment.id, date, arrival, departure, status, instanceId'⟩ rfl
    have parallel := syncMonths_parallel (by rfl) rows done
    obtain ⟨-, frame, -⟩ := syncMonths_ok done
    refine ⟨_, ⟨_, ⟨(), short, rfl⟩, _, parallel, rfl⟩, ?_, rfl⟩
    rw [frame]
    simp [commit, Table.put, withoutInstance, ShiftPlan.key]

/-- For an employment valid today whose active user is signed in, the portal and the
administration refuse the same bodies, and what they accept they store alike. -/
theorem shiftPlan_upserts_agree (zone : Zone) (clock : Clock) (db : Db) (auth : PortalUserAuth) (body : ShiftPlanUpsertIn)
    (employment : Employment) (found : db.employments.get body.employmentId = some employment)
    (owner : employment.userId = auth.userId) (active : lockedEmploymentHasActiveUser zone clock db employment) :
    match Portal.upsertShiftPlan zone clock db auth body, Admin.upsertShiftPlanImpl zone clock db body with
    | .ok portal, .ok admin => SamePlans portal admin
    | .error _, .error _ => step zone db ⟨clock, .portalUpsertShiftPlan auth body⟩ = db ∧
        step zone db ⟨clock, .adminUpsertShiftPlan body⟩ = db
    | _, _ => False := by
  cases portal : Portal.upsertShiftPlan zone clock db auth body with
  | ok next =>
    obtain ⟨date, times, status, request, written⟩ := (portalUpsert_ok found owner active).mp portal
    obtain ⟨other, stored, same⟩ := planWrite_instance (some auth.instanceId) (adminInstance db employment date) written
    have admin := (adminUpsert_ok found active).mpr ⟨date, times, status, request, stored⟩
    rw [admin]
    exact same
  | error raised =>
    cases admin : Admin.upsertShiftPlanImpl zone clock db body with
    | ok next =>
      obtain ⟨date, times, status, request, written⟩ := (adminUpsert_ok found active).mp admin
      obtain ⟨other, stored, -⟩ := planWrite_instance (adminInstance db employment date) (some auth.instanceId) written
      have accepted := (portalUpsert_ok found owner active).mpr ⟨date, times, status, request, stored⟩
      rw [portal] at accepted
      cases accepted
    | error refused => simp [step, Request.handle, portal, admin]

end Agreement

section Sample

/-- A clock at noon of 5 August 2026 in a zone one hour ahead. -/
def sampleClock : Clock := ⟨midnight 739833 + 660 * minute, by decide⟩

def sampleZone : Zone := pragueSpring march2026 march2026_evening

def samplePlan : ShiftPlanUpsertIn := ⟨1, "2026-08-06", some "08:00", some "16:30", none, false⟩

theorem sample_upserts_agree :
    match Portal.upsertShiftPlan sampleZone sampleClock sampleDb ⟨1, "portal"⟩ samplePlan,
      Admin.upsertShiftPlanImpl sampleZone sampleClock sampleDb samplePlan with
    | .ok portal, .ok admin => SamePlans portal admin
    | .error _, .error _ => step sampleZone sampleDb ⟨sampleClock, .portalUpsertShiftPlan ⟨1, "portal"⟩ samplePlan⟩ = sampleDb ∧
        step sampleZone sampleDb ⟨sampleClock, .adminUpsertShiftPlan samplePlan⟩ = sampleDb
    | _, _ => False :=
  shiftPlan_upserts_agree sampleZone sampleClock sampleDb ⟨1, "portal"⟩ samplePlan sampleEmployment rfl rfl (by decide)

end Sample

end Dagmar.Proofs
