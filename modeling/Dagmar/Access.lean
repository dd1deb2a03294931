import Dagmar.TimeIntervals

/-! Who may touch which employment, in which period and in which months. -/

namespace Dagmar
open Library Library.Calendar Library.Outcome

section Employments

/-- The row lock serialises requests; in one request it is a second read. -/
def lockEmploymentForTimeMutation (db : Db) (employmentId : Int) : Api Employment :=
  require (db.employments.get employmentId) (.uncaught "NoResultFound")

def employmentIsValidOnDay (employment : Employment) (date : Int) : Prop :=
  employment.startDate ≤ date ∧ ∀ last ∈ employment.endDate, date ≤ last

instance (employment : Employment) (date : Int) : Decidable (employmentIsValidOnDay employment date) :=
  inferInstanceAs (Decidable (_ ∧ _))

def employmentOverlapsMonth (employment : Employment) (monthStart monthEnd : Int) : Prop :=
  employment.startDate < monthEnd ∧ ∀ last ∈ employment.endDate, monthStart ≤ last

instance (employment : Employment) (monthStart monthEnd : Int) :
    Decidable (employmentOverlapsMonth employment monthStart monthEnd) := inferInstanceAs (Decidable (_ ∧ _))

/-- `employment.user is not None and employment.user.is_active`. -/
def userIsActive (db : Db) (employment : Employment) : Prop := (db.users.get employment.userId).any PortalUser.isActive

instance (db : Db) (employment : Employment) : Decidable (userIsActive db employment) :=
  inferInstanceAs (Decidable (_ = true))

def lockedEmploymentHasActiveUser (zone : Zone) (clock : Clock) (db : Db) (employment : Employment) : Prop :=
  employmentIsValidOnDay employment (pragueToday zone clock) ∧ userIsActive db employment

instance (zone : Zone) (clock : Clock) (db : Db) (employment : Employment) :
    Decidable (lockedEmploymentHasActiveUser zone clock db employment) := inferInstanceAs (Decidable (_ ∧ _))

end Employments

section Locks

inductive LockType where
  | attendance
  | shiftPlan
deriving DecidableEq, Repr

def Db.locks (db : Db) : LockType → Table MonthLock MonthLock.key
  | .attendance => db.attendanceLocks
  | .shiftPlan => db.shiftPlanLocks

def isMonthLocked (db : Db) (lockType : LockType) (employmentId : Int) (month : Int × Nat) : Prop :=
  (db.locks lockType).get (employmentId, month.1, month.2) ≠ none

instance (db : Db) (lockType : LockType) (employmentId : Int) (month : Int × Nat) :
    Decidable (isMonthLocked db lockType employmentId month) := inferInstanceAs (Decidable (_ ≠ _))

def lockError : LockType → ApiError
  | .attendance => .api 423 "attendance_month_locked" "Docházka za zvolené období je uzamčena." []
  | .shiftPlan => .api 423 "shift_plan_month_locked" "Plán služeb za zvolené období je uzamčen." []

def ensureMonthUnlocked (db : Db) (lockType : LockType) (employmentId : Int) (month : Int × Nat) : Api Unit :=
  raiseIf (isMonthLocked db lockType employmentId month) (lockError lockType)

def ensureMonthsUnlocked (db : Db) (lockType : LockType) (employmentId : Int) (months : List (Int × Nat)) : Api Unit :=
  forM months (ensureMonthUnlocked db lockType employmentId)

end Locks

section Portal

/-- A signed-in portal user with the instance the sign-in belongs to. -/
structure PortalUserAuth where
  userId : Int
  instanceId : String
deriving DecidableEq

def portalEmployment (db : Db) (auth : PortalUserAuth) (employmentId : Int) : Api Employment := do
  let employment ← require (db.employments.get employmentId)
    (.api 404 "employment_not_found" "Úvazek nebyl nalezen." [])
  raiseIf (employment.userId ≠ auth.userId ∨ ¬ (db.users.get auth.userId).any PortalUser.isActive)
    (.api 404 "employment_not_found" "Úvazek nebyl nalezen." [])
  return employment

def ensureDayInEmploymentPeriod (employment : Employment) (date : Int) (message : String) : Api Unit :=
  raiseIf (¬ employmentIsValidOnDay employment date) (.api 409 "employment_period_mismatch" message [])

end Portal

section Integration

inductive DataScopeMode where
  | allEmployments
  | allActiveEmployments
  | selectedEmployees
  | selectedEmployments
  | other
deriving DecidableEq, Repr

inductive Scope where
  | attendanceCreate
  | attendanceUpdate
  | attendanceDelete
  | other (name : String)
deriving DecidableEq, Repr

structure IntegrationClient where
  scopes : List Scope
  dataScopeMode : DataScopeMode
  allowedEmploymentIds : List Int
  allowedEmployeeIds : List Int
  includeInactiveEmployments : Bool
deriving DecidableEq

/-- The mode that the text of a column names. -/
def dataScopeMode (column : Option String) : DataScopeMode :=
  match strip (column.getD "") with
  | "ALL_EMPLOYMENTS" => .allEmployments
  | "ALL_ACTIVE_EMPLOYMENTS" => .allActiveEmployments
  | "SELECTED_EMPLOYEES" => .selectedEmployees
  | "SELECTED_EMPLOYMENTS" => .selectedEmployments
  | _ => .other

/-- `_integer_ids`: only positive numbers count. -/
def integerIds (values : List Int) : List Int := values.filter (0 < ·)

def employmentScopePredicate (zone : Zone) (clock : Clock) (db : Db) (client : IntegrationClient)
    (employment : Employment) : Bool :=
  match client.dataScopeMode with
  | .allEmployments => true
  | .allActiveEmployments => lockedEmploymentHasActiveUser zone clock db employment
  | .selectedEmployees =>
    employment.userId ∈ integerIds client.allowedEmployeeIds &&
      (client.includeInactiveEmployments || employmentIsValidOnDay employment (pragueToday zone clock))
  | .selectedEmployments => employment.id ∈ integerIds client.allowedEmploymentIds
  | .other => false

def requireScope (client : IntegrationClient) (scope : Scope) : Api Unit :=
  raiseIf (scope ∉ client.scopes) (.api 403 "insufficient_scope" "Klient nemá požadovaný scope." [])

def requireEmploymentAccess (zone : Zone) (clock : Clock) (db : Db) (client : IntegrationClient) (employmentId : Int) :
    Api Unit :=
  raiseIf (¬ (db.employments.get employmentId).any (employmentScopePredicate zone clock db client))
    (.api 403 "insufficient_scope" "Úvazek není v rozsahu klienta." [])

end Integration

@[simp] theorem lockEmploymentForTimeMutation_eq_ok {db : Db} {employmentId : Int} {employment : Employment} :
    lockEmploymentForTimeMutation db employmentId = .ok employment ↔ db.employments.get employmentId = some employment := by
  simp [lockEmploymentForTimeMutation]

@[simp] theorem ensureMonthUnlocked_eq_ok {db : Db} {lockType : LockType} {employmentId : Int} {month : Int × Nat}
    {done : Unit} : ensureMonthUnlocked db lockType employmentId month = .ok done ↔
      ¬ isMonthLocked db lockType employmentId month := by
  simp [ensureMonthUnlocked]

@[simp] theorem ensureMonthsUnlocked_nil (db : Db) (lockType : LockType) (employmentId : Int) :
    ensureMonthsUnlocked db lockType employmentId [] = .ok () := rfl

@[simp] theorem ensureMonthsUnlocked_eq_ok {db : Db} {lockType : LockType} {employmentId : Int}
    {months : List (Int × Nat)} {done : Unit} : ensureMonthsUnlocked db lockType employmentId months = .ok done ↔
      ∀ month ∈ months, ¬ isMonthLocked db lockType employmentId month := by
  rw [ensureMonthsUnlocked, forM_eq_ok]
  simp

end Dagmar
