import Dagmar.EventMutations

/-! Locking months by hand, and the job that locks the running month of the plans. -/

namespace Dagmar
open Library Library.Calendar Library.Outcome

def Db.withLocks (db : Db) (lockType : LockType) (rows : Table MonthLock MonthLock.key) : Db :=
  match lockType with
  | .attendance => { db with attendanceLocks := rows }
  | .shiftPlan => { db with shiftPlanLocks := rows }

def setMonthLockStateBulk (db : Db) (lockType : LockType) (employmentRows : List (Int × Option String))
    (month : Int × Nat) (locked : Bool) (lockedBy : Option String) : Db :=
  if locked then
    db.withLocks lockType (employmentRows.foldl (fun rows row => rows.put ⟨row.1, month.1, month.2, row.2, lockedBy⟩)
      (db.locks lockType))
  else
    db.withLocks lockType ((db.locks lockType).deleteWhere fun row =>
      row.employmentId ∈ employmentRows.map Prod.fst ∧ row.year = month.1 ∧ row.month = month.2)

namespace Admin

structure AdminLockSetIn where
  lockType : LockType
  year : Option Int
  month : Option Nat
  months : List (Int × Nat)
  locked : Bool
  employmentIds : List Int

/-- The field bounds of a month. -/
def lockableMonth (month : Int × Nat) : Prop := 2000 ≤ month.1 ∧ month.1 ≤ 2100 ∧ 1 ≤ month.2 ∧ month.2 ≤ 12

instance (month : Int × Nat) : Decidable (lockableMonth month) := inferInstanceAs (Decidable (_ ∧ _))

def normalizeMonths (body : AdminLockSetIn) : Api (List (Int × Nat)) := do
  raiseIf (body.year.isSome ≠ body.month.isSome)
    (.api 400 "invalid_lock_months" "Year a month musí být zadané společně." [])
  let requested := body.months ++ (body.year.bind fun year => body.month.map (year, ·)).toList
  raiseIf (requested = []) (.api 400 "lock_months_required" "Vyberte alespoň jeden měsíc." [])
  return requested.dedup

/-- The rows to lock in one month: the chosen employments that overlap it. -/
def monthTargets (db : Db) (employments : List Employment) (month : Int × Nat) : Option (List (Int × Option String)) := do
  let (start, finish) ← monthRange month.1 month.2
  return (employments.filter fun employment => employmentOverlapsMonth employment start finish).map fun employment =>
    (employment.id, (db.users.get employment.userId).bind PortalUser.instanceId)

def setLocks (zone : Zone) (db : Db) (username : Option String) (body : AdminLockSetIn) : Api (Db × Nat) := do
  raiseIf (∃ month ∈ body.months, ¬ lockableMonth month) (.invalid "months")
  raiseIf (∃ year ∈ body.year, year < 2000 ∨ 2100 < year) (.invalid "year")
  raiseIf (∃ month ∈ body.month, month < 1 ∨ 12 < month) (.invalid "month")
  let months ← normalizeMonths body
  let ids := body.employmentIds.dedup
  raiseIf (ids = []) (.api 400 "employment_ids_required" "Vyberte alespoň jeden úvazek." [])
  let missing := ids.filter fun id => db.employments.get id = none
  raiseIf (missing ≠ []) (.api 404 "employment_not_found" "Úvazek nebyl nalezen." [("employment_ids", .numbers missing)])
  let employments := ids.filterMap db.employments.get
  let targets ← require (months.mapM fun month => (monthTargets db employments month).map (month, ·)) (.uncaught "ValueError")
  let targets := targets.filter fun target => target.2 ≠ []
  raiseIf (targets = []) (.api 409 "employment_period_mismatch"
    "Vybrané období neleží v platnosti žádného zvoleného úvazku." [])
  let updated := targets.foldl (fun db target =>
    setMonthLockStateBulk db body.lockType target.2 target.1 body.locked username) db
  return (commit zone updated, (targets.map fun target => target.2.length).sum)

end Admin

def autoLockedBy : String := "system:shift-plan-month-autolock"

/-- The month that a run is for, of the time it is given or else of the clock. -/
def autoLockMonth (zone : Zone) (clock : Clock) (now : Option RequestTime) : Int × Nat :=
  match now with
  | none => yearMonth (pragueToday zone clock)
  | some now => yearMonth (pragueNow zone now).date

/-- The first run for a month locks it for every employment valid today. -/
def autoLockShiftPlanMonthAt (zone : Zone) (clock : Clock) (now : Option RequestTime) (db : Db) : Api (Db × Nat) := do
  let month := autoLockMonth zone clock now
  match db.autoLockRuns.get month with
  | some run => return (db, run.lockedCount)
  | none =>
    let (start, finish) ← require (monthRange month.1 month.2) (.uncaught "ValueError")
    let active := db.employments.rows.filter fun employment =>
      lockedEmploymentHasActiveUser zone clock db employment ∧ employmentOverlapsMonth employment start finish
    let rows := active.map fun employment =>
      (employment.id, (db.users.get employment.userId).bind PortalUser.instanceId)
    let locked := if rows = [] then db else setMonthLockStateBulk db .shiftPlan rows month true (some autoLockedBy)
    let runs := locked.autoLockRuns.put ⟨month.1, month.2, rows.length⟩
    return (commit zone { locked with autoLockRuns := runs }, rows.length)

/-- The run of the timer, which gives no time. -/
def autoLockCurrentShiftPlanMonth (zone : Zone) (clock : Clock) (db : Db) : Api (Db × Nat) :=
  autoLockShiftPlanMonthAt zone clock none db

end Dagmar
