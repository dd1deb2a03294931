import Dagmar.PlanPayloads

/-! The lists of a month: the employments that a portal user may open, and the attendance
sheets of all employments for the administration. -/

namespace Dagmar.Payloads
open Library Library.Calendar Library.Outcome Integration

section Portal
variable (zone : Zone) (view : View)

structure AvailableEmploymentOut where
  id : Int
  userId : Int
  title : String
  employmentType : String
  startDate : Int
  endDate : Option Int
  isActive : Bool
  isCurrent : Bool
  label : String
deriving DecidableEq

def availableEmploymentOut (employment : Employment) : AvailableEmploymentOut where
  id := employment.id
  userId := employment.userId
  title := view.columns.title employment.id
  employmentType := typeValue employment.employmentType
  startDate := employment.startDate
  endDate := employment.endDate
  isActive := employmentIsValidOnDay employment (pragueToday zone view.clock)
  isCurrent := employmentIsValidOnDay employment (pragueToday zone view.clock)
  label := employmentLabel view employment

/-- `ORDER BY start_date, id`. -/
def startKey (employment : Employment) : Int ×ₗ Int := toLex (employment.startDate, employment.id)

/-- The bounds of the query parameters. -/
def monthFields (year : Int) (month : Nat) : Api Unit :=
  raiseIf (year < 2000 ∨ 2100 < year ∨ month < 1 ∨ 12 < month) (.invalid "Input out of range")

def getMonthEmployments (auth : PortalUserAuth) (year : Int) (month : Nat) : Api (List AvailableEmploymentOut) := do
  monthFields year month
  let (start, finish) ← require (monthRange year month) (.uncaught "ValueError")
  let employments := ordered startKey (view.db.employments.select fun employment =>
    employment.userId = auth.userId ∧ employmentOverlapsMonth employment start finish)
  return employments.map (availableEmploymentOut zone view)

end Portal

section Administration
variable (zone : Zone) (view : View)

structure AdminAttendanceSheetOut where
  monthData : AttendanceMonthOut
  userId : Int
  userName : String
  employmentTitle : String
  employmentType : String
  startDate : Int
  endDate : Option Int
  isActiveInMonth : Bool
deriving DecidableEq

/-- `ORDER BY user_id, start_date, id`. -/
def userStartKey (employment : Employment) : Int ×ₗ Int ×ₗ Int := toLex (employment.userId, startKey employment)

def loadMonthEmployments (start finish : Int) : List Employment :=
  ordered userStartKey (view.db.employments.select fun employment => employmentOverlapsMonth employment start finish)

/-- Employments of accounts that are gone or inactive have no sheet. -/
def adminAttendanceSheetOut (year : Int) (month : Nat) (start finish : Int) (employment : Employment) :
    Api (Option AdminAttendanceSheetOut) :=
  match view.db.users.get employment.userId with
  | none => return none
  | some user =>
    if ¬ user.isActive then return none
    else do
      let monthData ← require (buildMonth zone view employment year month) (.uncaught "KeyError")
      return some {
        monthData := monthData
        userId := employment.userId
        userName := view.columns.userName user.id
        employmentTitle := view.columns.title employment.id
        employmentType := typeValue employment.employmentType
        startDate := employment.startDate
        endDate := employment.endDate
        isActiveInMonth := employmentOverlapsMonth employment start finish }

def listMonthSheets (year : Int) (month : Nat) : Api (List AdminAttendanceSheetOut) := do
  monthFields year month
  let (start, finish) ← require (monthRange year month) (.uncaught "ValueError")
  let sheets ← (loadMonthEmployments view start finish).mapM (adminAttendanceSheetOut zone view year month start finish)
  return sheets.filterMap id

end Administration

end Dagmar.Payloads
