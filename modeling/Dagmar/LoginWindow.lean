import Dagmar.Access
import Dagmar.IsoText

/-! Which employments a person may sign in for on a day, and which of them is offered
first. A date that the calendar does not reach raises `ValueError`, which is `none`
here; the list of users turns it into an error of the whole list. -/

namespace Dagmar
open Library.Calendar

section Window

def loginWindowMonths : Int := 1

def addCalendarMonths (value months : Int) : Option Int :=
  let monthIndex := (monthOf value : Int) - 1 + months
  let year := yearOf value + monthIndex / 12
  let month := (monthIndex % 12 + 1).toNat
  date? year month (min (dayOf value) (daysInMonth year month))

def employmentIsWithinLoginWindow (employment : Employment) (date : Int) : Option Bool := do
  let allowedFrom ← addCalendarMonths employment.startDate (-loginWindowMonths)
  if date < allowedFrom then return false
  else
    match employment.endDate with
    | none => return true
    | some last => return decide (date ≤ (← addCalendarMonths last loginWindowMonths))

end Window

section Selection

structure LoginEmploymentSelection where
  available : List Employment
  default : Option Employment

/-- The order of `(start_date, id)`. -/
def startsFirst (first second : Employment) : Prop :=
  first.startDate < second.startDate ∨ first.startDate = second.startDate ∧ first.id ≤ second.id

instance (first second : Employment) : Decidable (startsFirst first second) := inferInstanceAs (Decidable (_ ∨ _))

/-- The reversed order of `(end_date or today, id)`. -/
def endsLast (today : Int) (first second : Employment) : Prop :=
  second.endDate.getD today < first.endDate.getD today ∨
    second.endDate.getD today = first.endDate.getD today ∧ second.id ≤ first.id

instance (today : Int) (first second : Employment) : Decidable (endsLast today first second) :=
  inferInstanceAs (Decidable (_ ∨ _))

def employmentsWithinLoginWindow (today : Int) : List Employment → Option (List Employment)
  | [] => some []
  | employment :: employments => do
    let within ← employmentIsWithinLoginWindow employment today
    let rest ← employmentsWithinLoginWindow today employments
    return if within then employment :: rest else rest

def dateMax : Int := ordinal 9999 12 31

def selectLoginEmployments (employments : List Employment) (today : Int) : Option LoginEmploymentSelection := do
  let eligible := (← employmentsWithinLoginWindow today employments).insertionSort startsFirst
  let current := eligible.filter fun employment => employmentIsValidOnDay employment today
  let upcoming := eligible.filter fun employment => today < employment.startDate
  let recent := eligible.filter fun employment => employment.endDate.getD dateMax < today
  if current ≠ [] then return ⟨eligible, (current.insertionSort startsFirst).head?⟩
  else if upcoming ≠ [] then return ⟨eligible, (upcoming.insertionSort startsFirst).head?⟩
  else return ⟨eligible, (recent.insertionSort (endsLast today)).head?⟩

end Selection

section Users

/-- A user as the list of users finds them. -/
structure ListedUser where
  id : Int
  isActive : Bool
  isBlocked : Bool
  employments : List Employment

structure PortalUserOut where
  id : Int
  isActive : Bool
  isBlocked : Bool
  loginStatus : String
  loginStatusReason : Option String
  /-- The employments in order, and whether each is valid today. -/
  employments : List (Employment × Bool)

def userLoginStatus (user : ListedUser) (today : Int) : Option (String × Option String) :=
  if user.isBlocked then some ("BLOCKED", some "Váš přístup byl zablokován, obraťte se na svého nadřízeného.")
  else if ¬ user.isActive then some ("DEACTIVATED", some "Ucet je rucne deaktivovany administratorem.")
  else do
    let selection ← selectLoginEmployments user.employments today
    return if selection.available ≠ [] then ("ACTIVE", none)
      else if user.employments ≠ [] then
        ("EMPLOYMENT_WINDOW_BLOCKED", some "Zadny uvazek neni v povolenem prihlasovacim okne.")
      else ("EMPLOYMENT_WINDOW_BLOCKED", some "Uzivatel nema zadny uvazek.")

def toUserOut (today : Int) (user : ListedUser) : Option PortalUserOut := do
  let (loginStatus, loginStatusReason) ← userLoginStatus user today
  return ⟨user.id, user.isActive, user.isBlocked, loginStatus, loginStatusReason,
    (user.employments.insertionSort startsFirst).map fun employment => (employment, employmentIsValidOnDay employment today)⟩

def dataIntegrityError : ApiError := .api 500 "data_integrity_error" "Data uživatele nejsou konzistentní." []

def listUsers (today : Int) (users : List ListedUser) : Api (List PortalUserOut) :=
  users.mapM fun user => Library.Outcome.require (toUserOut today user) dataIntegrityError

end Users

end Dagmar
