import Dagmar.PlanPayloads

/-! The list of all groups for the administration, each with its members. -/

namespace Dagmar.Groups
open Library Library.Outcome Integration Payloads

section Directory

structure EmploymentGroupMemberOut where
  employmentId : Int
  userName : String
  title : String
  employmentType : String
  displayLabel : String
  startDate : Int
  endDate : Option Int
deriving DecidableEq

structure EmploymentGroupOut where
  id : Int
  name : String
  members : List EmploymentGroupMemberOut
deriving DecidableEq

variable (view : View) (store : GroupStore)

/-- A member without an employment or an account has no attributes to read. -/
def memberOut (member : EmploymentGroupMember) : Api EmploymentGroupMemberOut := do
  let employment ← require (view.db.employments.get member.employmentId) (.uncaught "AttributeError")
  let user ← require (view.db.users.get employment.userId) (.uncaught "AttributeError")
  return {
    employmentId := member.employmentId
    userName := view.columns.userName user.id
    title := view.columns.title employment.id
    employmentType := typeValue employment.employmentType
    displayLabel := employmentLabel view employment
    startDate := employment.startDate
    endDate := employment.endDate }

/-- `_to_out`. -/
def groupOut (group : EmploymentGroup) : Api EmploymentGroupOut := do
  let members ← (ordered EmploymentGroupMember.employmentId (store.membersOf group.id)).mapM (memberOut view)
  return ⟨group.id, group.name, members⟩

/-- `admin_list_employment_groups`. -/
def adminListEmploymentGroups (collate : String → String → Bool) : Api (List EmploymentGroupOut) :=
  (store.groups.rows.insertionSort (groupLe collate)).mapM (groupOut view store)

end Directory

end Dagmar.Groups
