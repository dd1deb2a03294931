import Dagmar.EmploymentApi

/-! Groups of employments that share their shift plans, and the two requests that
delete employments. Deleting a row takes the rows that refer to it along. -/

namespace Dagmar.Groups
open Library Library.Outcome

section Rows

structure EmploymentGroup where
  id : Int
  name : String
deriving DecidableEq

structure EmploymentGroupMember where
  groupId : Int
  employmentId : Int
deriving DecidableEq

def EmploymentGroupMember.key (member : EmploymentGroupMember) : Int × Int := (member.groupId, member.employmentId)

structure GroupStore where
  db : Db
  groups : Table EmploymentGroup EmploymentGroup.id
  members : Table EmploymentGroupMember EmploymentGroupMember.key
  nextGroupId : Int

def GroupStore.empty : GroupStore := ⟨Db.blank ∅ ∅ 1, ∅, ∅, 1⟩

/-- `str.lower` and the `lower` of the database. -/
structure Casing where
  lower : String → String
  sqlLower : String → String

end Rows

section Services

structure EmploymentGroupError where
  code : String
  message : String
deriving DecidableEq

inductive Raised where
  | group (error : EmploymentGroupError)
  | integrity
deriving DecidableEq

abbrev Grouped := Except Raised

def groupError {α : Type} (code message : String) : Grouped α := .error (.group ⟨code, message⟩)

def raiseGroupIf (condition : Prop) [Decidable condition] (code message : String) : Grouped Unit :=
  raiseIf condition (.group ⟨code, message⟩)

/-- `" ".join(value.split())`. -/
def joinWords (value : String) : String :=
  String.intercalate " " (((value.toList.splitOnP isSpace).filter (· ≠ [])).map String.ofList)

def normalizeGroupName (value : String) : Grouped String := do
  raiseGroupIf (joinWords value = "") "invalid_group_name" "Název skupiny je povinný."
  return joinWords value

def normalizeMemberIds (values : List Int) : Grouped (List Int) := do
  raiseGroupIf (values.length < 2) "group_requires_two_members" "Skupina musí obsahovat alespoň dva různé úvazky."
  raiseGroupIf (¬ values.Nodup) "duplicate_group_member" "Stejný úvazek nelze do skupiny přidat vícekrát."
  return values

def loadEmployments (store : GroupStore) (memberIds : List Int) : Grouped Unit :=
  raiseGroupIf ((store.db.employments.select (·.id ∈ memberIds)).length ≠ memberIds.length)
    "employment_not_found" "Jeden nebo více úvazků nebylo nalezeno."

def getGroup (store : GroupStore) (groupId : Int) : Grouped EmploymentGroup :=
  require (store.groups.get groupId) (.group ⟨"group_not_found", "Skupina nebyla nalezena."⟩)

def GroupStore.membersOf (store : GroupStore) (groupId : Int) : List EmploymentGroupMember :=
  store.members.select (·.groupId = groupId)

variable (casing : Casing)

def ensureUniqueName (store : GroupStore) (name : String) (excludingId : Option Int) : Grouped Unit :=
  raiseGroupIf ((store.groups.select fun group => casing.sqlLower group.name = casing.lower name ∧ some group.id ≠ excludingId) ≠ [])
    "duplicate_group_name" "Skupina s tímto názvem již existuje."

/-- A row is written unless the unique index on `lower(name)` has its name already. -/
def writeGroup (store : GroupStore) (group : EmploymentGroup) : Grouped GroupStore := do
  raiseIf ((store.groups.select fun other => casing.sqlLower other.name = casing.sqlLower group.name ∧ other.id ≠ group.id) ≠ [])
    Raised.integrity
  return { store with groups := store.groups.put group }

def addMembers (store : GroupStore) (groupId : Int) (memberIds : List Int) : Grouped GroupStore := do
  let members ← require (store.members.insertAll (memberIds.map (⟨groupId, ·⟩))) Raised.integrity
  return { store with members := members }

def createGroup (store : GroupStore) (name : String) (memberIds : List Int) : Grouped GroupStore := do
  let name ← normalizeGroupName name
  let ids ← normalizeMemberIds memberIds
  ensureUniqueName casing store name none
  loadEmployments store ids
  let group : EmploymentGroup := ⟨store.nextGroupId, name⟩
  let store ← writeGroup casing { store with nextGroupId := store.nextGroupId + 1 } group
  addMembers store group.id ids

def replaceMembers (store : GroupStore) (groupId : Int) (memberIds : List Int) : Grouped GroupStore := do
  let ids ← normalizeMemberIds memberIds
  let group ← getGroup store groupId
  loadEmployments store ids
  addMembers { store with members := store.members.deleteWhere (·.groupId = group.id) } group.id ids

def renameGroup (store : GroupStore) (groupId : Int) (name : String) : Grouped GroupStore := do
  let group ← getGroup store groupId
  let normalized ← normalizeGroupName name
  ensureUniqueName casing store normalized (some group.id)
  writeGroup casing store { group with name := normalized }

def GroupStore.deleteGroup (store : GroupStore) (groupId : Int) : GroupStore :=
  { store with
    groups := store.groups.deleteWhere (·.id = groupId)
    members := store.members.deleteWhere (·.groupId = groupId) }

def GroupStore.withoutMembers (store : GroupStore) (groupId : Int) (memberIds : List Int) : GroupStore :=
  { store with members := store.members.deleteWhere fun member => member.groupId = groupId ∧ member.employmentId ∈ memberIds }

/-- Whether the group went with its members is the second part. -/
def removeMembers (store : GroupStore) (groupId : Int) (memberIds : List Int) : Grouped (GroupStore × Bool) := do
  let group ← getGroup store groupId
  raiseGroupIf (¬ ∀ id ∈ memberIds, id ∈ (store.membersOf group.id).map EmploymentGroupMember.employmentId)
    "group_member_not_found" "Úvazek není členem této skupiny."
  let removed := store.withoutMembers group.id memberIds
  if (removed.membersOf group.id).length < 2 then return (removed.deleteGroup group.id, true)
  else return (removed, false)

def removeGroupsForEmployment (store : GroupStore) (employmentId : Int) : Grouped GroupStore :=
  ((store.members.select (·.employmentId = employmentId)).map EmploymentGroupMember.groupId).foldlM
    (fun store groupId => Prod.fst <$> removeMembers store groupId [employmentId]) store

end Services

section Deletion

/-- The rows of some employments go, and all rows that refer to them. -/
def GroupStore.deleteEmployments (store : GroupStore) (ids : List Int) : GroupStore where
  db :=
    { store.db with
      employments := store.db.employments.deleteWhere (·.id ∈ ids)
      events := store.db.events.deleteWhere (·.employmentId ∈ ids)
      attendance := store.db.attendance.deleteWhere (·.employmentId ∈ ids)
      shiftPlans := store.db.shiftPlans.deleteWhere (·.employmentId ∈ ids)
      metrics := store.db.metrics.deleteWhere (·.employmentId ∈ ids)
      attendanceLocks := store.db.attendanceLocks.deleteWhere (·.employmentId ∈ ids)
      shiftPlanLocks := store.db.shiftPlanLocks.deleteWhere (·.employmentId ∈ ids)
      monthInstances := store.db.monthInstances.deleteWhere (·.employmentId ∈ ids)
      reminders := store.db.reminders.deleteWhere (·.employmentId ∈ ids) }
  groups := store.groups
  members := store.members.deleteWhere (·.employmentId ∈ ids)
  nextGroupId := store.nextGroupId

def collectRelatedDataSummary (zone : Zone) (db : Db) (employmentId : Int) : RangeConflictSummary :=
  let attendance := db.attendanceOf employmentId
  let events := db.eventsOf employmentId
  let plans := db.plansOf employmentId
  let attendanceLocks := db.attendanceLocks.select (·.employmentId = employmentId)
  let shiftPlanLocks := db.shiftPlanLocks.select (·.employmentId = employmentId)
  let selections := db.monthInstances.select (·.employmentId = employmentId)
  let reminders := db.reminders.select (·.employmentId = employmentId)
  let days := attendance.map Attendance.date ++ events.map (fun event => (zone.load event.occurredAt.utc).date) ++
    plans.map ShiftPlan.date ++ reminders.map AttendanceReminderEvent.attendanceDate
  let months := (attendanceLocks ++ shiftPlanLocks).map (fun row => monthBounds row.year row.month) ++
    selections.map fun row => monthBounds row.year row.month
  { attendanceCount := attendance.length + events.length
    shiftPlanCount := plans.length
    attendanceLockCount := attendanceLocks.length
    shiftPlanLockCount := shiftPlanLocks.length
    shiftPlanSelectionCount := selections.length
    reminderCount := reminders.length
    minDate := (days ++ months.map Prod.fst).min?
    maxDate := (days ++ months.map Prod.snd).max? }

def deleteConflict (summary : RangeConflictSummary) : ApiError :=
  .api 409 "employment_delete_conflict" "Uvazek obsahuje navazana data. Smazani je nutne potvrdit."
    ([("attendance_count", .number summary.attendanceCount), ("shift_plan_count", .number summary.shiftPlanCount),
      ("attendance_lock_count", .number summary.attendanceLockCount),
      ("shift_plan_lock_count", .number summary.shiftPlanLockCount),
      ("shift_plan_selection_count", .number summary.shiftPlanSelectionCount),
      ("reminder_count", .number summary.reminderCount)] ++
      (summary.minDate.map fun date => ("problem_range_start", Param.date date)).toList ++
      (summary.maxDate.map fun date => ("problem_range_end", Param.date date)).toList ++
      [("requires_confirmation", .flag true)])

/-- An error that the request does not expect. -/
def uncaughtGroupError : Raised → ApiError
  | .group _ => .uncaught "EmploymentGroupError"
  | .integrity => .uncaught "IntegrityError"

/-- The related rows that are deleted first go with the employment in any case. -/
def deleteEmployment (zone : Zone) (store : GroupStore) (employmentId : Int) (confirmDeleteRelated : Bool) : Api GroupStore := do
  let employment ← require (store.db.employments.get employmentId) (.api 404 "employment_not_found" "Úvazek nebyl nalezen." [])
  let employment ← lockEmploymentForTimeMutation store.db employment.id
  let summary := collectRelatedDataSummary zone store.db employment.id
  raiseIf (summary.hasConflicts ∧ ¬ confirmDeleteRelated) (deleteConflict summary)
  let store ← (removeGroupsForEmployment store employment.id).mapError uncaughtGroupError
  return store.deleteEmployments [employment.id]

def employmentIdsOf (db : Db) (userId : Int) : List Int := (db.employments.select (·.userId = userId)).map Employment.id

/-- The account goes with its employments. -/
def deleteUser (store : GroupStore) (userId : Int) : Api GroupStore := do
  let user ← require (store.db.users.get userId) (.api 404 "user_not_found" "Uzivatel nenalezen." [])
  let store := store.deleteEmployments (employmentIdsOf store.db user.id)
  return { store with db := { store.db with users := store.db.users.deleteWhere (·.id = user.id) } }

end Deletion

section Requests

def groupErrorStatus : String → Nat
  | "group_not_found" => 404
  | "employment_not_found" => 404
  | "group_member_not_found" => 404
  | "duplicate_group_name" => 409
  | "duplicate_group_member" => 409
  | _ => 400

def answerGroupError : Raised → ApiError
  | .group error => .api (groupErrorStatus error.code) error.code error.message []
  | .integrity => .uncaught "IntegrityError"

def answerCreateError : Raised → ApiError
  | .integrity => .api 409 "duplicate_group_member" "Skupinu nelze uložit kvůli souběžné změně členství." []
  | raised => answerGroupError raised

inductive GroupRequest where
  | createGroup (name : String) (employmentIds : List Int)
  | renameGroup (groupId : Int) (name : String)
  | replaceMembers (groupId : Int) (employmentIds : List Int)
  | removeMembers (groupId : Int) (employmentIds : List Int)
  | deleteGroup (groupId : Int)
  | deleteEmployment (employmentId : Int) (confirmDeleteRelated : Bool)
  | deleteUser (userId : Int)

def GroupRequest.handle (zone : Zone) (casing : Casing) (store : GroupStore) : GroupRequest → Api GroupStore
  | .createGroup name employmentIds => do
    raiseIf (160 < name.length) (.invalid "name")
    raiseIf (employmentIds.length < 2) (.invalid "employment_ids")
    (Groups.createGroup casing store (joinWords name) employmentIds).mapError answerCreateError
  | .renameGroup groupId name => do
    raiseIf (160 < name.length) (.invalid "name")
    (Groups.renameGroup casing store groupId name).mapError answerGroupError
  | .replaceMembers groupId employmentIds => do
    raiseIf (employmentIds.length < 1) (.invalid "employment_ids")
    (Groups.replaceMembers store groupId employmentIds).mapError answerGroupError
  | .removeMembers groupId employmentIds => do
    raiseIf (employmentIds.length < 1) (.invalid "employment_ids")
    Prod.fst <$> (Groups.removeMembers store groupId employmentIds).mapError answerGroupError
  | .deleteGroup groupId => do
    let group ← (getGroup store groupId).mapError answerGroupError
    return store.deleteGroup group.id
  | .deleteEmployment employmentId confirmDeleteRelated => Groups.deleteEmployment zone store employmentId confirmDeleteRelated
  | .deleteUser userId => Groups.deleteUser store userId

/-- A refused request changes nothing. -/
def GroupStore.step (zone : Zone) (casing : Casing) (store : GroupStore) (request : GroupRequest) : GroupStore :=
  match request.handle zone casing store with
  | .ok next => next
  | .error _ => store

/-- One of these requests, or another one, which deletes no employment and touches no group. -/
inductive GroupStep (zone : Zone) (casing : Casing) (store : GroupStore) : GroupStore → Prop where
  | request (request : GroupRequest) : GroupStep zone casing store (store.step zone casing request)
  | other (next : Db) (kept : ∀ employment ∈ store.db.employments, ∃ same ∈ next.employments, same.id = employment.id) :
      GroupStep zone casing store { store with db := next }

end Requests

end Dagmar.Groups
