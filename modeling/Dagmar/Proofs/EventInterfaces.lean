import Dagmar.Proofs.PlanUpserts

/-! The portal, the administration and the integration interface change events in
one way: given a caller each of them admits, they refuse the same requests and
commit the same database. -/

namespace Dagmar.Proofs
open Library Library.Calendar Library.Outcome Library.Pairing

/-- What an event request asks for, whichever interface carries it. -/
inductive EventChange where
  | create (occurredAt : RequestTime) (pairedOccurredAt : Option RequestTime)
  | update (eventId : Int) (occurredAt : RequestTime)
  | delete (eventId : Int) (pairedEventId : Option Int)

namespace EventChange

def portal (auth : PortalUserAuth) (employmentId : Int) : EventChange → Request
  | create occurredAt paired => .portalCreateEvent auth ⟨employmentId, occurredAt, paired⟩
  | update eventId occurredAt => .portalUpdateEvent auth eventId ⟨employmentId, occurredAt, none⟩
  | delete eventId paired => .portalDeleteEvent auth eventId paired

def admin (employmentId : Int) : EventChange → Request
  | create occurredAt paired => .adminCreateEvent ⟨employmentId, occurredAt, paired⟩
  | update eventId occurredAt => .adminUpdateEvent eventId ⟨employmentId, occurredAt, none⟩
  | delete eventId paired => .adminDeleteEvent eventId paired

def integration (client : IntegrationClient) (employmentId : Int) : EventChange → Request
  | create occurredAt paired => .integrationCreateEvent client ⟨employmentId, occurredAt, paired⟩
  | update eventId occurredAt => .integrationUpdateEvent client eventId occurredAt
  | delete eventId paired => .integrationDeleteEvent client eventId paired

/-- The times in the body. -/
def times : EventChange → List RequestTime
  | create occurredAt paired => occurredAt :: paired.toList
  | update _ occurredAt => [occurredAt]
  | delete _ _ => []

/-- The event that the path names. -/
def target : EventChange → Option Int
  | create _ _ => none
  | update eventId _ => some eventId
  | delete eventId _ => some eventId

def scope : EventChange → Scope
  | create _ _ => .attendanceCreate
  | update _ _ => .attendanceUpdate
  | delete _ _ => .attendanceDelete

end EventChange

/-- The employment is valid today with an active user, the portal user owns it and
enters no future time, and the client may make this change to it. -/
structure Admitted (zone : Zone) (clock : Clock) (db : Db) (auth : PortalUserAuth) (client : IntegrationClient)
    (employment : Employment) (change : EventChange) : Prop where
  stored : db.employments.get employment.id = some employment
  numbered : 1 ≤ employment.id
  active : lockedEmploymentHasActiveUser zone clock db employment
  owner : employment.userId = auth.userId
  past : ∀ time ∈ change.times, (pragueNow zone time).wall ≤ (clock.now zone).wall
  scope : change.scope ∈ client.scopes
  access : employmentScopePredicate zone clock db client employment
  addressed : ∀ event ∈ db.events, change.target = some event.id → event.employmentId = employment.id

section Guards
variable {zone : Zone} {clock : Clock} {db : Db} {auth : PortalUserAuth} {client : IntegrationClient}
  {employment : Employment} {change : EventChange}

theorem Admitted.portalEmployment (admitted : Admitted zone clock db auth client employment change) :
    portalEmployment db auth employment.id = .ok employment := by
  have signedIn := admitted.active.2
  rw [userIsActive, admitted.owner] at signedIn
  exact portalEmployment_eq_ok.mpr ⟨admitted.stored, admitted.owner, signedIn⟩

theorem Admitted.adminEmployment (admitted : Admitted zone clock db auth client employment change) :
    Admin.employmentWithActiveUser db employment.id = .ok employment := by
  simp [Admin.employmentWithActiveUser, admitted.stored, admitted.active.2]

theorem Admitted.integrationEmployment (admitted : Admitted zone clock db auth client employment change) :
    Integration.activeEmployment zone clock db employment.id = .ok employment := by
  simp [Integration.activeEmployment, admitted.stored, admitted.active]

theorem Admitted.locked (admitted : Admitted zone clock db auth client employment change) :
    lockEmploymentForTimeMutation db employment.id = .ok employment := by
  simp [admitted.stored]

theorem Admitted.requireScope (admitted : Admitted zone clock db auth client employment change) :
    requireScope client change.scope = .ok () := by
  simp [Dagmar.requireScope, admitted.scope]

theorem Admitted.requireAccess (admitted : Admitted zone clock db auth client employment change) :
    requireEmploymentAccess zone clock db client employment.id = .ok () := by
  simp [requireEmploymentAccess, admitted.stored, admitted.access]

end Guards

section Alike

/-- Sorting the events first changes no interval. -/
theorem intervalSignatures_ordered (events : List AttendanceEvent) :
    intervalSignatures (orderedEvents events) = intervalSignatures events := by
  have again : orderedEvents (orderedEvents events) = orderedEvents events :=
    List.Pairwise.insertionSort_eq (List.pairwise_insertionSort eventLe events)
  simp only [intervalSignatures, pairEvents, pairEventRows, again]

theorem checkedTime_cases (zone : Zone) (time : RequestTime) :
    (checkedTime zone time).toOption = none ∨ checkedTime zone time = .ok (pragueNow zone time) := by
  by_cases outside : (pragueNow zone time).date < 1 ∨ ordinal 9999 12 31 < (pragueNow zone time).date
  · exact .inl (by simp [checkedTime, outside])
  · exact .inr (by simp [checkedTime, outside])

variable {zone : Zone} {clock : Clock} {db : Db} {auth : PortalUserAuth} {client : IntegrationClient}
  {employment : Employment}

theorem create_alike {time : Int} {paired : Option RequestTime} (offset : ∀ other ∈ paired, ∃ utc, other = .aware utc)
    (admitted : Admitted zone clock db auth client employment (.create (.aware time) paired)) :
    (Portal.createAttendanceEvent zone clock db auth ⟨employment.id, .aware time, paired⟩).toOption =
        (Admin.createEvent zone clock db ⟨employment.id, .aware time, paired⟩).toOption ∧
      (Integration.createAttendanceEvent zone clock db client ⟨employment.id, .aware time, paired⟩).toOption =
        (Admin.createEvent zone clock db ⟨employment.id, .aware time, paired⟩).toOption := by
  have numbered : ¬ employment.id < 1 := not_lt.mpr admitted.numbered
  have present (other : RequestTime) (member : other ∈ (EventChange.create (.aware time) paired).times) :=
    not_lt.mpr (admitted.past other member)
  have granted := admitted.requireScope
  simp only [EventChange.scope] at granted
  rcases checkedTime_cases zone (.aware time) with outside | read
  · simp [Portal.createAttendanceEvent, Admin.createEvent, Integration.createAttendanceEvent, offsetTime, numbered,
      outside]
  · have first := present (.aware time) (by simp [EventChange.times])
    cases paired with
    | none =>
      simp [Portal.createAttendanceEvent, Admin.createEvent, Integration.createAttendanceEvent, offsetTime, numbered,
        read, checkedTime?, offsetTime?, admitted.portalEmployment, admitted.adminEmployment,
        admitted.integrationEmployment, admitted.active, admitted.owner, admitted.locked, granted,
        admitted.requireAccess, first]
    | some other =>
      obtain ⟨utc, rfl⟩ := offset other rfl
      have second := present (.aware utc) (by simp [EventChange.times])
      rcases checkedTime_cases zone (.aware utc) with outside | read'
      · simp [Portal.createAttendanceEvent, Admin.createEvent, Integration.createAttendanceEvent, offsetTime, numbered,
          read, checkedTime?, offsetTime?, outside]
      · simp [Portal.createAttendanceEvent, Admin.createEvent, Integration.createAttendanceEvent, offsetTime, numbered,
          read, read', checkedTime?, offsetTime?, admitted.portalEmployment, admitted.adminEmployment,
          admitted.integrationEmployment, admitted.active, admitted.owner, admitted.locked, granted,
          admitted.requireAccess, first, second]

theorem update_alike {eventId time : Int}
    (admitted : Admitted zone clock db auth client employment (.update eventId (.aware time))) :
    (Portal.updateAttendanceEvent zone clock db auth eventId ⟨employment.id, .aware time, none⟩).toOption =
        (Admin.updateEvent zone clock db eventId ⟨employment.id, .aware time, none⟩).toOption ∧
      (Integration.updateAttendanceEvent zone clock db client eventId (.aware time)).toOption =
        (Admin.updateEvent zone clock db eventId ⟨employment.id, .aware time, none⟩).toOption := by
  have numbered : ¬ employment.id < 1 := not_lt.mpr admitted.numbered
  have present := not_lt.mpr (admitted.past (.aware time) (by simp [EventChange.times]))
  have granted := admitted.requireScope
  simp only [EventChange.scope] at granted
  rcases checkedTime_cases zone (.aware time) with outside | read
  · simp [Portal.updateAttendanceEvent, Admin.updateEvent, Integration.updateAttendanceEvent, offsetTime, numbered,
      outside]
  · cases stored : db.events.get eventId with
    | none =>
      simp [Portal.updateAttendanceEvent, Admin.updateEvent, Integration.updateAttendanceEvent, offsetTime, numbered,
        read, checkedTime?, stored, granted]
    | some event =>
      obtain ⟨member, same⟩ := Table.get_eq_some_iff.mp stored
      have owner := admitted.addressed event member (by rw [EventChange.target, same])
      simp [Portal.updateAttendanceEvent, Admin.updateEvent, Integration.updateAttendanceEvent, offsetTime, numbered,
        read, checkedTime?, stored, owner, admitted.portalEmployment, admitted.active, admitted.active.1,
        admitted.active.2, admitted.owner, admitted.locked, granted, admitted.requireAccess, present,
        intervalSignatures_ordered]

theorem delete_alike {eventId : Int} {paired : Option Int}
    (admitted : Admitted zone clock db auth client employment (.delete eventId paired)) :
    (Portal.deleteAttendanceEvent zone clock db auth eventId paired).toOption =
        (Admin.deleteEvent zone clock db eventId paired).toOption ∧
      (Prod.fst <$> Integration.deleteAttendanceEvent zone clock db client eventId paired).toOption =
        (Admin.deleteEvent zone clock db eventId paired).toOption := by
  have granted := admitted.requireScope
  simp only [EventChange.scope] at granted
  cases stored : db.events.get eventId with
  | none =>
    simp [Portal.deleteAttendanceEvent, Admin.deleteEvent, Integration.deleteAttendanceEvent, stored, granted]
  | some event =>
    obtain ⟨member, same⟩ := Table.get_eq_some_iff.mp stored
    have owner := admitted.addressed event member (by rw [EventChange.target, same])
    simp [Portal.deleteAttendanceEvent, Admin.deleteEvent, Integration.deleteAttendanceEvent, stored, owner,
      admitted.portalEmployment, admitted.active, admitted.active.1, admitted.active.2, admitted.owner, admitted.locked,
      granted, admitted.requireAccess]

end Alike

section Agreement
variable {zone : Zone} {clock : Clock} {db : Db}

/-- Either every request commits the same database, or every one raises and leaves it as it was. -/
def OneVerdict (zone : Zone) (clock : Clock) (db : Db) (requests : List Request) : Prop :=
  (∃ next, ∀ request ∈ requests, request.handle zone clock db = .ok next ∧ step zone db ⟨clock, request⟩ = next) ∨
    ∀ request ∈ requests, (request.handle zone clock db).toOption = none ∧ step zone db ⟨clock, request⟩ = db

theorem step_of_toOption (request : Request) :
    step zone db ⟨clock, request⟩ = (request.handle zone clock db).toOption.getD db := by
  simp only [step]
  cases request.handle zone clock db <;> rfl

theorem oneVerdict_of_alike {portal admin integration : Request}
    (first : (portal.handle zone clock db).toOption = (admin.handle zone clock db).toOption)
    (second : (integration.handle zone clock db).toOption = (admin.handle zone clock db).toOption) :
    OneVerdict zone clock db [portal, admin, integration] := by
  cases verdict : (admin.handle zone clock db).toOption with
  | none =>
    rw [verdict] at first second
    exact .inr (by simp [step_of_toOption, first, second, verdict])
  | some next =>
    rw [verdict] at first second
    refine .inl ⟨next, ?_⟩
    simp only [List.forall_mem_cons, List.not_mem_nil, false_imp_iff, implies_true, and_true, step_of_toOption, first,
      second, verdict, Option.getD_some]
    exact ⟨toOption_eq_some.mp first, toOption_eq_some.mp verdict, toOption_eq_some.mp second⟩

/-- Whatever change of events they carry, with times that have an offset, the three
interfaces reach one verdict on it. -/
theorem event_interfaces_agree (zone : Zone) (clock : Clock) (db : Db) (auth : PortalUserAuth) (client : IntegrationClient)
    (employment : Employment) (change : EventChange) (admitted : Admitted zone clock db auth client employment change)
    (offset : ∀ time ∈ change.times, ∃ utc, time = .aware utc) :
    OneVerdict zone clock db
      [change.portal auth employment.id, change.admin employment.id, change.integration client employment.id] := by
  cases change with
  | create occurredAt paired =>
    obtain ⟨utc, rfl⟩ := offset occurredAt (by simp [EventChange.times])
    have same := create_alike (fun other given => offset other (by simp_all [EventChange.times])) admitted
    apply oneVerdict_of_alike
    · simp [EventChange.portal, EventChange.admin, Request.handle, same.1]
    · simp [EventChange.integration, EventChange.admin, Request.handle, same.2]
  | update eventId occurredAt =>
    obtain ⟨utc, rfl⟩ := offset occurredAt (by simp [EventChange.times])
    have same := update_alike admitted
    apply oneVerdict_of_alike
    · simp [EventChange.portal, EventChange.admin, Request.handle, same.1]
    · simp [EventChange.integration, EventChange.admin, Request.handle, same.2]
  | delete eventId paired => exact oneVerdict_of_alike (delete_alike admitted).1 (delete_alike admitted).2

end Agreement

section Sample

def sampleClient : IntegrationClient := ⟨[.attendanceCreate], .allEmployments, [], [], false⟩

/-- Eight o'clock on the morning of 5 August 2026, in Prague. -/
def sampleMorning : RequestTime := .aware (midnight 739833 + 360 * minute)

def sampleNaive : RequestTime := .naive (midnight 739833 + 480 * minute)

theorem sample_admitted (time : RequestTime) (past : (pragueNow sampleZone time).wall ≤ (sampleClock.now sampleZone).wall) :
    Admitted sampleZone sampleClock sampleDb ⟨1, "portal"⟩ sampleClient sampleEmployment (.create time none) where
  stored := rfl
  numbered := by decide
  active := by decide
  owner := rfl
  past := by simpa [EventChange.times] using past
  scope := by simp [EventChange.scope, sampleClient]
  access := by decide
  addressed _ _ named := by cases named

theorem sample_interfaces_agree : OneVerdict sampleZone sampleClock sampleDb
    [.portalCreateEvent ⟨1, "portal"⟩ ⟨1, sampleMorning, none⟩, .adminCreateEvent ⟨1, sampleMorning, none⟩,
      .integrationCreateEvent sampleClient ⟨1, sampleMorning, none⟩] :=
  event_interfaces_agree sampleZone sampleClock sampleDb ⟨1, "portal"⟩ sampleClient sampleEmployment
    (.create sampleMorning none) (sample_admitted sampleMorning (by decide))
    (by simp [EventChange.times, sampleMorning])

/-- A time without an offset is Prague time to the portal and the administration; the
integration body refuses it. -/
theorem interfaces_disagree_on_naive_time :
    Admitted sampleZone sampleClock sampleDb ⟨1, "portal"⟩ sampleClient sampleEmployment (.create sampleNaive none) ∧
      ¬ OneVerdict sampleZone sampleClock sampleDb
        [.portalCreateEvent ⟨1, "portal"⟩ ⟨1, sampleNaive, none⟩, .adminCreateEvent ⟨1, sampleNaive, none⟩,
          .integrationCreateEvent sampleClient ⟨1, sampleNaive, none⟩] := by
  refine ⟨sample_admitted sampleNaive (by decide), ?_⟩
  have accepted : ((Request.adminCreateEvent ⟨1, sampleNaive, none⟩).handle sampleZone sampleClock sampleDb).toOption.isSome := by
    decide +kernel
  have refused : ((Request.integrationCreateEvent sampleClient ⟨1, sampleNaive, none⟩).handle
      sampleZone sampleClock sampleDb).toOption = none := rfl
  intro verdict
  rcases verdict with ⟨next, same⟩ | raised
  · have both := (same (.integrationCreateEvent sampleClient ⟨1, sampleNaive, none⟩) (by simp)).1
    rw [both] at refused
    cases refused
  · rw [(raised (.adminCreateEvent ⟨1, sampleNaive, none⟩) (by simp)).1] at accepted
    cases accepted

end Sample

end Dagmar.Proofs
