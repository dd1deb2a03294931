import Dagmar.EventApi
import Dagmar.ShiftPlanApi
import Dagmar.EmploymentApi
import Dagmar.LockApi

/-! Every request that writes attendance, plans, statuses, locks or employments,
and runs of them. Requests on one employment are serialised by its row lock, so a
run takes them one after another; a request that raises leaves the database as it was. -/

namespace Dagmar

inductive Request where
  | portalCreateEvent (auth : PortalUserAuth) (body : AttendanceEventIn)
  | portalUpdateEvent (auth : PortalUserAuth) (eventId : Int) (body : AttendanceEventIn)
  | portalDeleteEvent (auth : PortalUserAuth) (eventId : Int) (pairedEventId : Option Int)
  | adminCreateEvent (body : AttendanceEventIn)
  | adminUpdateEvent (eventId : Int) (body : AttendanceEventIn)
  | adminDeleteEvent (eventId : Int) (pairedEventId : Option Int)
  | integrationCreateEvent (client : IntegrationClient) (payload : AttendanceEventIn)
  | integrationUpdateEvent (client : IntegrationClient) (eventId : Int) (occurredAt : RequestTime)
  | integrationDeleteEvent (client : IntegrationClient) (eventId : Int) (pairedEventId : Option Int)
  | addMissingBreaks (body : Admin.AddBreaksIn)
  | portalUpsertShiftPlan (auth : PortalUserAuth) (body : ShiftPlanUpsertIn)
  | adminUpsertShiftPlan (body : ShiftPlanUpsertIn)
  | portalUpsertDayStatus (auth : PortalUserAuth) (body : DayStatusUpsertIn)
  | portalUpsertAttendanceStatus (auth : PortalUserAuth) (body : DayStatusUpsertIn)
  | adminUpsertDayStatus (body : DayStatusUpsertIn)
  | createEmployment (userId : Int) (payload : Admin.EmploymentCreateIn)
  | updateEmployment (employmentId : Int) (payload : Admin.EmploymentUpdateIn)
  | setLocks (username : Option String) (body : Admin.AdminLockSetIn)
  | setShiftPlanSelection (body : Admin.ShiftPlanSelectionIn)
  | autoLock

/-- How a request about events, plans or statuses names its employment. -/
inductive Address where
  | employment (id : Int)
  | event (id : Int)
deriving DecidableEq

def Request.address : Request → Option Address
  | .portalCreateEvent _ body => some (.employment body.employmentId)
  | .portalUpdateEvent _ eventId _ => some (.event eventId)
  | .portalDeleteEvent _ eventId _ => some (.event eventId)
  | .adminCreateEvent body => some (.employment body.employmentId)
  | .adminUpdateEvent eventId _ => some (.event eventId)
  | .adminDeleteEvent eventId _ => some (.event eventId)
  | .integrationCreateEvent _ payload => some (.employment payload.employmentId)
  | .integrationUpdateEvent _ eventId _ => some (.event eventId)
  | .integrationDeleteEvent _ eventId _ => some (.event eventId)
  | .addMissingBreaks body => some (.employment body.employmentId)
  | .portalUpsertShiftPlan _ body => some (.employment body.employmentId)
  | .adminUpsertShiftPlan body => some (.employment body.employmentId)
  | .portalUpsertDayStatus _ body => some (.employment body.employmentId)
  | .portalUpsertAttendanceStatus _ body => some (.employment body.employmentId)
  | .adminUpsertDayStatus body => some (.employment body.employmentId)
  | _ => none

/-- The employment behind an address, as the tables show it. -/
def Address.subject (db : Db) : Address → Option Int
  | .employment id => some id
  | .event id => (db.events.get id).map AttendanceEvent.employmentId

def Request.subject (db : Db) (request : Request) : Option Int := request.address.bind (Address.subject db)

/-- The database a request commits. -/
def Request.handle (zone : Zone) (clock : Clock) (db : Db) : Request → Api Db
  | .portalCreateEvent auth body => Prod.fst <$> Portal.createAttendanceEvent zone clock db auth body
  | .portalUpdateEvent auth eventId body => Prod.fst <$> Portal.updateAttendanceEvent zone clock db auth eventId body
  | .portalDeleteEvent auth eventId paired => Portal.deleteAttendanceEvent zone clock db auth eventId paired
  | .adminCreateEvent body => Prod.fst <$> Admin.createEvent zone clock db body
  | .adminUpdateEvent eventId body => Prod.fst <$> Admin.updateEvent zone clock db eventId body
  | .adminDeleteEvent eventId paired => Admin.deleteEvent zone clock db eventId paired
  | .integrationCreateEvent client payload => Prod.fst <$> Integration.createAttendanceEvent zone clock db client payload
  | .integrationUpdateEvent client eventId time =>
    Prod.fst <$> Integration.updateAttendanceEvent zone clock db client eventId time
  | .integrationDeleteEvent client eventId paired =>
    Prod.fst <$> Integration.deleteAttendanceEvent zone clock db client eventId paired
  | .addMissingBreaks body => Prod.fst <$> Admin.addMissingBreaks zone clock db body
  | .portalUpsertShiftPlan auth body => Portal.upsertShiftPlan zone clock db auth body
  | .adminUpsertShiftPlan body => Admin.upsertShiftPlanImpl zone clock db body
  | .portalUpsertDayStatus auth body => Portal.upsertDayStatus zone clock db auth body
  | .portalUpsertAttendanceStatus auth body => Portal.upsertAttendanceStatus zone clock db auth body
  | .adminUpsertDayStatus body => Admin.upsertDayStatus zone clock db body
  | .createEmployment userId payload => Prod.fst <$> Admin.createEmployment zone db userId payload
  | .updateEmployment employmentId payload => Admin.updateEmployment zone db employmentId payload
  | .setLocks username body => Prod.fst <$> Admin.setLocks zone db username body
  | .setShiftPlanSelection body => Admin.setShiftPlanSelection zone db body
  | .autoLock => Prod.fst <$> autoLockCurrentShiftPlanMonth zone clock db

/-- A request at a time of the server's clock. -/
structure Call where
  clock : Clock
  request : Request

def step (zone : Zone) (db : Db) (call : Call) : Db :=
  match call.request.handle zone call.clock db with
  | .ok next => next
  | .error _ => db

def run (zone : Zone) (db : Db) (calls : List Call) : Db := calls.foldl (step zone) db

end Dagmar
