import Dagmar.CmlWeb
import Dagmar.Library.Routing

/-! The routes of the application behind the CML boundary, in the order they are tried.
A template is compiled to a regular expression that ends in `$`, which also stands
before one final newline. The routes of the documentation lie outside `/api/v1/`. -/

namespace Dagmar.Cml
open Library.Routing

inductive Handler where
  | healthV1 | healthCompat | readinessV1 | version | timeV1 | getMonthAttendance | getMonthEmployments
  | attendanceCreateAttendanceEvent | attendanceUpdateAttendanceEvent | attendanceDeleteAttendanceEvent
  | upsertAttendanceStatus | portalListShiftPlanGroups | portalGetGroupShiftPlanMonth | portalUpsertShiftPlan
  | portalUpsertDayStatus | registerInstance | getInstanceStatus | claimInstanceToken | providers | employeeMethods
  | adminMethods | loginStart | employeeLink | adminLink | employeeUnlink | adminUnlink | googleCallback
  | appleCallback | consumeLoginResult | adminForgotPassword | adminLogin | adminCsrf | adminLogout | adminMe
  | exportCsvOrZip | exportShiftPlanReportPayload | exportShiftPlanPdf | adminSetLocks | listMonthSheets
  | addMissingBreaks | createEvent | listEvents | updateEvent | deleteEvent | adminGetShiftPlanMonth
  | adminUpsertShiftPlan | adminUpsertDayStatus | adminSetShiftPlanSelection | listUsers | createUser | blockUser
  | updateUser | setUserPassword | deleteUser | sendResetLink | unlockUser | listUserEmployments | createEmployment
  | updateEmployment | deleteEmployment | adminListEmploymentGroups | adminCreateEmploymentGroup
  | adminUpdateEmploymentGroup | adminReplaceEmploymentGroupMembers | adminRemoveEmploymentGroupMembers
  | adminDeleteEmploymentGroup | getIntegrationClientOptions | listIntegrationClients | getIntegrationClientDetail
  | createIntegrationClient | updateIntegrationClient | rotateIntegrationClientSecret | disableIntegrationClient
  | enableIntegrationClient | revokeIntegrationClientSecret | listInstances | activateInstance | getSmtp | setSmtp
  | testSmtp | portalLogin | portalSession | portalCsrf | portalLogout | portalReset | integrationHealth
  | integrationOpenapi | listEmployments | listAttendanceEvents | integrationCreateAttendanceEvent
  | integrationUpdateAttendanceEvent | integrationDeleteAttendanceEvent | listLocks
deriving DecidableEq, Repr

/-- A route with the segments of its path template. -/
structure Route where
  method : String
  path : List String
  handler : Handler
deriving DecidableEq

def routes : List Route :=
[⟨"GET", ["api", "v1", "health"], .healthV1⟩,
    ⟨"GET", ["api", "health"], .healthCompat⟩,
    ⟨"GET", ["api", "v1", "readiness"], .readinessV1⟩,
    ⟨"GET", ["api", "version"], .version⟩,
    ⟨"GET", ["api", "v1", "time"], .timeV1⟩,
    ⟨"GET", ["api", "v1", "attendance"], .getMonthAttendance⟩,
    ⟨"GET", ["api", "v1", "attendance", "employments"], .getMonthEmployments⟩,
    ⟨"POST", ["api", "v1", "attendance", "events"], .attendanceCreateAttendanceEvent⟩,
    ⟨"PUT", ["api", "v1", "attendance", "events", "{event_id}"], .attendanceUpdateAttendanceEvent⟩,
    ⟨"DELETE", ["api", "v1", "attendance", "events", "{event_id}"], .attendanceDeleteAttendanceEvent⟩,
    ⟨"PUT", ["api", "v1", "attendance", "day-status"], .upsertAttendanceStatus⟩,
    ⟨"GET", ["api", "v1", "shift-plan", "groups"], .portalListShiftPlanGroups⟩,
    ⟨"GET", ["api", "v1", "shift-plan", "groups", "{group_id}"], .portalGetGroupShiftPlanMonth⟩,
    ⟨"PUT", ["api", "v1", "shift-plan"], .portalUpsertShiftPlan⟩,
    ⟨"PUT", ["api", "v1", "shift-plan", "day-status"], .portalUpsertDayStatus⟩,
    ⟨"POST", ["api", "v1", "instances", "register"], .registerInstance⟩,
    ⟨"GET", ["api", "v1", "instances", "{instance_id}", "status"], .getInstanceStatus⟩,
    ⟨"POST", ["api", "v1", "instances", "{instance_id}", "claim-token"], .claimInstanceToken⟩,
    ⟨"GET", ["api", "v1", "auth", "providers"], .providers⟩,
    ⟨"GET", ["api", "v1", "portal", "auth-methods"], .employeeMethods⟩,
    ⟨"GET", ["api", "v1", "admin", "auth-methods"], .adminMethods⟩,
    ⟨"GET", ["api", "v1", "auth", "{portal}", "{provider}", "start"], .loginStart⟩,
    ⟨"POST", ["api", "v1", "portal", "auth-methods", "{provider}", "link"], .employeeLink⟩,
    ⟨"POST", ["api", "v1", "admin", "auth-methods", "{provider}", "link"], .adminLink⟩,
    ⟨"DELETE", ["api", "v1", "portal", "auth-methods", "{provider}"], .employeeUnlink⟩,
    ⟨"DELETE", ["api", "v1", "admin", "auth-methods", "{provider}"], .adminUnlink⟩,
    ⟨"GET", ["api", "v1", "auth", "google", "callback"], .googleCallback⟩,
    ⟨"POST", ["api", "v1", "auth", "apple", "callback"], .appleCallback⟩,
    ⟨"POST", ["api", "v1", "auth", "result"], .consumeLoginResult⟩,
    ⟨"POST", ["api", "v1", "admin", "forgot-password"], .adminForgotPassword⟩,
    ⟨"POST", ["api", "v1", "admin", "login"], .adminLogin⟩,
    ⟨"GET", ["api", "v1", "admin", "csrf"], .adminCsrf⟩,
    ⟨"POST", ["api", "v1", "admin", "logout"], .adminLogout⟩,
    ⟨"GET", ["api", "v1", "admin", "me"], .adminMe⟩,
    ⟨"GET", ["api", "v1", "admin", "export"], .exportCsvOrZip⟩,
    ⟨"POST", ["api", "v1", "admin", "export", "shift-plan", "report"], .exportShiftPlanReportPayload⟩,
    ⟨"POST", ["api", "v1", "admin", "export", "shift-plan", "pdf"], .exportShiftPlanPdf⟩,
    ⟨"PUT", ["api", "v1", "admin", "locks"], .adminSetLocks⟩,
    ⟨"GET", ["api", "v1", "admin", "attendance", "month"], .listMonthSheets⟩,
    ⟨"POST", ["api", "v1", "admin", "attendance", "breaks"], .addMissingBreaks⟩,
    ⟨"POST", ["api", "v1", "admin", "attendance", "events"], .createEvent⟩,
    ⟨"GET", ["api", "v1", "admin", "attendance", "events"], .listEvents⟩,
    ⟨"PUT", ["api", "v1", "admin", "attendance", "events", "{event_id}"], .updateEvent⟩,
    ⟨"DELETE", ["api", "v1", "admin", "attendance", "events", "{event_id}"], .deleteEvent⟩,
    ⟨"GET", ["api", "v1", "admin", "shift-plan"], .adminGetShiftPlanMonth⟩,
    ⟨"PUT", ["api", "v1", "admin", "shift-plan"], .adminUpsertShiftPlan⟩,
    ⟨"PUT", ["api", "v1", "admin", "day-status"], .adminUpsertDayStatus⟩,
    ⟨"PUT", ["api", "v1", "admin", "shift-plan", "selection"], .adminSetShiftPlanSelection⟩,
    ⟨"GET", ["api", "v1", "admin", "users"], .listUsers⟩,
    ⟨"POST", ["api", "v1", "admin", "users"], .createUser⟩,
    ⟨"PUT", ["api", "v1", "admin", "users", "{user_id}", "block"], .blockUser⟩,
    ⟨"PUT", ["api", "v1", "admin", "users", "{user_id}"], .updateUser⟩,
    ⟨"POST", ["api", "v1", "admin", "users", "{user_id}", "set-password"], .setUserPassword⟩,
    ⟨"DELETE", ["api", "v1", "admin", "users", "{user_id}"], .deleteUser⟩,
    ⟨"POST", ["api", "v1", "admin", "users", "{user_id}", "send-reset"], .sendResetLink⟩,
    ⟨"POST", ["api", "v1", "admin", "users", "{user_id}", "unlock"], .unlockUser⟩,
    ⟨"GET", ["api", "v1", "admin", "users", "{user_id}", "employments"], .listUserEmployments⟩,
    ⟨"POST", ["api", "v1", "admin", "users", "{user_id}", "employments"], .createEmployment⟩,
    ⟨"PUT", ["api", "v1", "admin", "employments", "{employment_id}"], .updateEmployment⟩,
    ⟨"DELETE", ["api", "v1", "admin", "employments", "{employment_id}"], .deleteEmployment⟩,
    ⟨"GET", ["api", "v1", "admin", "employment-groups"], .adminListEmploymentGroups⟩,
    ⟨"POST", ["api", "v1", "admin", "employment-groups"], .adminCreateEmploymentGroup⟩,
    ⟨"PUT", ["api", "v1", "admin", "employment-groups", "{group_id}"], .adminUpdateEmploymentGroup⟩,
    ⟨"PUT", ["api", "v1", "admin", "employment-groups", "{group_id}", "members"],
      .adminReplaceEmploymentGroupMembers⟩,
    ⟨"DELETE", ["api", "v1", "admin", "employment-groups", "{group_id}", "members"],
      .adminRemoveEmploymentGroupMembers⟩,
    ⟨"DELETE", ["api", "v1", "admin", "employment-groups", "{group_id}"], .adminDeleteEmploymentGroup⟩,
    ⟨"GET", ["api", "v1", "admin", "integrations", "clients", "options"], .getIntegrationClientOptions⟩,
    ⟨"GET", ["api", "v1", "admin", "integrations", "clients"], .listIntegrationClients⟩,
    ⟨"GET", ["api", "v1", "admin", "integrations", "clients", "{client_id}"], .getIntegrationClientDetail⟩,
    ⟨"POST", ["api", "v1", "admin", "integrations", "clients"], .createIntegrationClient⟩,
    ⟨"PUT", ["api", "v1", "admin", "integrations", "clients", "{client_id}"], .updateIntegrationClient⟩,
    ⟨"POST", ["api", "v1", "admin", "integrations", "clients", "{client_id}", "rotate"],
      .rotateIntegrationClientSecret⟩,
    ⟨"POST", ["api", "v1", "admin", "integrations", "clients", "{client_id}", "disable"], .disableIntegrationClient⟩,
    ⟨"POST", ["api", "v1", "admin", "integrations", "clients", "{client_id}", "enable"], .enableIntegrationClient⟩,
    ⟨"POST", ["api", "v1", "admin", "integrations", "clients", "{client_id}", "revoke-secret"],
      .revokeIntegrationClientSecret⟩,
    ⟨"GET", ["api", "v1", "admin", "instances"], .listInstances⟩,
    ⟨"POST", ["api", "v1", "admin", "instances", "{instance_id}", "activate"], .activateInstance⟩,
    ⟨"GET", ["api", "v1", "admin", "smtp"], .getSmtp⟩,
    ⟨"PUT", ["api", "v1", "admin", "smtp"], .setSmtp⟩,
    ⟨"POST", ["api", "v1", "admin", "smtp", "test"], .testSmtp⟩,
    ⟨"POST", ["api", "v1", "portal", "login"], .portalLogin⟩,
    ⟨"GET", ["api", "v1", "portal", "session"], .portalSession⟩,
    ⟨"GET", ["api", "v1", "portal", "csrf"], .portalCsrf⟩,
    ⟨"POST", ["api", "v1", "portal", "logout"], .portalLogout⟩,
    ⟨"POST", ["api", "v1", "portal", "reset"], .portalReset⟩,
    ⟨"GET", ["api", "v1", "integration", "health"], .integrationHealth⟩,
    ⟨"GET", ["api", "v1", "integration", "openapi.json"], .integrationOpenapi⟩,
    ⟨"GET", ["api", "v1", "integration", "employments"], .listEmployments⟩,
    ⟨"GET", ["api", "v1", "integration", "attendance-events"], .listAttendanceEvents⟩,
    ⟨"POST", ["api", "v1", "integration", "attendance-events"], .integrationCreateAttendanceEvent⟩,
    ⟨"PATCH", ["api", "v1", "integration", "attendance-events", "{event_id}"], .integrationUpdateAttendanceEvent⟩,
    ⟨"DELETE", ["api", "v1", "integration", "attendance-events", "{event_id}"], .integrationDeleteAttendanceEvent⟩,
    ⟨"GET", ["api", "v1", "integration", "locks"], .listLocks⟩]

/-- A segment in braces is a parameter and stands for `[^/]+`. -/
def pieceOf (segment : String) : Piece Char :=
  if segment.toList.head? = some '\x7b' then .parameter else .literal segment.toList

def Route.template (route : Route) : List (Piece Char) := route.path.map pieceOf

def Route.serves (method : String) (segments : List (List Char)) (route : Route) : Bool :=
  route.method = method && accepts '\n' route.template segments

/-- The route a decoded path is dispatched to; the path begins with a slash. -/
def dispatch (method : String) : List Char → Option Route
  | '/' :: path => routes.find? (·.serves method (path.splitOn '/'))
  | _ => none

/-- A handler under `/api/v1/admin/users` or `/api/v1/admin/employments/`. -/
def Route.administers (route : Route) : Bool :=
  ["api", "v1", "admin", "users"].isPrefixOf route.path ||
    (["api", "v1", "admin", "employments"].isPrefixOf route.path && route.path.length ≠ 4)

/-- The local login, logout and reset handlers and those that hand out credentials or accounts. -/
def closedHandlers : List Handler :=
  [.portalLogin, .portalLogout, .portalReset, .adminLogin, .adminLogout, .setUserPassword, .sendResetLink, .createUser]

end Dagmar.Cml
