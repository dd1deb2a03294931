import Dagmar.EventApi
import Dagmar.IsoText
import Dagmar.Json
import Dagmar.Library.Paging
import Mathlib.Data.Prod.Lex

/-! The lists of the integration interface, page by page. A cursor stands for what
its text decodes to; an empty text is no cursor. -/

namespace Dagmar.Integration
open Library Library.Outcome

section Cursors

/-- A text that is no JSON, a JSON value, or brackets within brackets until the stack of the loader ends. -/
inductive Cursor where
  | malformed
  | json (value : Json)
  | nested

def encodeCursor (payload : Json) : Cursor := .json payload

def cursorInvalid : ApiError := .api 400 "invalid_cursor" "Cursor není platný." []

def cursorForeign : ApiError := .api 400 "invalid_cursor" "Cursor nepatří k tomuto seznamu." []

/-- The fields of a cursor; `none` is no cursor. -/
def decodeCursor : Option Cursor → Api (Option Json)
  | none => return none
  | some .malformed => .error cursorInvalid
  | some (.json (.object fields)) => return some (.object fields)
  | some (.json _) => .error cursorInvalid
  | some .nested => .error (.uncaught "RecursionError")

def encodeResourceCursor (resource : String) (key : Json) : Cursor :=
  encodeCursor (.object [("v", .number 1), ("resource", .text resource), ("key", key)])

/-- A key of `null` reads as no cursor. -/
def resourceKey (resource : String) : Option Json → Api Json
  | none => return .null
  | some payload =>
    if ((payload.get "v").any Json.isOne && (payload.get "resource").any (Json.isText resource)) then
      require (payload.get "key") cursorForeign
    else .error cursorForeign

def decodeResourceCursor (cursor : Option Cursor) (resource : String) : Api Json := do
  resourceKey resource (← decodeCursor cursor)

def integerKey : Json → Api (Option Int)
  | .null => return none
  | .number id => if id < 1 then .error cursorInvalid else return some id
  | _ => .error cursorInvalid

def integerCursor (cursor : Option Cursor) (resource : String) : Api (Option Int) := do
  integerKey (← decodeResourceCursor cursor resource)

/-- Where a list of events stands: an instant, then a number. -/
abbrev EventPosition := Int ×ₗ Int

def attendancePosition (time : Option RequestTime) (id : Int) : Api (Option EventPosition) :=
  match time with
  | some (.aware utc) =>
    if inCalendar (dateOf utc) then return some (toLex (utc, id)) else .error (.uncaught "OverflowError")
  | _ => .error cursorInvalid

def attendanceKey : Json → Api (Option EventPosition)
  | .null => return none
  | .list [.text occurredAt, .number id] =>
    if id < 1 then .error cursorInvalid else attendancePosition (datetimeFromIsoformat occurredAt) id
  | _ => .error cursorInvalid

def attendanceCursor (cursor : Option Cursor) : Api (Option EventPosition) := do
  attendanceKey (← decodeResourceCursor cursor "attendance-events")

def utcCursorValue (utc : Int) : String := isoformat utc 0

end Cursors

section Parameters

/-- The greatest number of an `INTEGER` column. -/
def integerMax : Int := 2147483647

/-- A number of a statement is cast to the type of its column. -/
def bindInteger (value : Option Int) : Api Unit :=
  raiseIf (∃ number ∈ value, number < -integerMax - 1 ∨ integerMax < number) (.uncaught "DataError")

end Parameters

section Responses

structure PaginationOut where
  limit : Nat
  nextCursor : Option Cursor
  hasMore : Bool

structure ListResponse where
  data : List Json
  pagination : PaginationOut

def respond (rows : List Json) (limit : Nat) (resource : String) (cursorKey : Option Json) : ListResponse :=
  let hasMore := decide (limit < rows.length)
  let pageRows := rows.take limit
  ⟨pageRows, limit,
    if hasMore && ! pageRows.isEmpty then some (encodeResourceCursor resource (cursorKey.getD .null)) else none, hasMore⟩

/-- The bounds of the query parameter. -/
def limitField (limit : Nat) : Api Unit := raiseIf (limit < 1 ∨ 500 < limit) (.invalid "limit")

end Responses

section Views

/-- Columns that only the lists show: of employments, of users and of events. -/
structure Columns where
  title : Int → String
  userName : Int → String
  updatedAt : Int → Int

/-- What a request finds. -/
structure View where
  clock : Clock
  db : Db
  columns : Columns

variable (zone : Zone)

def View.inScope (view : View) (client : IntegrationClient) (employment : Employment) : Bool :=
  employmentScopePredicate zone view.clock view.db client employment

def typeValue : EmploymentType → String
  | .workContract => "WORK_CONTRACT"
  | .dppDpc => "DPP_DPC"
  | .taskShiftBased => "TASK_SHIFT_BASED"
  | .externalHourly => "EXTERNAL_HOURLY"

def typeLabel : EmploymentType → String
  | .workContract => "Pracovní smlouva"
  | .dppDpc => "DPP/DPČ"
  | .taskShiftBased => "Úkolová / směnová odměna"
  | .externalHourly => "Externí hodinová fakturace"

def View.userName (view : View) (employment : Employment) : Option String :=
  (view.db.users.get employment.userId).map fun user => view.columns.userName user.id

def employmentLabel (view : View) (employment : Employment) : String :=
  let base := strip ((view.userName employment).getD "")
  let stripped := strip (view.columns.title employment.id)
  let title := if stripped = "" then "Bez názvu úvazku" else stripped
  if base = "" then typeLabel employment.employmentType ++ " - " ++ title
  else base ++ " - " ++ typeLabel employment.employmentType ++ " - " ++ title

def dateText (date : Int) : Json := .text (String.ofList (isoDate date))

def employmentPayload (view : View) (employment : Employment) : Json :=
  .object [
    ("id", .number employment.id),
    ("employment_id", .number employment.id),
    ("employee_id", .number employment.userId),
    ("title", .text (view.columns.title employment.id)),
    ("employment_type", .text (typeValue employment.employmentType)),
    ("label", .text (employmentLabel view employment)),
    ("start_date", dateText employment.startDate),
    ("end_date", (employment.endDate.map dateText).getD .null),
    ("is_active", .flag (employmentIsValidOnDay employment (pragueToday zone view.clock))),
    ("time_profile", .object [
      ("total_hours_enabled", .flag employment.profile.totalHoursEnabled),
      ("automatic_breaks_enabled", .flag employment.profile.automaticBreaksEnabled),
      ("afternoon_hours_enabled", .flag employment.profile.afternoonHoursEnabled),
      ("afternoon_start_minutes", (employment.profile.afternoonStartMinutes.map Json.number).getD .null),
      ("night_hours_enabled", .flag employment.profile.nightHoursEnabled),
      ("weekend_hours_enabled", .flag employment.profile.weekendHoursEnabled),
      ("public_holiday_hours_enabled", .flag employment.profile.publicHolidayHoursEnabled)])]

/-- `utc_isoformat`: without microseconds, and with `Z` for the offset. -/
def utcIsoformat (utc : Int) : String :=
  let seconds := utc - utc % 1000000
  String.ofList (isoDate (dateOf seconds) ++ 'T' :: isoTime (seconds % day).toNat ++ ['Z'])

def eventPayload (view : View) (event : AttendanceEvent) : Json :=
  let shown := zone.load event.occurredAt.utc
  .object [
    ("id", .number event.id),
    ("employment_id", .number event.employmentId),
    ("occurred_at", .text (isoformat shown.wall (shown.wall - shown.utc))),
    ("timezone", .text "Europe/Prague"),
    ("last_changed_at", .text (utcIsoformat (view.columns.updatedAt event.id)))]

/-- A month of the query that no lock can have is not locked. -/
def monthLocked (view : View) (lockType : LockType) (employmentId year month : Int) : Bool :=
  0 ≤ month && decide (isMonthLocked view.db lockType employmentId (year, month.toNat))

def lockPayload (view : View) (year month : Int) (employment : Employment) : Json :=
  .object [
    ("employment_id", .number employment.id),
    ("attendance_locked", .flag (monthLocked view .attendance employment.id year month)),
    ("shift_plan_locked", .flag (monthLocked view .shiftPlan employment.id year month))]

end Views

section Lists
variable (zone : Zone) (view : View) (client : IntegrationClient) (limit : Nat) (cursor : Option Cursor)

def scopeEmployments : Scope := .other "employments:read"
def scopeAttendance : Scope := .other "attendance:read"
def scopeLocks : Scope := .other "locks:read"

def View.employmentsInScope : List Employment := view.db.employments.select (view.inScope zone client ·)

/-- `rows[min(limit, len(rows)) - 1]`. -/
def lastOfPage {α : Type} (rows : List α) : Option α := rows[min limit rows.length - 1]?

def listEmployments : Api ListResponse := do
  limitField limit
  requireScope client scopeEmployments
  let cursorId ← integerCursor cursor "employments"
  bindInteger cursorId
  let employments := (remaining Employment.id (view.employmentsInScope zone client) cursorId).take (limit + 1)
  let rows := employments.map (employmentPayload zone view)
  let cursorKey := (lastOfPage limit rows).bind (Json.get "id")
  return respond rows limit "employments" cursorKey

def eventPosition (event : AttendanceEvent) : EventPosition := toLex (event.occurredAt.utc, event.id)

def parseIsoDate (value fieldName : String) : Api Int :=
  require (dateFromIsoformat value) (.api 400 "invalid_request" s!"Pole {fieldName} není platné datum." [])

def accessFilter : Option Int → Api Unit
  | none => return ()
  | some employmentId => do
    bindInteger (some employmentId)
    requireEmploymentAccess zone view.clock view.db client employmentId

/-- The first instant of the day a filter names; an empty text filters nothing. -/
def startFilter : Option String → Api (Option Int)
  | none => return none
  | some text => if text = "" then return none else do
    return some (zone.toUtc (midnight (← parseIsoDate text "date_from")))

/-- The first instant after the day a filter names. -/
def endFilter : Option String → Api (Option Int)
  | none => return none
  | some text => if text = "" then return none else do
    let last ← parseIsoDate text "date_to"
    raiseIf (¬ inCalendar (last + 1)) (.uncaught "OverflowError")
    return some (zone.toUtc (midnight (last + 1)))

def eventMatches (employmentId start finish : Option Int) (event : AttendanceEvent) : Prop :=
  (view.db.employments.get event.employmentId).any (view.inScope zone client) ∧
    (∀ id ∈ employmentId, event.employmentId = id) ∧ (∀ first ∈ start, first ≤ event.occurredAt.utc) ∧
    ∀ last ∈ finish, event.occurredAt.utc < last

instance (employmentId start finish : Option Int) (event : AttendanceEvent) :
    Decidable (eventMatches zone view client employmentId start finish event) := inferInstanceAs (Decidable (_ ∧ _))

/-- The driver returns instants of the calendar, and the answer shows them in Prague. -/
def readEvents (events : List AttendanceEvent) : Api (List Json) := do
  raiseIf (∃ event ∈ events, ¬ inCalendar (dateOf event.occurredAt.utc)) (.uncaught "DataError")
  raiseIf (∃ event ∈ events, ¬ inCalendar (dateOf (zone.toWall event.occurredAt.utc))) (.uncaught "OverflowError")
  return events.map (eventPayload zone view)

def listAttendanceEvents (employmentId : Option Int) (dateFrom dateTo : Option String) : Api ListResponse := do
  limitField limit
  requireScope client scopeAttendance
  let position ← attendanceCursor cursor
  accessFilter zone view client employmentId
  let start ← startFilter zone dateFrom
  let finish ← endFilter zone dateTo
  bindInteger (position.map fun start => (ofLex start).2)
  let events := (remaining eventPosition (view.db.events.select (eventMatches zone view client employmentId start finish))
    position).take (limit + 1)
  let rows ← readEvents zone view events
  let nextKey := (lastOfPage limit events).map fun last =>
    Json.list [.text (utcCursorValue last.occurredAt.utc), .number last.id]
  return respond rows limit "attendance-events" nextKey

def listLocks (year month : Int) : Api ListResponse := do
  limitField limit
  requireScope client scopeLocks
  let cursorId ← integerCursor cursor "locks"
  bindInteger cursorId
  let employments := (remaining Employment.id (view.employmentsInScope zone client) cursorId).take (limit + 1)
  let rows := employments.map (lockPayload view year month)
  let cursorKey := (lastOfPage limit rows).bind (Json.get "employment_id")
  return respond rows limit "locks" cursorKey

/-- A list with its filters. -/
inductive Listing where
  | employments
  | attendanceEvents (employmentId : Option Int) (dateFrom dateTo : Option String)
  | locks (year month : Int)

/-- The resource that the cursors of a list are issued for. -/
def Listing.resource : Listing → String
  | .employments => "employments"
  | .attendanceEvents _ _ _ => "attendance-events"
  | .locks _ _ => "locks"

def Listing.answer : Listing → Api ListResponse
  | .employments => listEmployments zone view client limit cursor
  | .attendanceEvents employmentId dateFrom dateTo =>
    listAttendanceEvents zone view client limit cursor employmentId dateFrom dateTo
  | .locks year month => listLocks zone view client limit cursor year month

end Lists

end Dagmar.Integration
