import Dagmar.EventMutations

/-! Event creation, update and deletion through the portal, the administration
and the integration interface, and the backfilling of pauses. -/

namespace Dagmar
open Library Library.Calendar Library.Outcome

/-- The body of an event request; the integration update has a body of its own. -/
structure AttendanceEventIn where
  employmentId : Int
  occurredAt : RequestTime
  pairedOccurredAt : Option RequestTime
deriving DecidableEq

/-- `astimezone` leaves the calendar at either end. -/
def checkedTime (zone : Zone) (time : RequestTime) : Api Timestamp := do
  let time := pragueNow zone time
  raiseIf (time.date < 1 ∨ ordinal 9999 12 31 < time.date) (.uncaught "OverflowError")
  return time

def checkedTime? (zone : Zone) : Option RequestTime → Api (Option Timestamp)
  | none => return none
  | some time => return some (← checkedTime zone time)

/-- The integration bodies refuse a datetime without an offset. -/
def offsetTime (zone : Zone) : RequestTime → Api Timestamp
  | .naive _ => .error (.invalid "occurred_at musí obsahovat časové pásmo.")
  | .aware utc => checkedTime zone (.aware utc)

def offsetTime? (zone : Zone) : Option RequestTime → Api (Option Timestamp)
  | none => return none
  | some time => return some (← offsetTime zone time)

/-- Any of the mutation dates lies outside the employment. -/
def outsidePeriod (employment : Employment) (times : List Timestamp) : Prop :=
  ∃ time ∈ times, ¬ employmentIsValidOnDay employment time.date

instance (employment : Employment) (times : List Timestamp) : Decidable (outsidePeriod employment times) :=
  inferInstanceAs (Decidable (∃ time ∈ times, _))

def periodMismatch : ApiError :=
  .api 409 "employment_period_mismatch" "Zvolené datum neleží v období platnosti vybraného úvazku." []

def eventConflict : ApiError :=
  .api 409 "attendance_event_conflict" "Průchod se překrývá s existujícím průchodem." []

def dayStatusConflict : ApiError :=
  .api 409 "attendance_day_status_conflict" "Do dne s celodenní nepřítomností nelze zapsat průchod." []

def futureEntry : ApiError :=
  .api 400 "attendance_future_entry_forbidden" "Budoucí průchod uživatel nesmí zadat." []

def pairUpdateForbidden : ApiError :=
  .api 400 "attendance_event_pair_update_forbidden" "Pár lze měnit po jednom průchodu." []

def eventNotFound : ApiError := .api 404 "attendance_event_not_found" "Průchod nebyl nalezen." []

def pairedNotFound : ApiError := .api 404 "attendance_event_not_found" "Párový průchod nebyl nalezen." []

def employmentNotActive : ApiError :=
  .api 409 "employment_not_active" "Vybraný úvazek nebo jeho uživatel už není aktivní." []

def employmentNotFound : ApiError := .api 404 "employment_not_found" "Úvazek nebyl nalezen." []

def employmentImmutable : ApiError :=
  .api 400 "attendance_event_employment_immutable" "Průchod nelze přesunout na jiný úvazek." []

/-- What the three interfaces do alike with a `ValueError` of the additions. -/
def alternationConflict {α : Type} : Except String α → Api α
  | .ok value => .ok value
  | .error message => .error (.api 409 "attendance_event_alternation_conflict" message [])

/-- The additions of a create request: a closed pair, or one event. -/
def eventAdditions (zone : Zone) (db : Db) (employment : Employment) (time : Timestamp) (paired : Option Timestamp) :
    Except String (List Timestamp) :=
  match paired with
  | some paired => addClosedIntervalWithBreaks zone employment time paired
  | none => .ok (addEventWithBreaks zone db employment time)

/-- The event a create request answers with, as it is read back after the commit. -/
def createdEvent (db : Db) (id : Int) : Api AttendanceEvent := require (db.events.get id) (.uncaught "InvalidRequestError")

namespace Portal

def createAttendanceEvent (zone : Zone) (clock : Clock) (db : Db) (auth : PortalUserAuth) (body : AttendanceEventIn) :
    Api (Db × AttendanceEvent) := do
  raiseIf (body.employmentId < 1) (.invalid "Input should be greater than or equal to 1")
  let occurredAt ← checkedTime zone body.occurredAt
  let pairedOccurredAt ← checkedTime? zone body.pairedOccurredAt
  let employment ← portalEmployment db auth body.employmentId
  let employment ← lockEmploymentForTimeMutation db employment.id
  raiseIf (employment.userId ≠ auth.userId ∨ ¬ lockedEmploymentHasActiveUser zone clock db employment) employmentNotActive
  raiseIf ((clock.now zone).wall < occurredAt.wall) futureEntry
  raiseIf (∃ paired ∈ pairedOccurredAt, (clock.now zone).wall < paired.wall) futureEntry
  raiseIf (outsidePeriod employment (occurredAt :: pairedOccurredAt.toList)) periodMismatch
  let before := intervalSignatures (db.eventsOf employment.id)
  let additions ← alternationConflict (eventAdditions zone db employment occurredAt pairedOccurredAt)
  let flushed ← require (insertEvents db employment.id additions) eventConflict
  let changedDays := changedEventDays before (intervalSignatures (flushed.eventsOf employment.id))
    (occurredAt :: pairedOccurredAt.toList)
  raiseIf (daysHaveStatus flushed employment.id changedDays) dayStatusConflict
  let affectedMonths := monthsForDays changedDays
  ensureMonthsUnlocked flushed .attendance employment.id affectedMonths
  let synced ← syncEmploymentMetricMonths flushed employment affectedMonths
  let committed := commit zone synced
  return (committed, ← createdEvent committed db.nextEventId)

def updateAttendanceEvent (zone : Zone) (clock : Clock) (db : Db) (auth : PortalUserAuth) (eventId : Int)
    (body : AttendanceEventIn) : Api (Db × AttendanceEvent) := do
  raiseIf (body.employmentId < 1) (.invalid "Input should be greater than or equal to 1")
  let occurredAt ← checkedTime zone body.occurredAt
  let _ ← checkedTime? zone body.pairedOccurredAt
  raiseIf (body.pairedOccurredAt ≠ none) pairUpdateForbidden
  let event ← require (db.events.get eventId) eventNotFound
  let employment ← portalEmployment db auth event.employmentId
  let employment ← lockEmploymentForTimeMutation db employment.id
  raiseIf (employment.userId ≠ auth.userId ∨ ¬ lockedEmploymentHasActiveUser zone clock db employment) employmentNotActive
  raiseIf (body.employmentId ≠ event.employmentId) employmentImmutable
  raiseIf ((clock.now zone).wall < occurredAt.wall) futureEntry
  raiseIf (outsidePeriod employment [occurredAt]) periodMismatch
  let events := db.events.select fun other => other.employmentId = employment.id ∧ other.id ≠ event.id
  let before := intervalSignatures (events ++ [event])
  let updated := { event with occurredAt := occurredAt }
  let ordered := orderedEvents (events ++ [updated])
  let flushed ← require (updateEvent db updated) eventConflict
  let changedDays := changedEventDays before (intervalSignatures ordered) [event.occurredAt, occurredAt]
  raiseIf (daysHaveStatus flushed employment.id changedDays) dayStatusConflict
  let affectedMonths := monthsForDays changedDays
  ensureMonthsUnlocked flushed .attendance employment.id affectedMonths
  let synced ← syncEmploymentMetricMonths flushed employment affectedMonths
  let committed := commit zone synced
  return (committed, ← createdEvent committed eventId)

def deleteAttendanceEvent (zone : Zone) (clock : Clock) (db : Db) (auth : PortalUserAuth) (eventId : Int)
    (pairedEventId : Option Int) : Api Db := do
  let event ← require (db.events.get eventId) eventNotFound
  let employment ← portalEmployment db auth event.employmentId
  let employment ← lockEmploymentForTimeMutation db employment.id
  raiseIf (employment.userId ≠ auth.userId ∨ ¬ lockedEmploymentHasActiveUser zone clock db employment) employmentNotActive
  let events := db.eventsOf employment.id
  let before := intervalSignatures events
  let paired := pairedEventId.bind fun id => events.find? (·.id = id)
  raiseIf (pairedEventId ≠ none ∧ ∀ other ∈ paired, other.employmentId ≠ employment.id ∨ other.id = event.id) pairedNotFound
  let deleted := event :: paired.toList
  let remaining := events.filter fun other => other.id ∉ deleted.map AttendanceEvent.id
  let changedDays := changedEventDays before (intervalSignatures remaining) (deleted.map AttendanceEvent.occurredAt)
  let affectedMonths := monthsForDays changedDays
  ensureMonthsUnlocked db .attendance employment.id affectedMonths
  let flushed := { db with events := db.events.deleteWhere fun other =>
    other.employmentId = employment.id ∧ other.id ∈ deleted.map AttendanceEvent.id }
  let synced ← syncEmploymentMetricMonths flushed employment affectedMonths
  return commit zone synced

end Portal

namespace Admin

def employmentWithActiveUser (db : Db) (employmentId : Int) : Api Employment := do
  let employment ← require (db.employments.get employmentId) employmentNotFound
  raiseIf (¬ userIsActive db employment) employmentNotFound
  return employment

def createEvent (zone : Zone) (clock : Clock) (db : Db) (body : AttendanceEventIn) : Api (Db × AttendanceEvent) := do
  let occurredAt ← checkedTime zone body.occurredAt
  let pairedOccurredAt ← checkedTime? zone body.pairedOccurredAt
  let employment ← employmentWithActiveUser db body.employmentId
  let employment ← lockEmploymentForTimeMutation db employment.id
  raiseIf (¬ lockedEmploymentHasActiveUser zone clock db employment) employmentNotActive
  raiseIf (outsidePeriod employment (occurredAt :: pairedOccurredAt.toList)) periodMismatch
  let before := intervalSignatures (db.eventsOf employment.id)
  let additions ← alternationConflict (eventAdditions zone db employment occurredAt pairedOccurredAt)
  let flushed ← require (insertEvents db employment.id additions) eventConflict
  let changedDays := changedEventDays before (intervalSignatures (flushed.eventsOf employment.id))
    (occurredAt :: pairedOccurredAt.toList)
  raiseIf (daysHaveStatus flushed employment.id changedDays) dayStatusConflict
  let affectedMonths := monthsForDays changedDays
  ensureMonthsUnlocked flushed .attendance employment.id affectedMonths
  let synced ← syncEmploymentMetricMonths flushed employment affectedMonths
  let committed := commit zone synced
  return (committed, ← createdEvent committed db.nextEventId)

def updateEvent (zone : Zone) (clock : Clock) (db : Db) (eventId : Int) (body : AttendanceEventIn) :
    Api (Db × AttendanceEvent) := do
  let occurredAt ← checkedTime zone body.occurredAt
  let _ ← checkedTime? zone body.pairedOccurredAt
  raiseIf (body.pairedOccurredAt ≠ none) pairUpdateForbidden
  let event ← require (db.events.get eventId) eventNotFound
  raiseIf (body.employmentId ≠ event.employmentId) employmentImmutable
  let employment ← lockEmploymentForTimeMutation db event.employmentId
  raiseIf (¬ lockedEmploymentHasActiveUser zone clock db employment) employmentNotActive
  raiseIf (¬ employmentIsValidOnDay employment (pragueToday zone clock) ∨ ¬ userIsActive db employment) employmentNotFound
  raiseIf (outsidePeriod employment [occurredAt]) periodMismatch
  let events := db.events.select fun other => other.employmentId = employment.id ∧ other.id ≠ event.id
  let before := intervalSignatures (events ++ [event])
  let updated := { event with occurredAt := occurredAt }
  let ordered := orderedEvents (events ++ [updated])
  let flushed ← require (Dagmar.updateEvent db updated) eventConflict
  let changedDays := changedEventDays before (intervalSignatures ordered) [event.occurredAt, occurredAt]
  raiseIf (daysHaveStatus flushed employment.id changedDays) dayStatusConflict
  let affectedMonths := monthsForDays changedDays
  ensureMonthsUnlocked flushed .attendance employment.id affectedMonths
  let synced ← syncEmploymentMetricMonths flushed employment affectedMonths
  let committed := commit zone synced
  return (committed, ← createdEvent committed eventId)

def deleteEvent (zone : Zone) (clock : Clock) (db : Db) (eventId : Int) (pairedEventId : Option Int) : Api Db := do
  let event ← require (db.events.get eventId) eventNotFound
  let employment ← lockEmploymentForTimeMutation db event.employmentId
  raiseIf (¬ lockedEmploymentHasActiveUser zone clock db employment) employmentNotActive
  raiseIf (¬ employmentIsValidOnDay employment (pragueToday zone clock) ∨ ¬ userIsActive db employment) employmentNotFound
  let events := db.eventsOf employment.id
  let before := intervalSignatures events
  let paired := pairedEventId.bind fun id => events.find? (·.id = id)
  raiseIf (pairedEventId ≠ none ∧ ∀ other ∈ paired, other.employmentId ≠ employment.id ∨ other.id = event.id) pairedNotFound
  let deleted := event :: paired.toList
  let remaining := events.filter fun other => other.id ∉ deleted.map AttendanceEvent.id
  let changedDays := changedEventDays before (intervalSignatures remaining) (deleted.map AttendanceEvent.occurredAt)
  let affectedMonths := monthsForDays changedDays
  ensureMonthsUnlocked db .attendance employment.id affectedMonths
  let flushed := { db with events := db.events.deleteWhere fun other =>
    other.employmentId = employment.id ∧ other.id ∈ deleted.map AttendanceEvent.id }
  let synced ← syncEmploymentMetricMonths flushed employment affectedMonths
  return commit zone synced

structure AddBreaksIn where
  employmentId : Int
  year : Int
  month : Nat
  confirmed : Bool

structure AddBreaksOut where
  affectedIntervals : Nat
  insertedPairs : Nat
  insertedEvents : Nat
deriving DecidableEq, Repr

/-- The pauses of one group that collide with no time present before or added since. -/
def freshPairs (existing : List Int) (additions : List Int) : List (Int × Int) :=
  (Library.Pairing.pairUp additions).filter fun pair => pair.1 ∉ existing ∧ pair.2 ∉ existing

/-- The groups of pauses to insert, each against the times seen so far. -/
def freshGroups : List Int → List (List Int) → List (List (Int × Int))
  | _, [] => []
  | existing, additions :: groups =>
    let pairs := freshPairs existing additions
    if pairs = [] then freshGroups existing groups
    else pairs :: freshGroups (existing ++ pairs.flatMap fun pair => [pair.1, pair.2]) groups

def addMissingBreaks (zone : Zone) (clock : Clock) (db : Db) (body : AddBreaksIn) : Api (Db × AddBreaksOut) := do
  raiseIf (body.employmentId < 1 ∨ body.year < 2000 ∨ 2100 < body.year ∨ body.month < 1 ∨ 12 < body.month)
    (.invalid "Input out of range")
  raiseIf (¬ body.confirmed)
    (.api 409 "attendance_breaks_confirmation_required" "Doplnění pauz vyžaduje potvrzení administrátora." [])
  let employment ← employmentWithActiveUser db body.employmentId
  let employment ← lockEmploymentForTimeMutation db employment.id
  raiseIf (¬ lockedEmploymentHasActiveUser zone clock db employment) employmentNotActive
  let (start, finish) ← require (monthRange body.year body.month) (.uncaught "ValueError")
  ensureMonthUnlocked db .attendance employment.id (body.year, body.month)
  let events := db.eventsOf employment.id
  let before := intervalSignatures events
  let groups := freshGroups (events.map (·.occurredAt.wall))
    (missingBreakEventGroups (pairEvents events) (midnight start) (midnight finish))
  let pairs := groups.flatten
  let walls := pairs.flatMap fun pair => [pair.1, pair.2]
  ensureMonthsUnlocked db .attendance employment.id (walls.map fun wall => yearMonth (dateOf wall))
  let flushed ← require (insertEvents db employment.id (walls.map zone.attach)) (.uncaught "IntegrityError")
  let changedDays := changedEventDays before (intervalSignatures (flushed.eventsOf employment.id)) []
  raiseIf (daysHaveStatus flushed employment.id changedDays)
    (.api 409 "attendance_day_status_conflict" "Pauzu nelze vložit do dne s celodenní nepřítomností." [])
  let affectedMonths := monthsForDays changedDays
  ensureMonthsUnlocked flushed .attendance employment.id affectedMonths
  let synced ← syncEmploymentMetricMonths flushed employment affectedMonths
  return (commit zone synced, ⟨groups.length, pairs.length, walls.length⟩)

end Admin

namespace Integration

def notFound (message : String) : ApiError := .api 404 "not_found" message []

def eventConflict : ApiError := .api 409 "attendance_event_conflict" "Průchod koliduje s existující historií." []

def activeEmployment (zone : Zone) (clock : Clock) (db : Db) (employmentId : Int) : Api Employment := do
  let employment ← require (db.employments.get employmentId) (notFound "Úvazek nebyl nalezen.")
  raiseIf (¬ lockedEmploymentHasActiveUser zone clock db employment) (notFound "Úvazek nebyl nalezen.")
  return employment

def createAttendanceEvent (zone : Zone) (clock : Clock) (db : Db) (client : IntegrationClient) (payload : AttendanceEventIn) :
    Api (Db × AttendanceEvent) := do
  raiseIf (payload.employmentId < 1) (.invalid "Input should be greater than or equal to 1")
  let local' ← offsetTime zone payload.occurredAt
  let pairedLocal ← offsetTime? zone payload.pairedOccurredAt
  requireScope client .attendanceCreate
  requireEmploymentAccess zone clock db client payload.employmentId
  let employment ← activeEmployment zone clock db payload.employmentId
  let employment ← lockEmploymentForTimeMutation db employment.id
  raiseIf (¬ lockedEmploymentHasActiveUser zone clock db employment) (notFound "Úvazek nebyl nalezen.")
  raiseIf (outsidePeriod employment (local' :: pairedLocal.toList)) periodMismatch
  let before := intervalSignatures (db.eventsOf employment.id)
  let additions ← alternationConflict (eventAdditions zone db employment local' pairedLocal)
  let flushed ← require (insertEvents db employment.id additions) eventConflict
  let changedDays := changedEventDays before (intervalSignatures (flushed.eventsOf employment.id))
    (local' :: pairedLocal.toList)
  raiseIf (daysHaveStatus flushed employment.id changedDays) dayStatusConflict
  let affectedMonths := monthsForDays changedDays
  ensureMonthsUnlocked flushed .attendance employment.id affectedMonths
  let synced ← syncEmploymentMetricMonths flushed employment affectedMonths
  let committed := commit zone synced
  return (committed, ← createdEvent committed db.nextEventId)

def updateAttendanceEvent (zone : Zone) (clock : Clock) (db : Db) (client : IntegrationClient) (eventId : Int)
    (occurredAt : RequestTime) : Api (Db × AttendanceEvent) := do
  let nextOccurredAt ← offsetTime zone occurredAt
  requireScope client .attendanceUpdate
  let event ← require (db.events.get eventId) (notFound "Průchod nebyl nalezen.")
  requireEmploymentAccess zone clock db client event.employmentId
  let employment ← lockEmploymentForTimeMutation db event.employmentId
  raiseIf (¬ lockedEmploymentHasActiveUser zone clock db employment) (notFound "Úvazek nebyl nalezen.")
  raiseIf (¬ employmentIsValidOnDay employment (pragueToday zone clock) ∨ ¬ userIsActive db employment)
    (notFound "Průchod nebyl nalezen.")
  raiseIf (outsidePeriod employment [nextOccurredAt]) periodMismatch
  let existing := db.events.select fun other => other.employmentId = employment.id ∧ other.id ≠ event.id
  let before := intervalSignatures (existing ++ [event])
  let updated := { event with occurredAt := nextOccurredAt }
  let flushed ← require (updateEvent db updated) eventConflict
  let changedDays := changedEventDays before (intervalSignatures (existing ++ [updated])) [event.occurredAt, nextOccurredAt]
  raiseIf (daysHaveStatus flushed employment.id changedDays) dayStatusConflict
  let affectedMonths := monthsForDays changedDays
  ensureMonthsUnlocked flushed .attendance employment.id affectedMonths
  let synced ← syncEmploymentMetricMonths flushed employment affectedMonths
  let committed := commit zone synced
  return (committed, ← createdEvent committed eventId)

def deleteAttendanceEvent (zone : Zone) (clock : Clock) (db : Db) (client : IntegrationClient) (eventId : Int)
    (pairedEventId : Option Int) : Api (Db × AttendanceEvent) := do
  requireScope client .attendanceDelete
  let event ← require (db.events.get eventId) (notFound "Průchod nebyl nalezen.")
  requireEmploymentAccess zone clock db client event.employmentId
  let employment ← lockEmploymentForTimeMutation db event.employmentId
  raiseIf (¬ lockedEmploymentHasActiveUser zone clock db employment) (notFound "Úvazek nebyl nalezen.")
  raiseIf (¬ employmentIsValidOnDay employment (pragueToday zone clock) ∨ ¬ userIsActive db employment)
    (notFound "Průchod nebyl nalezen.")
  let events := db.eventsOf employment.id
  let before := intervalSignatures events
  let paired := pairedEventId.bind fun id => events.find? (·.id = id)
  raiseIf (pairedEventId ≠ none ∧ ∀ other ∈ paired, other.employmentId ≠ employment.id ∨ other.id = event.id)
    (notFound "Párový průchod nebyl nalezen.")
  let deleted := event :: paired.toList
  let remaining := events.filter fun other => other.id ∉ deleted.map AttendanceEvent.id
  let changedDays := changedEventDays before (intervalSignatures remaining) (deleted.map AttendanceEvent.occurredAt)
  let affectedMonths := monthsForDays changedDays
  ensureMonthsUnlocked db .attendance employment.id affectedMonths
  let flushed := { db with events := db.events.deleteWhere fun other =>
    other.employmentId = employment.id ∧ other.id ∈ deleted.map AttendanceEvent.id }
  let synced ← syncEmploymentMetricMonths flushed employment affectedMonths
  return (commit zone synced, event)

end Integration

end Dagmar
