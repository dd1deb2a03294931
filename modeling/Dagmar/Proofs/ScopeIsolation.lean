import Dagmar.Proofs.Pagination
import Dagmar.Proofs.Transitions

/-! What an integration client can see and touch. A list reads nothing but the
employments in the client's scope and what belongs to them, and a write stays
within them. -/

namespace Dagmar.Integration.Proofs
open Library Library.Outcome Dagmar.Proofs

section Reading
variable (zone : Zone) (client : IntegrationClient)

/-- The employment is one the client may see. -/
def InScope (view : View) (employment : Employment) : Prop :=
  employment ∈ view.db.employments ∧ view.inScope zone client employment = true

/-- The views show the client the same employments, with the same data. -/
structure AgreeInScope (first second : View) : Prop where
  today : pragueToday zone first.clock = pragueToday zone second.clock
  employments : ∀ employment, InScope zone client first employment ↔ InScope zone client second employment
  titles : ∀ employment, InScope zone client first employment →
    first.columns.title employment.id = second.columns.title employment.id
  users : ∀ employment, InScope zone client first employment → first.userName employment = second.userName employment
  events : ∀ employment, InScope zone client first employment → ∀ event, event.employmentId = employment.id →
    (event ∈ first.db.events ↔ event ∈ second.db.events)
  changes : ∀ employment, InScope zone client first employment → ∀ event ∈ first.db.events,
    event.employmentId = employment.id → first.columns.updatedAt event.id = second.columns.updatedAt event.id
  locks : ∀ employment, InScope zone client first employment → ∀ lockType lock, lock.employmentId = employment.id →
    (lock ∈ first.db.locks lockType ↔ lock ∈ second.db.locks lockType)

variable {zone client} {first second : View}

theorem mem_employmentsInScope {view : View} {employment : Employment} :
    employment ∈ view.employmentsInScope zone client ↔ InScope zone client view employment := by
  simp only [View.employmentsInScope, Table.mem_select, InScope]

/-- A number is in scope exactly when an employment in scope has it. -/
theorem scope_any_iff {view : View} {employmentId : Int} :
    (view.db.employments.get employmentId).any (view.inScope zone client) = true ↔
      ∃ employment, InScope zone client view employment ∧ employment.id = employmentId := by
  constructor
  · intro found
    cases got : view.db.employments.get employmentId with
    | none =>
      rw [got] at found
      cases found
    | some employment =>
      rw [got] at found
      obtain ⟨member, same⟩ := Table.get_eq_some_iff.mp got
      exact ⟨employment, ⟨member, found⟩, same⟩
  · rintro ⟨employment, ⟨member, inside⟩, rfl⟩
    rw [Table.get_of_mem member]
    exact inside

namespace AgreeInScope

theorem scope (agree : AgreeInScope zone client first second) (employmentId : Int) :
    (first.db.employments.get employmentId).any (first.inScope zone client) =
      (second.db.employments.get employmentId).any (second.inScope zone client) := by
  rw [Bool.eq_iff_iff, scope_any_iff, scope_any_iff]
  exact exists_congr fun employment => and_congr_left fun _ => agree.employments employment

theorem accessFilter_eq (agree : AgreeInScope zone client first second) (employmentId : Option Int) :
    accessFilter zone first client employmentId = accessFilter zone second client employmentId := by
  cases employmentId with
  | none => rfl
  | some employmentId =>
    have same : (first.db.employments.get employmentId).any (employmentScopePredicate zone first.clock first.db client) =
        (second.db.employments.get employmentId).any (employmentScopePredicate zone second.clock second.db client) :=
      agree.scope employmentId
    simp only [accessFilter, requireEmploymentAccess, same]

theorem remainingEmployments (agree : AgreeInScope zone client first second) (position : Option Int) :
    remaining Employment.id (first.employmentsInScope zone client) position =
      remaining Employment.id (second.employmentsInScope zone client) position := by
  refine remaining_congr (employmentsInScope_ids zone client first) (employmentsInScope_ids zone client second) ?_ position
  intro employment
  rw [mem_employmentsInScope, mem_employmentsInScope]
  exact agree.employments employment

theorem inScope_of_remaining {view : View} {position : Option Int} {limit : Nat} {employment : Employment}
    (member : employment ∈ (remaining Employment.id (view.employmentsInScope zone client) position).take limit) :
    InScope zone client view employment :=
  mem_employmentsInScope.mp (mem_remaining.mp (List.mem_of_mem_take member)).1

theorem employmentPayload_eq (agree : AgreeInScope zone client first second) {employment : Employment}
    (inside : InScope zone client first employment) :
    employmentPayload zone first employment = employmentPayload zone second employment := by
  have label : employmentLabel first employment = employmentLabel second employment := by
    simp only [employmentLabel, agree.titles employment inside, agree.users employment inside]
  simp only [employmentPayload, agree.titles employment inside, label, agree.today]

theorem monthLocked_eq (agree : AgreeInScope zone client first second) {employment : Employment}
    (inside : InScope zone client first employment) (lockType : LockType) (year month : Int) :
    monthLocked first lockType employment.id year month = monthLocked second lockType employment.id year month := by
  have found : (first.db.locks lockType).get (employment.id, year, month.toNat) =
      (second.db.locks lockType).get (employment.id, year, month.toNat) := by
    refine Table.get_congr fun lock named => ?_
    exact agree.locks employment inside lockType lock (Prod.mk.inj named).1
  have locked : isMonthLocked first.db lockType employment.id (year, month.toNat) ↔
      isMonthLocked second.db lockType employment.id (year, month.toNat) := by
    rw [isMonthLocked, isMonthLocked, found]
  simp only [monthLocked, locked]

theorem lockPayload_eq (agree : AgreeInScope zone client first second) {employment : Employment}
    (inside : InScope zone client first employment) (year month : Int) :
    lockPayload first year month employment = lockPayload second year month employment := by
  simp only [lockPayload, agree.monthLocked_eq inside]

theorem remainingEvents (agree : AgreeInScope zone client first second) (employmentId start finish : Option Int)
    (position : Option EventPosition) :
    remaining eventPosition (matchingEvents zone client employmentId start finish first) position =
      remaining eventPosition (matchingEvents zone client employmentId start finish second) position := by
  refine remaining_congr (matchingEvents_positions zone client employmentId start finish first)
    (matchingEvents_positions zone client employmentId start finish second) ?_ position
  intro event
  simp only [matchingEvents, Table.mem_select, eventMatches, agree.scope event.employmentId]
  refine and_congr_left fun matching => ?_
  have inside := matching.1
  rw [← agree.scope event.employmentId] at inside
  obtain ⟨employment, inScope, owner⟩ := scope_any_iff.mp inside
  exact agree.events employment inScope event owner.symm

theorem eventPayload_eq (agree : AgreeInScope zone client first second) {employmentId start finish : Option Int}
    {event : AttendanceEvent} (matching : event ∈ matchingEvents zone client employmentId start finish first) :
    eventPayload zone first event = eventPayload zone second event := by
  obtain ⟨member, inside, -⟩ := Table.mem_select.mp matching
  obtain ⟨employment, inScope, owner⟩ := scope_any_iff.mp inside
  simp only [eventPayload, agree.changes employment inScope event member owner.symm]

theorem readEvents_eq (agree : AgreeInScope zone client first second) {employmentId start finish : Option Int}
    {events : List AttendanceEvent} (matching : ∀ event ∈ events, event ∈ matchingEvents zone client employmentId start finish first) :
    readEvents zone first events = readEvents zone second events := by
  have shown : events.map (eventPayload zone first) = events.map (eventPayload zone second) :=
    List.map_congr_left fun event member => agree.eventPayload_eq (matching event member)
  simp only [readEvents, shown]

/-- The answer of a list depends on nothing else. -/
theorem answer_eq (agree : AgreeInScope zone client first second) (listing : Listing) (limit : Nat) (cursor : Option Cursor) :
    listing.answer zone first client limit cursor = listing.answer zone second client limit cursor := by
  cases listing with
  | employments =>
    have rows : ∀ position, ((remaining Employment.id (first.employmentsInScope zone client) position).take (limit + 1)).map
        (employmentPayload zone first) =
          ((remaining Employment.id (second.employmentsInScope zone client) position).take (limit + 1)).map
            (employmentPayload zone second) := by
      intro position
      rw [← agree.remainingEmployments position]
      exact List.map_congr_left fun employment member => agree.employmentPayload_eq (inScope_of_remaining member)
    simp only [Listing.answer, listEmployments, rows]
  | attendanceEvents employmentId dateFrom dateTo =>
    simp only [Listing.answer, listAttendanceEvents, agree.accessFilter_eq]
    refine bind_congr fun _ => bind_congr fun _ => bind_congr fun position => bind_congr fun _ => bind_congr fun start =>
      bind_congr fun finish => bind_congr fun _ => ?_
    have same := agree.remainingEvents employmentId start finish position
    have members : ∀ event ∈ (remaining eventPosition (matchingEvents zone client employmentId start finish second)
        position).take (limit + 1), event ∈ matchingEvents zone client employmentId start finish first := by
      intro event member
      rw [← same] at member
      exact (mem_remaining.mp (List.mem_of_mem_take member)).1
    have read := agree.readEvents_eq members
    simp only [matchingEvents] at same read
    simp only [same, read]
  | locks year month =>
    have rows : ∀ position, ((remaining Employment.id (first.employmentsInScope zone client) position).take (limit + 1)).map
        (lockPayload first year month) =
          ((remaining Employment.id (second.employmentsInScope zone client) position).take (limit + 1)).map
            (lockPayload second year month) := by
      intro position
      rw [← agree.remainingEmployments position]
      exact List.map_congr_left fun employment member => agree.lockPayload_eq (inScope_of_remaining member) year month
    simp only [Listing.answer, listLocks, rows]

end AgreeInScope

end Reading

section Writing
variable {zone : Zone} {clock : Clock} {client : IntegrationClient} {db next : Db}

/-- What the table stores of an event. -/
def storedEvent (event : AttendanceEvent) : Int × Int × Int := (event.id, event.employmentId, event.occurredAt.utc)

/-- The events and the metrics of an employment are the same. -/
structure Untouched (db next : Db) (employmentId : Int) : Prop where
  events : ∀ stored : Int × Int × Int, stored.2.1 = employmentId →
    ((∃ event ∈ next.events, storedEvent event = stored) ↔ ∃ event ∈ db.events, storedEvent event = stored)
  metrics : ∀ row : EmploymentDailyTimeMetric, row.employmentId = employmentId → (row ∈ next.metrics ↔ row ∈ db.metrics)

theorem Untouched.refl (db : Db) (employmentId : Int) : Untouched db db employmentId :=
  ⟨fun _ _ => Iff.rfl, fun _ _ => Iff.rfl⟩

/-- A commit of events touches one employment. -/
theorem untouched_of_commit {subject employmentId : Int} {writes : List Timestamp}
    (committed : EventCommit zone clock db next subject writes) (different : employmentId ≠ subject) :
    Untouched db next employmentId := by
  obtain ⟨employment, flushed, days, synced, flush, written, rfl, rfl⟩ := committed
  obtain ⟨-, frame, rows⟩ := syncMonths_ok written
  have events : synced.events = flushed.events := by rw [frame]
  have kept : ∀ event : AttendanceEvent, event.employmentId = employmentId → (event ∈ flushed.events ↔ event ∈ db.events) := by
    intro event owner
    constructor
    · intro member
      by_contra fresh
      exact different (owner.symm.trans (flush.added event member fresh).1)
    · intro member
      by_contra gone
      exact different (owner.symm.trans (flush.removed event member gone).1)
  refine ⟨?_, ?_⟩
  · rintro stored owner
    constructor
    · rintro ⟨event, member, rfl⟩
      obtain ⟨old, inside, rfl⟩ := mem_commit_events.mp member
      rw [events] at inside
      exact ⟨old, (kept old owner).mp inside, rfl⟩
    · rintro ⟨event, member, rfl⟩
      refine ⟨event.reload zone, mem_commit_events.mpr ⟨event, ?_, rfl⟩, rfl⟩
      rw [events]
      exact (kept event owner).mpr member
  · intro row owner
    have before : flushed.metrics = db.metrics := by rw [flush.frame]
    change row ∈ synced.metrics ↔ _
    rw [rows row, if_neg fun mine => different (owner.symm.trans mine.1), before]

/-- The event requests of a client. -/
def WritesAs (client : IntegrationClient) : Request → Prop
  | .integrationCreateEvent other _ => other = client
  | .integrationUpdateEvent other _ _ => other = client
  | .integrationDeleteEvent other _ _ => other = client
  | _ => False

/-- The client may access the employment with a number. -/
def Accessible (zone : Zone) (clock : Clock) (db : Db) (client : IntegrationClient) (employmentId : Int) : Prop :=
  (db.employments.get employmentId).any (employmentScopePredicate zone clock db client) = true

theorem requireEmploymentAccess_eq_ok {employmentId : Int} {done : Unit} :
    requireEmploymentAccess zone clock db client employmentId = .ok done ↔ Accessible zone clock db client employmentId := by
  simp [requireEmploymentAccess, Accessible]

/-- A write that succeeds commits events of an employment in scope. -/
theorem write_commits {request : Request} (writes : WritesAs client request) (done : request.handle zone clock db = .ok next) :
    ∃ subject times, Accessible zone clock db client subject ∧ EventCommit zone clock db next subject times := by
  cases request with
  | integrationCreateEvent other payload =>
    obtain rfl : other = client := writes
    obtain ⟨_, handled⟩ := answered done
    obtain ⟨_, _, _, _, creation⟩ := integrationCreate_ok handled
    simp only [createAttendanceEvent, bind_eq_ok, requireEmploymentAccess_eq_ok] at handled
    obtain ⟨-, -, -, -, -, -, -, -, -, access, -⟩ := handled
    exact ⟨_, _, access, creation.commits⟩
  | integrationUpdateEvent other eventId time =>
    obtain rfl : other = client := writes
    obtain ⟨_, handled⟩ := answered done
    obtain ⟨event, stored, committed⟩ := integrationUpdate_commit handled
    simp only [updateAttendanceEvent, bind_eq_ok, require_eq_ok, requireEmploymentAccess_eq_ok] at handled
    obtain ⟨-, -, -, -, _, found, -, access, -⟩ := handled
    obtain rfl := Option.some.inj (stored.symm.trans found)
    exact ⟨_, _, access, committed⟩
  | integrationDeleteEvent other eventId paired =>
    obtain rfl : other = client := writes
    obtain ⟨_, handled⟩ := answered done
    obtain ⟨event, stored, committed⟩ := integrationDelete_commit handled
    simp only [deleteAttendanceEvent, bind_eq_ok, require_eq_ok, requireEmploymentAccess_eq_ok] at handled
    obtain ⟨-, -, _, found, -, access, -⟩ := handled
    obtain rfl := Option.some.inj (stored.symm.trans found)
    exact ⟨_, _, access, committed⟩
  | _ => cases writes

theorem untouched_of_write {request : Request} (writes : WritesAs client request) {employmentId : Int}
    (outside : ¬ Accessible zone clock db client employmentId) :
    Untouched db (step zone db ⟨clock, request⟩) employmentId := by
  refine step_keeps (Untouched db · employmentId) (Untouched.refl db employmentId) ?_
  intro next done
  obtain ⟨subject, times, access, committed⟩ := write_commits writes done
  exact untouched_of_commit committed fun same => outside (same ▸ access)

end Writing

section Denied
variable {zone : Zone} {client : IntegrationClient}

def knownModes : List String := ["ALL_EMPLOYMENTS", "ALL_ACTIVE_EMPLOYMENTS", "SELECTED_EMPLOYEES", "SELECTED_EMPLOYMENTS"]

theorem dataScopeMode_unknown {column : Option String} (unknown : strip (column.getD "") ∉ knownModes) :
    dataScopeMode column = .other := by
  unfold dataScopeMode
  split <;> simp_all [knownModes]

/-- The column names no mode, or nothing is selected. -/
inductive Denied (client : IntegrationClient) : Prop where
  | unknown {column : Option String} (named : client.dataScopeMode = dataScopeMode column)
      (unknown : strip (column.getD "") ∉ knownModes)
  | employees (mode : client.dataScopeMode = .selectedEmployees) (empty : integerIds client.allowedEmployeeIds = [])
  | employments (mode : client.dataScopeMode = .selectedEmployments) (empty : integerIds client.allowedEmploymentIds = [])

theorem Denied.outside (denied : Denied client) (clock : Clock) (db : Db) (employment : Employment) :
    employmentScopePredicate zone clock db client employment = false := by
  cases denied with
  | unknown named unknown => simp [employmentScopePredicate, named, dataScopeMode_unknown unknown]
  | employees mode empty => simp [employmentScopePredicate, mode, empty]
  | employments mode empty => simp [employmentScopePredicate, mode, empty]

theorem Denied.inaccessible (denied : Denied client) (clock : Clock) (db : Db) (employmentId : Int) :
    ¬ Accessible zone clock db client employmentId := by
  rw [Accessible, Option.any_eq_true]
  rintro ⟨employment, -, inside⟩
  rw [denied.outside] at inside
  cases inside

/-- An answer without rows. -/
def Empty (response : ListResponse) : Prop :=
  response.data = [] ∧ response.pagination.nextCursor = none ∧ response.pagination.hasMore = false

theorem empty_respond (limit : Nat) (resource : String) (cursorKey : Option Json) : Empty (respond [] limit resource cursorKey) := by
  simp [Empty, respond]

theorem Denied.answers_empty (denied : Denied client) (listing : Listing) {view : View} {limit : Nat} {cursor : Option Cursor}
    {response : ListResponse} (answered : listing.answer zone view client limit cursor = .ok response) : Empty response := by
  have noEmployments : view.employmentsInScope zone client = [] := by
    rw [List.eq_nil_iff_forall_not_mem]
    intro employment member
    have inside := (mem_employmentsInScope.mp member).2
    rw [View.inScope, denied.outside] at inside
    cases inside
  cases listing with
  | employments =>
    simp only [Listing.answer, listEmployments, noEmployments, bind_eq_ok, pure_eq_ok] at answered
    obtain ⟨-, -, -, -, position, -, -, -, rfl⟩ := answered
    exact empty_respond _ _ _
  | attendanceEvents employmentId dateFrom dateTo =>
    simp only [Listing.answer, listAttendanceEvents, bind_eq_ok, pure_eq_ok] at answered
    obtain ⟨-, -, -, -, position, -, -, -, start, -, finish, -, -, -, rows, read, rfl⟩ := answered
    have noEvents : view.db.events.select (eventMatches zone view client employmentId start finish) = [] := by
      rw [List.eq_nil_iff_forall_not_mem]
      intro event member
      exact denied.inaccessible view.clock view.db event.employmentId (Table.mem_select.mp member).2.1
    simp only [noEvents, readEvents, bind_eq_ok, pure_eq_ok] at read
    obtain ⟨-, -, -, -, rfl⟩ := read
    exact empty_respond _ _ _
  | locks year month =>
    simp only [Listing.answer, listLocks, noEmployments, bind_eq_ok, pure_eq_ok] at answered
    obtain ⟨-, -, -, -, position, -, -, -, rfl⟩ := answered
    exact empty_respond _ _ _

theorem Denied.refuses (denied : Denied client) {request : Request} (writes : WritesAs client request) (clock : Clock)
    (db : Db) : ∃ error, request.handle zone clock db = .error error := by
  cases handled : request.handle zone clock db with
  | error error => exact ⟨error, rfl⟩
  | ok next =>
    obtain ⟨subject, -, access, -⟩ := write_commits writes handled
    exact absurd access (denied.inaccessible clock db subject)

end Denied

/-- A client sees and touches its scope, and nothing else. -/
theorem scope_isolates (zone : Zone) (client : IntegrationClient) :
    (∀ first second, AgreeInScope zone client first second → ∀ (listing : Listing) limit cursor,
      listing.answer zone first client limit cursor = listing.answer zone second client limit cursor) ∧
      (∀ clock db request employmentId, WritesAs client request → ¬ Accessible zone clock db client employmentId →
        Untouched db (step zone db ⟨clock, request⟩) employmentId) ∧
      (Denied client → (∀ view employment, ¬ InScope zone client view employment) ∧
        (∀ (listing : Listing) view limit cursor response,
          listing.answer zone view client limit cursor = .ok response → Empty response) ∧
        ∀ clock db request, WritesAs client request → ∃ error, request.handle zone clock db = .error error) := by
  refine ⟨?_, ?_, ?_⟩
  · exact fun first second agree listing limit cursor => agree.answer_eq listing limit cursor
  · exact fun clock db request employmentId writes outside => untouched_of_write writes outside
  · intro denied
    refine ⟨?_, ?_, ?_⟩
    · rintro view employment ⟨-, inside⟩
      rw [View.inScope, denied.outside] at inside
      cases inside
    · exact fun listing view limit cursor response answered => denied.answers_empty listing answered
    · exact fun clock db request writes => denied.refuses writes clock db

/-- A client that has one of three employments selected. -/
def selectingClient : IntegrationClient :=
  ⟨[scopeEmployments, scopeAttendance, scopeLocks], .selectedEmployments, [1], [], false⟩

/-- The same employment, with nothing beside it. -/
def oneEmployment : View := { threeEmployments with
  db := Db.blank sampleDb.users sampleDb.employments 2 }

theorem one_of_three_agrees : AgreeInScope sampleZone selectingClient threeEmployments oneEmployment where
  today := rfl
  employments employment := by
    have selected (view : View) : InScope sampleZone selectingClient view employment ↔
        employment ∈ view.db.employments ∧ employment.id = 1 := by
      simp [InScope, View.inScope, employmentScopePredicate, selectingClient, integerIds]
    rw [selected, selected]
    constructor
    · rintro ⟨member, number⟩
      have listed : employment ∈ [3, 1, 2].map fun id => { sampleEmployment with id := id } := member
      obtain ⟨id, -, rfl⟩ := List.mem_map.mp listed
      obtain rfl : id = 1 := number
      exact ⟨List.mem_singleton.mpr rfl, rfl⟩
    · rintro ⟨member, number⟩
      obtain rfl : employment = sampleEmployment := List.mem_singleton.mp member
      have listed : sampleEmployment ∈ [3, 1, 2].map fun id => { sampleEmployment with id := id } := by decide
      exact ⟨listed, rfl⟩
  titles _ _ := rfl
  users _ _ := rfl
  events _ _ _ _ := Iff.rfl
  changes _ _ _ _ _ := rfl
  locks _ _ _ _ _ := Iff.rfl

theorem others_unseen : AgreeInScope sampleZone selectingClient threeEmployments oneEmployment ∧
    ∀ (listing : Listing) limit cursor, listing.answer sampleZone threeEmployments selectingClient limit cursor =
      listing.answer sampleZone oneEmployment selectingClient limit cursor :=
  ⟨one_of_three_agrees, (scope_isolates sampleZone selectingClient).1 _ _ one_of_three_agrees⟩

end Dagmar.Integration.Proofs
