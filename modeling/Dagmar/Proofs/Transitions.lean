import Dagmar.Proofs.AdminEffects
import Dagmar.Proofs.RebuildScript

/-! Everything a request can do to the database, and what holds along a run of
requests when each of them keeps it. -/

namespace Dagmar.Proofs
open Library Library.Calendar Library.Outcome

section Requests
variable {zone : Zone} {clock : Clock} {db next : Db}

/-- The requests about events, plans and statuses. -/
def Request.OfFacts : Request → Prop
  | .createEmployment _ _ => False
  | .updateEmployment _ _ => False
  | .setLocks _ _ => False
  | .setShiftPlanSelection _ => False
  | .autoLock => False
  | _ => True

/-- What such a request does to the facts of its employment when it succeeds. -/
inductive FactChange (zone : Zone) (clock : Clock) (db next : Db) (employmentId : Int) (writes : List Timestamp) : Prop where
  | nothing (same : db = next)
  | events (committed : EventCommit zone clock db next employmentId writes)
  | day (committed : DayCommit zone clock db next employmentId)

inductive Transition (zone : Zone) (clock : Clock) (db next : Db) (writes : List Timestamp) : Prop where
  | facts {employmentId : Int} (changed : FactChange zone clock db next employmentId writes)
  | months (committed : MonthsCommit zone db next)
  | hired (committed : HireCommit zone db next)
  | revised (committed : ReviseCommit zone db next)

/-- The database a request answers with comes from the handler that also gives its answer. -/
theorem answered {α : Type} {outcome : Api (Db × α)} (done : Prod.fst <$> outcome = .ok next) :
    ∃ answer, outcome = .ok (next, answer) := by
  obtain ⟨⟨_, answer⟩, handled, rfl⟩ := map_eq_ok.mp done
  exact ⟨answer, handled⟩

theorem factChange_of_handle {request : Request} (done : request.handle zone clock db = .ok next)
    (facts : Request.OfFacts request) : ∃ employmentId, request.subject db = some employmentId ∧
      FactChange zone clock db next employmentId (Request.writes zone db request) := by
  have day {employmentId : Int} (either : db = next ∨ DayCommit zone clock db next employmentId) :
      FactChange zone clock db next employmentId [] := by
    rcases either with same | committed
    · exact .nothing same
    · exact .day committed
  have addressed {eventId : Int} {writes : List Timestamp} (found : ∃ event, db.events.get eventId = some event ∧
      EventCommit zone clock db next event.employmentId writes) :
      ∃ employmentId, (db.events.get eventId).map AttendanceEvent.employmentId = some employmentId ∧
        FactChange zone clock db next employmentId writes := by
    obtain ⟨event, stored, committed⟩ := found
    exact ⟨event.employmentId, by rw [stored, Option.map_some], .events committed⟩
  cases request with
  | portalCreateEvent auth body =>
    obtain ⟨_, handled⟩ := answered done
    obtain ⟨_, _, _, _, creation⟩ := portalCreate_ok handled
    exact ⟨_, rfl, .events creation.commits⟩
  | portalUpdateEvent auth eventId body => exact addressed (portalUpdate_commit (answered done).choose_spec)
  | portalDeleteEvent auth eventId paired => exact addressed (portalDelete_commit done)
  | adminCreateEvent body =>
    obtain ⟨_, handled⟩ := answered done
    obtain ⟨_, _, _, _, creation⟩ := adminCreate_ok handled
    exact ⟨_, rfl, .events creation.commits⟩
  | adminUpdateEvent eventId body => exact addressed (adminUpdate_commit (answered done).choose_spec)
  | adminDeleteEvent eventId paired => exact addressed (adminDelete_commit done)
  | integrationCreateEvent client payload =>
    obtain ⟨_, handled⟩ := answered done
    obtain ⟨_, _, _, _, creation⟩ := integrationCreate_ok handled
    exact ⟨_, rfl, .events creation.commits⟩
  | integrationUpdateEvent client eventId time => exact addressed (integrationUpdate_commit (answered done).choose_spec)
  | integrationDeleteEvent client eventId paired =>
    exact addressed (integrationDelete_commit (answered done).choose_spec)
  | addMissingBreaks body => exact ⟨_, rfl, .events (addMissingBreaks_commit (answered done).choose_spec)⟩
  | portalUpsertShiftPlan auth body => exact ⟨_, rfl, day (portalPlan_commit done)⟩
  | adminUpsertShiftPlan body => exact ⟨_, rfl, day (adminPlan_commit done)⟩
  | portalUpsertDayStatus auth body => exact ⟨_, rfl, .day (portalDayStatus_commit done)⟩
  | portalUpsertAttendanceStatus auth body => exact ⟨_, rfl, .day (portalAttendanceStatus_commit done)⟩
  | adminUpsertDayStatus body => exact ⟨_, rfl, .day (adminDayStatus_commit done)⟩
  | createEmployment userId payload => cases facts
  | updateEmployment employmentId payload => cases facts
  | setLocks username body => cases facts
  | setShiftPlanSelection body => cases facts
  | autoLock => cases facts

theorem transition_of_handle {request : Request} (done : request.handle zone clock db = .ok next) :
    Transition zone clock db next (Request.writes zone db request) := by
  cases request with
  | createEmployment userId payload =>
    obtain ⟨_, handled⟩ := answered done
    exact .hired (createEmployment_commit handled)
  | updateEmployment employmentId payload => exact .revised (updateEmployment_commit done)
  | setLocks username body =>
    obtain ⟨_, handled⟩ := answered done
    exact .months (setLocks_commit handled)
  | setShiftPlanSelection body => exact .months (selection_commit done)
  | autoLock =>
    obtain ⟨_, handled⟩ := answered done
    rcases autoLock_commit handled with same | committed
    · exact Transition.facts (FactChange.nothing same : FactChange zone clock db next 0 _)
    · exact .months committed
  | _ =>
    obtain ⟨_, -, changed⟩ := factChange_of_handle done trivial
    exact .facts changed

end Requests

section Runs
variable {zone : Zone}

/-- Every step of a run meets a condition on the state it starts from. -/
def RunMeets (zone : Zone) (condition : Db → Call → Prop) : Db → List Call → Prop
  | _, [] => True
  | db, call :: calls => condition db call ∧ RunMeets zone condition (step zone db call) calls

theorem step_keeps (invariant : Db → Prop) {db : Db} {call : Call} (holds : invariant db)
    (kept : ∀ next, call.request.handle zone call.clock db = .ok next → invariant next) : invariant (step zone db call) := by
  unfold step
  split
  next next done => exact kept next done
  · exact holds

/-- What every successful step that meets a condition keeps holds in every state reached by such steps. -/
theorem run_keeps (invariant : Db → Prop) {condition : Db → Call → Prop} {db : Db} {calls : List Call}
    (start : invariant db) (meets : RunMeets zone condition db calls)
    (kept : ∀ db call next, invariant db → condition db call → call.request.handle zone call.clock db = .ok next →
      invariant next) : invariant (run zone db calls) := by
  induction calls generalizing db with
  | nil => exact start
  | cons call calls ih =>
    obtain ⟨now, later⟩ := meets
    exact ih (step_keeps invariant start fun next done => kept db call next start now done) later

theorem run_always (invariant : Db → Prop) {db : Db} {calls : List Call} (start : invariant db)
    (kept : ∀ db (call : Call) next, invariant db → call.request.handle zone call.clock db = .ok next → invariant next) :
    invariant (run zone db calls) := by
  induction calls generalizing db with
  | nil => exact start
  | cons call calls ih => exact ih (step_keeps invariant start fun next done => kept db call next start done)

end Runs

section Commits
variable {zone : Zone} {db : Db}

@[simp] theorem mem_commit_events {event : AttendanceEvent} :
    event ∈ (commit zone db).events ↔ ∃ old ∈ db.events, old.reload zone = event := by
  simp only [commit, Table.mem_mapRows]

theorem commit_rested (zone : Zone) (db : Db) : Rested zone (commit zone db) := by
  intro event member
  obtain ⟨old, -, rfl⟩ := mem_commit_events.mp member
  rfl

theorem reload_settled {event : AttendanceEvent} (settled : zone.Settled event.occurredAt) : event.reload zone = event := by
  obtain ⟨id, owner, ⟨wall, utc⟩⟩ := event
  simp only [AttendanceEvent.reload, Zone.load]
  rw [show zone.toWall utc = wall from settled]

/-- A commit changes nothing when every event reads as it was written. -/
theorem commit_of_rested (rested : Rested zone db) : commit zone db = db := by
  rw [commit, Table.mapRows_id]
  exact fun event member => reload_settled (rested event member)

/-- A time was read from an instant, or its instant was computed from it. -/
def Placed (zone : Zone) (time : Timestamp) : Prop := zone.Settled time ∨ time.utc = zone.toUtc time.wall

theorem placed_pragueNow (zone : Zone) (time : RequestTime) : Placed zone (pragueNow zone time) := by
  cases time with
  | naive wall => exact .inr rfl
  | aware utc => exact .inl rfl

theorem placed_additions {employment : Employment} {time : Timestamp} {paired : Option Timestamp}
    {additions : List Timestamp} (first : Placed zone time) (second : ∀ other ∈ paired, Placed zone other)
    (added : eventAdditions zone db employment time paired = .ok additions) : ∀ addition ∈ additions, Placed zone addition := by
  intro addition member
  rcases mem_eventAdditions added member with rfl | ⟨given, -⟩ | ⟨start, finish, -, wall, -, rfl⟩
  · exact first
  · exact second addition given
  · exact .inr rfl

theorem placed_createWrites (zone : Zone) (db : Db) (body : AttendanceEventIn) :
    ∀ time ∈ createWrites zone db body, Placed zone time := by
  intro time member
  unfold createWrites at member
  split at member
  · cases member
  next employment _ =>
    cases added : eventAdditions zone db employment (pragueNow zone body.occurredAt)
        (body.pairedOccurredAt.map (pragueNow zone)) with
    | error message =>
      rw [added] at member
      cases member
    | ok additions =>
      rw [added] at member
      refine placed_additions (placed_pragueNow zone _) ?_ added time member
      intro other given
      obtain ⟨paired, -, rfl⟩ := Option.map_eq_some_iff.mp given
      exact placed_pragueNow zone paired

theorem placed_writes (zone : Zone) (db : Db) (request : Request) :
    ∀ time ∈ Request.writes zone db request, Placed zone time := by
  have single (time : RequestTime) : ∀ other ∈ [pragueNow zone time], Placed zone other := by
    intro other member
    exact List.mem_singleton.mp member ▸ placed_pragueNow zone time
  cases request with
  | portalCreateEvent auth body => exact placed_createWrites zone db body
  | adminCreateEvent body => exact placed_createWrites zone db body
  | integrationCreateEvent client payload => exact placed_createWrites zone db payload
  | portalUpdateEvent auth eventId body => exact single body.occurredAt
  | adminUpdateEvent eventId body => exact single body.occurredAt
  | integrationUpdateEvent client eventId time => exact single time
  | addMissingBreaks body =>
    intro time member
    simp only [Request.writes, breakWrites] at member
    split at member
    · cases member
    · obtain ⟨wall, -, rfl⟩ := List.mem_map.mp member
      exact .inr rfl
  | _ =>
    intro time member
    cases member

variable {time : Timestamp}

/-- A time never comes back on an earlier day. -/
theorem Placed.forward (placed : Placed zone time) : time.date ≤ dateOf (zone.toWall time.utc) := by
  rcases placed with settled | computed
  · rw [settled]
    exact le_rfl
  · rw [computed]
    exact zone.forward time.wall

/-- From 1917 on a time comes back on its own day. -/
theorem Placed.keepsDay (placed : Placed zone time) (late : ordinal 1917 1 1 ≤ dateOf (zone.toWall time.utc)) :
    zone.KeepsDay time := by
  rcases placed with settled | computed
  · exact settled.keepsDay
  · rw [Zone.KeepsDay, computed]
    apply zone.sameDay
    by_contra early
    have := zone.early time.wall (not_le.mp early)
    rw [computed] at late
    omega

/-- A period that includes today and the day a time was given for includes the day it comes back on. -/
theorem Placed.valid (placed : Placed zone time) {employment : Employment} {clock : Clock}
    (today : employmentIsValidOnDay employment (pragueToday zone clock))
    (valid : employmentIsValidOnDay employment time.date) :
    employmentIsValidOnDay employment (dateOf (zone.toWall time.utc)) := by
  have forward := placed.forward
  have modern := today_after_1917 zone clock
  refine ⟨le_trans valid.1 forward, ?_⟩
  intro last ends
  by_cases late : ordinal 1917 1 1 ≤ dateOf (zone.toWall time.utc)
  · rw [placed.keepsDay late]
    exact valid.2 last ends
  · have := today.2 last ends
    omega

end Commits

section Committed
variable {zone : Zone} {clock : Clock} {db next : Db} {writes : List Timestamp}

/-- The events of one employment after the commit, where new ones read as their instants do. -/
structure EventsChanged (zone : Zone) (clock : Clock) (db next : Db) (writes : List Timestamp) (employment : Employment) :
    Prop where
  stored : db.employments.get employment.id = some employment
  active : lockedEmploymentHasActiveUser zone clock db employment
  frame : next = { db with events := next.events, metrics := next.metrics, nextEventId := next.nextEventId }
  added : ∀ event ∈ next.events, event ∉ db.events → event.employmentId = employment.id ∧ ∃ time ∈ writes,
    event.occurredAt = zone.load time.utc ∧ ¬ isMonthLocked db .attendance employment.id (yearMonth time.date) ∧
      ¬ daysHaveStatus db employment.id [time.date] ∧ (employmentIsValidOnDay employment time.date ∨
        ∃ other ∈ db.events, other.employmentId = employment.id ∧ other.occurredAt.date = time.date)
  removed : ∀ event ∈ db.events, event ∉ next.events → event.employmentId = employment.id ∧
    ¬ isMonthLocked db .attendance employment.id (yearMonth event.occurredAt.date)
  numbered : NewNumbers db next employment.id

theorem daysHaveStatus_mono {employmentId : Int} {fewer days : List Int} (inside : ∀ date ∈ fewer, date ∈ days)
    (status : daysHaveStatus db employmentId fewer) : daysHaveStatus db employmentId days := by
  rcases status with ⟨row, member, listed, given⟩ | ⟨plan, member, listed, given⟩
  · exact .inl ⟨row, member, inside _ listed, given⟩
  · exact .inr ⟨plan, member, inside _ listed, given⟩

theorem EventCommit.changed {employmentId : Int} (rested : Rested zone db)
    (committed : EventCommit zone clock db next employmentId writes) :
    ∃ employment, EventsChanged zone clock db next writes employment ∧ employment.id = employmentId := by
  obtain ⟨employment, flushed, days, synced, flush, written, rfl, owned⟩ := committed
  obtain ⟨-, frame, -⟩ := syncMonths_ok written
  have events : synced.events = flushed.events := by rw [frame]
  have count : synced.nextEventId = flushed.nextEventId := by rw [frame]
  have fresh (old : AttendanceEvent) (new : old.reload zone ∉ db.events) : old ∉ db.events := by
    intro kept
    apply new
    rw [reload_settled (rested old kept)]
    exact kept
  refine ⟨employment, ⟨flush.stored, flush.active, ?_, ?_, ?_, ?_, ?_⟩, owned⟩
  · rw [frame, flush.frame]
    rfl
  · intro event member new
    obtain ⟨old, held, rfl⟩ := mem_commit_events.mp member
    rw [events] at held
    obtain ⟨owner, time, today⟩ := flush.added old held (fresh old new)
    refine ⟨owner, old.occurredAt, time, rfl, flush.unlocked _ today, ?_, flush.valid old held (fresh old new)⟩
    intro status
    exact flush.free ⟨old, held, fresh old new⟩ (daysHaveStatus_mono (by simpa using today) status)
  · intro event member missing
    obtain ⟨owner, today⟩ := flush.removed event member fun kept =>
      missing (mem_commit_events.mpr ⟨event, events ▸ kept, reload_settled (rested event member)⟩)
    exact ⟨owner, flush.unlocked _ today⟩
  · exact le_of_le_of_eq flush.numbered.grows count.symm
  · intro event member new
    obtain ⟨old, held, rfl⟩ := mem_commit_events.mp member
    rw [events] at held
    have named := flush.numbered.named old held (fresh old new)
    rw [← count] at named
    exact named

/-- After a request about one day, everything but the metrics stands as the request flushed it. -/
theorem DayCommit.changed {employmentId : Int} (rested : Rested zone db)
    (committed : DayCommit zone clock db next employmentId) :
    ∃ employment date flushed, DayFlush zone clock db flushed employment date ∧
      next = { flushed with metrics := next.metrics } ∧ employment.id = employmentId := by
  obtain ⟨employment, date, flushed, months, synced, flush, -, written, rfl, owned⟩ := committed
  obtain ⟨-, frame, -⟩ := syncMonths_ok written
  have still : Rested zone synced := by
    rw [frame]
    exact fun event member => rested event (flush.events event member)
  rw [commit_of_rested still]
  exact ⟨employment, date, flushed, flush, frame, owned⟩

theorem MonthsCommit.changed (rested : Rested zone db) (committed : MonthsCommit zone db next) : MonthsFlush db next := by
  obtain ⟨flushed, flush, rfl⟩ := committed
  have still : Rested zone flushed := by
    rw [flush.frame]
    exact rested
  rw [commit_of_rested still]
  exact flush

theorem HireCommit.changed (rested : Rested zone db) (committed : HireCommit zone db next) :
    ∃ employment, db.employments.get employment.id = none ∧
      next = { db with employments := next.employments, nextEmploymentId := next.nextEmploymentId } ∧
      ∀ row, row ∈ next.employments ↔ row ∈ db.employments ∨ row = employment := by
  obtain ⟨employment, employments, nextId, fresh, inserted, rfl⟩ := committed
  have still : Rested zone { db with employments := employments, nextEmploymentId := nextId } := rested
  rw [commit_of_rested still]
  refine ⟨employment, fresh, rfl, ?_⟩
  intro row
  simp [Table.mem_insertAll inserted]

theorem ReviseCommit.changed (rested : Rested zone db) (committed : ReviseCommit zone db next) :
    ∃ employment updated flushed, Revision db flushed employment updated ∧ next = { flushed with metrics := next.metrics } ∧
      (syncEmploymentMetrics flushed updated = .ok next ∨ SameMetricColumns employment updated ∧ flushed = next) := by
  obtain ⟨employment, updated, flushed, revision, outcome⟩ := committed
  have still : Rested zone flushed := fun event member => rested event (revision.events event member).1
  rcases outcome with ⟨synced, written, rfl⟩ | ⟨same, rfl⟩
  · obtain ⟨frame, -⟩ := syncMetrics_ok written
    have rest : Rested zone synced := by
      rw [frame]
      exact still
    rw [commit_of_rested rest]
    exact ⟨employment, updated, flushed, revision, frame, .inl written⟩
  · rw [commit_of_rested still]
    exact ⟨employment, updated, flushed, revision, rfl, .inr ⟨same, rfl⟩⟩

theorem Transition.rested (rested : Rested zone db) (transition : Transition zone clock db next writes) : Rested zone next := by
  cases transition with
  | facts changed =>
    cases changed with
    | nothing same => exact same ▸ rested
    | events committed =>
      obtain ⟨_, _, _, _, _, _, rfl, _⟩ := committed
      exact commit_rested zone _
    | day committed =>
      obtain ⟨_, _, _, _, _, _, _, _, rfl, _⟩ := committed
      exact commit_rested zone _
  | months committed =>
    obtain ⟨_, _, rfl⟩ := committed
    exact commit_rested zone _
  | hired committed =>
    obtain ⟨_, _, _, _, _, rfl⟩ := committed
    exact commit_rested zone _
  | revised committed =>
    obtain ⟨_, _, _, _, ⟨_, _, rfl⟩ | ⟨_, rfl⟩⟩ := committed
    · exact commit_rested zone _
    · exact commit_rested zone _

end Committed

end Dagmar.Proofs
