import Dagmar.Proofs.PlanUpserts
import Dagmar.Proofs.Sessions

/-! What a successful event request does to the database: the events of one
employment change, on days that lie in its period, carry no full-day status and
are not locked; nothing else changes before the metrics are written. -/

namespace Dagmar.Proofs
open Library Library.Calendar Library.Outcome Library.Pairing

section Writes

/-- The times a create request writes, pauses included. -/
def createWrites (zone : Zone) (db : Db) (body : AttendanceEventIn) : List Timestamp :=
  match db.employments.get body.employmentId with
  | none => []
  | some employment =>
    ((eventAdditions zone db employment (pragueNow zone body.occurredAt)
      (body.pairedOccurredAt.map (pragueNow zone))).toOption).getD []

/-- The pauses that are missing in a run of days, as the begin and the end of each, by session. -/
def missingGroups (events : List AttendanceEvent) (start finish : Int) : List (List (Int × Int)) :=
  Admin.freshGroups (events.map (·.occurredAt.wall))
    (missingBreakEventGroups (pairEvents events) (midnight start) (midnight finish))

def missingPauses (events : List AttendanceEvent) (start finish : Int) : List (Int × Int) :=
  (missingGroups events start finish).flatten

def breakWrites (zone : Zone) (db : Db) (body : Admin.AddBreaksIn) : List Timestamp :=
  match monthRange body.year body.month with
  | none => []
  | some (start, finish) => (pauseWalls (missingPauses (db.eventsOf body.employmentId) start finish)).map zone.attach

/-- The timestamps an accepted request stores, as they stand before the commit. -/
def Request.writes (zone : Zone) (db : Db) : Request → List Timestamp
  | .portalCreateEvent _ body => createWrites zone db body
  | .adminCreateEvent body => createWrites zone db body
  | .integrationCreateEvent _ payload => createWrites zone db payload
  | .portalUpdateEvent _ _ body => [pragueNow zone body.occurredAt]
  | .adminUpdateEvent _ body => [pragueNow zone body.occurredAt]
  | .integrationUpdateEvent _ _ occurredAt => [pragueNow zone occurredAt]
  | .addMissingBreaks body => breakWrites zone db body
  | _ => []

end Writes

section Flush

/-- An event that was not there has a new number or the number of an event of the same employment. -/
structure NewNumbers (db next : Db) (employmentId : Int) : Prop where
  grows : db.nextEventId ≤ next.nextEventId
  named : ∀ event ∈ next.events, event ∉ db.events → db.nextEventId ≤ event.id ∧ event.id < next.nextEventId ∨
    ∃ old ∈ db.events, old.id = event.id ∧ old.employmentId = employmentId

/-- The events of one employment after the flush of a request, and the days that
the request takes to have changed. -/
structure EventFlush (zone : Zone) (clock : Clock) (db flushed : Db) (employment : Employment) (days : List Int)
    (writes : List Timestamp) : Prop where
  stored : db.employments.get employment.id = some employment
  active : lockedEmploymentHasActiveUser zone clock db employment
  frame : flushed = { db with events := flushed.events, nextEventId := flushed.nextEventId }
  added : ∀ event ∈ flushed.events, event ∉ db.events →
    event.employmentId = employment.id ∧ event.occurredAt ∈ writes ∧ event.occurredAt.date ∈ days
  removed : ∀ event ∈ db.events, event ∉ flushed.events → event.employmentId = employment.id ∧ event.occurredAt.date ∈ days
  unlocked : ∀ date ∈ days, ¬ isMonthLocked db .attendance employment.id (yearMonth date)
  free : (∃ event ∈ flushed.events, event ∉ db.events) → ¬ daysHaveStatus db employment.id days
  valid : ∀ event ∈ flushed.events, event ∉ db.events → employmentIsValidOnDay employment event.occurredAt.date ∨
    ∃ other ∈ db.events, other.employmentId = employment.id ∧ other.occurredAt.date = event.occurredAt.date
  numbered : NewNumbers db flushed employment.id

@[simp] theorem mem_monthsForDays {days : List Int} {month : Int × Nat} :
    month ∈ monthsForDays days ↔ ∃ date ∈ days, yearMonth date = month := by
  simp [monthsForDays]

theorem flushEvents_rows {rows : List AttendanceEvent} {table : Table AttendanceEvent AttendanceEvent.id}
    (flushed : flushEvents rows = some table) : table.rows = rows := by
  unfold flushEvents at flushed
  split at flushed
  · split at flushed
    · cases flushed
      rfl
    · cases flushed
  · cases flushed

theorem insertEvents_rows {db flushed : Db} {employmentId : Int} {times : List Timestamp}
    (inserted : insertEvents db employmentId times = some flushed) :
    flushed = { db with events := flushed.events, nextEventId := flushed.nextEventId } ∧
      flushed.events.rows = db.events.rows ++ times.mapIdx fun index time => ⟨db.nextEventId + index, employmentId, time⟩ := by
  simp only [insertEvents, Option.bind_eq_bind, Option.bind_eq_some_iff, Option.pure_def, Option.some.injEq] at inserted
  obtain ⟨table, flushed, rfl⟩ := inserted
  exact ⟨rfl, flushEvents_rows flushed⟩

theorem insertEvents_ok {db flushed : Db} {employmentId : Int} {times : List Timestamp}
    (inserted : insertEvents db employmentId times = some flushed) :
    flushed = { db with events := flushed.events, nextEventId := flushed.nextEventId } ∧
      (∀ event ∈ db.events, event ∈ flushed.events) ∧
      ∀ event ∈ flushed.events, event ∉ db.events → event.employmentId = employmentId ∧ event.occurredAt ∈ times := by
  obtain ⟨frame, rows⟩ := insertEvents_rows inserted
  refine ⟨frame, ?_, ?_⟩
  · intro event member
    rw [Table.mem_def, rows]
    exact List.mem_append_left _ member
  · intro event member fresh
    rw [Table.mem_def, rows, List.mem_append] at member
    rcases member with member | member
    · exact absurd member fresh
    · obtain ⟨index, bound, rfl⟩ := List.mem_mapIdx.mp member
      exact ⟨rfl, List.getElem_mem _⟩

theorem insertEvents_numbered {db flushed : Db} {employmentId : Int} {times : List Timestamp}
    (inserted : insertEvents db employmentId times = some flushed) : NewNumbers db flushed employmentId := by
  simp only [insertEvents, Option.bind_eq_bind, Option.bind_eq_some_iff, Option.pure_def, Option.some.injEq] at inserted
  obtain ⟨table, inserted, rfl⟩ := inserted
  refine ⟨by simp, ?_⟩
  intro event member fresh
  rw [Table.mem_def, flushEvents_rows inserted, List.mem_append] at member
  rcases member with member | member
  · exact absurd member fresh
  · obtain ⟨index, bound, rfl⟩ := List.mem_mapIdx.mp member
    left
    simp only
    omega

theorem updateEvent_ok {db flushed : Db} {old : AttendanceEvent} (updated : AttendanceEvent)
    (stored : db.events.get updated.id = some old)
    (rewritten : updateEvent db updated = some flushed) :
    flushed = { db with events := flushed.events, nextEventId := flushed.nextEventId } ∧
      (∀ event ∈ db.events, event ∉ flushed.events → event = old) ∧
      ∀ event ∈ flushed.events, event ∉ db.events → event = updated := by
  obtain ⟨member, same⟩ := Table.get_eq_some_iff.mp stored
  simp only [updateEvent, Option.bind_eq_bind, Option.bind_eq_some_iff, Option.pure_def, Option.some.injEq] at rewritten
  obtain ⟨table, flushed, rfl⟩ := rewritten
  have rows := flushEvents_rows flushed
  have members (event : AttendanceEvent) : event ∈ table ↔ ∃ row ∈ db.events, (if row.id = updated.id then updated else row) = event := by
    rw [Table.mem_def, rows, List.mem_map]
    rfl
  refine ⟨rfl, ?_, ?_⟩
  · intro event inside missing
    by_contra different
    apply missing
    refine (members event).mpr ⟨event, inside, if_neg ?_⟩
    intro equal
    exact different (db.events.key_inj inside member (equal.trans same.symm))
  · intro event inside fresh
    obtain ⟨row, kept, rfl⟩ := (members event).mp inside
    split at fresh
    next chosen => rw [if_pos chosen]
    · exact absurd kept fresh

theorem updateEvent_counts {db flushed : Db} {updated : AttendanceEvent} (rewritten : updateEvent db updated = some flushed) :
    db.nextEventId ≤ flushed.nextEventId := by
  simp only [updateEvent, Option.bind_eq_bind, Option.bind_eq_some_iff, Option.pure_def, Option.some.injEq] at rewritten
  obtain ⟨table, -, rfl⟩ := rewritten
  exact le_rfl

end Flush

section Creating
variable {zone : Zone} {clock : Clock} {db flushed : Db} {employment : Employment} {time : Timestamp}
  {paired : Option Timestamp} {additions : List Timestamp}

@[simp] theorem alternationConflict_eq_ok {α : Type} {outcome : Except String α} {value : α} :
    alternationConflict outcome = .ok value ↔ outcome = .ok value := by
  cases outcome <;> simp [alternationConflict]

theorem previousEvent_sameDay {employmentId : Int} {previous : AttendanceEvent}
    (found : previousEvent db employmentId time = some previous) : previous.occurredAt.date = time.date := by
  unfold previousEvent at found
  dsimp only at found
  split at found
  · have member := mem_orderedEvents.mp (List.mem_of_getElem? found)
    rcases List.mem_append.mp member with stored | pending
    · exact of_decide_eq_true (List.mem_filter.mp stored).2
    · rw [List.mem_singleton.mp pending]
  · cases found

/-- The interval that a create request closes: the given pair, or from the event before the given time. -/
inductive Closes (db : Db) (employmentId : Int) (time : Timestamp) (paired : Option Timestamp) :
    Timestamp → Timestamp → Prop where
  | pair {finish : Timestamp} (given : paired = some finish) (sameDay : finish.date = time.date) :
      Closes db employmentId time paired time finish
  | single {previous : AttendanceEvent} (alone : paired = none) (found : previousEvent db employmentId time = some previous) :
      Closes db employmentId time paired previous.occurredAt time

/-- A request adds the times it was given and the pauses of the interval it closes. -/
theorem mem_eventAdditions (added : eventAdditions zone db employment time paired = .ok additions) {addition : Timestamp}
    (member : addition ∈ additions) :
    addition = time ∨ (addition ∈ paired ∧ addition.date = time.date) ∨
      ∃ start finish, Closes db employment.id time paired start finish ∧
        ∃ wall ∈ automaticBreakEvents start.wall finish.wall, zone.attach wall = addition := by
  cases paired with
  | some finish =>
    simp only [eventAdditions, addClosedIntervalWithBreaks, bind_eq_ok, raiseIf_eq_ok, pure_eq_ok, not_not] at added
    obtain ⟨_, sameDay, _, -, rfl⟩ := added
    rw [List.mem_append, List.mem_cons, List.mem_singleton] at member
    rcases member with (rfl | pause) | rfl
    · exact .inl rfl
    · split at pause
      · exact .inr (.inr ⟨_, _, .pair rfl sameDay, List.mem_map.mp pause⟩)
      · cases pause
    · exact .inr (.inl ⟨rfl, sameDay⟩)
  | none =>
    simp only [eventAdditions, Except.ok.injEq] at added
    subst added
    unfold addEventWithBreaks at member
    split at member
    next previous found =>
      split at member
      · rcases List.mem_cons.mp member with rfl | pause
        · exact .inl rfl
        · exact .inr (.inr ⟨_, _, .single rfl found, List.mem_map.mp pause⟩)
      · exact .inl (List.mem_singleton.mp member)
    · exact .inl (List.mem_singleton.mp member)

/-- A request adds events on the day of its first time only. -/
theorem additions_date (added : eventAdditions zone db employment time paired = .ok additions) :
    ∀ addition ∈ additions, addition.date = time.date := by
  intro addition member
  rcases mem_eventAdditions added member with rfl | ⟨-, sameDay⟩ | ⟨start, finish, closes, wall, inside, rfl⟩
  · rfl
  · exact sameDay
  · cases closes with
    | pair given sameDay => exact breaks_sameDay sameDay.symm inside
    | single alone found =>
      have sameDay := previousEvent_sameDay found
      exact (breaks_sameDay sameDay inside).trans sameDay

theorem mem_changedEventDays {before after : List WorkInterval} {times : List Timestamp} {time : Timestamp}
    (member : time ∈ times) : time.date ∈ changedEventDays before after times :=
  List.mem_append_left _ (List.mem_map_of_mem member)

/-- The statuses and locks that a flush of events leaves are the ones it found. -/
theorem free_of_frame {days : List Int} {employmentId : Int}
    (frame : flushed = { db with events := flushed.events, nextEventId := flushed.nextEventId })
    (free : ¬ daysHaveStatus flushed employmentId days) : ¬ daysHaveStatus db employmentId days := by
  rw [frame] at free
  exact free

theorem unlocked_of_frame {days : List Int} {employmentId : Int}
    (frame : flushed = { db with events := flushed.events, nextEventId := flushed.nextEventId })
    (unlocked : ∀ month ∈ monthsForDays days, ¬ isMonthLocked flushed .attendance employmentId month) :
    ∀ date ∈ days, ¬ isMonthLocked db .attendance employmentId (yearMonth date) := by
  intro date member
  have open' := unlocked (yearMonth date) (mem_monthsForDays.mpr ⟨date, member, rfl⟩)
  rw [frame] at open'
  exact open'

theorem createFlush (stored : db.employments.get employment.id = some employment)
    (active : lockedEmploymentHasActiveUser zone clock db employment)
    (inside : ¬ outsidePeriod employment (time :: paired.toList))
    (added : eventAdditions zone db employment time paired = .ok additions)
    (inserted : insertEvents db employment.id additions = some flushed) {before after : List WorkInterval}
    (free : ¬ daysHaveStatus flushed employment.id (changedEventDays before after (time :: paired.toList)))
    (unlocked : ∀ month ∈ monthsForDays (changedEventDays before after (time :: paired.toList)),
      ¬ isMonthLocked flushed .attendance employment.id month) :
    EventFlush zone clock db flushed employment (changedEventDays before after (time :: paired.toList)) additions := by
  obtain ⟨frame, kept, fresh⟩ := insertEvents_ok inserted
  refine ⟨stored, active, frame, ?_, ?_, unlocked_of_frame frame unlocked, fun _ => free_of_frame frame free, ?_,
    insertEvents_numbered inserted⟩
  · intro event member new
    obtain ⟨owner, written⟩ := fresh event member new
    refine ⟨owner, written, ?_⟩
    rw [additions_date added _ written]
    exact mem_changedEventDays (by simp)
  · intro event member missing
    exact absurd (kept event member) missing
  · intro event member new
    left
    rw [additions_date added _ (fresh event member new).2]
    by_contra outside
    exact inside ⟨time, by simp, outside⟩

end Creating

section Changing
variable {zone : Zone} {clock : Clock} {db flushed : Db} {employment : Employment} {event : AttendanceEvent}

theorem updateFlush {time : Timestamp} (stored : db.employments.get employment.id = some employment)
    (active : lockedEmploymentHasActiveUser zone clock db employment) (found : db.events.get event.id = some event)
    (owner : event.employmentId = employment.id) (inside : ¬ outsidePeriod employment [time])
    (rewritten : updateEvent db { event with occurredAt := time } = some flushed) {before after : List WorkInterval}
    (free : ¬ daysHaveStatus flushed employment.id (changedEventDays before after [event.occurredAt, time]))
    (unlocked : ∀ month ∈ monthsForDays (changedEventDays before after [event.occurredAt, time]),
      ¬ isMonthLocked flushed .attendance employment.id month) :
    EventFlush zone clock db flushed employment (changedEventDays before after [event.occurredAt, time]) [time] := by
  obtain ⟨frame, removed, fresh⟩ := updateEvent_ok { event with occurredAt := time } found rewritten
  refine ⟨stored, active, frame, ?_, ?_, unlocked_of_frame frame unlocked, fun _ => free_of_frame frame free, ?_,
    updateEvent_counts rewritten, ?_⟩
  · intro other member new
    rw [fresh other member new]
    exact ⟨owner, by simp, mem_changedEventDays (by simp)⟩
  · intro other member missing
    rw [removed other member missing]
    exact ⟨owner, mem_changedEventDays (by simp)⟩
  · intro other member new
    left
    rw [fresh other member new]
    by_contra outside
    exact inside ⟨time, by simp, outside⟩
  · intro other member new
    rw [fresh other member new]
    exact .inr ⟨event, (Table.get_eq_some_iff.mp found).1, rfl, owner⟩

/-- The rows a delete request removes: the named event and, if asked for, its partner. -/
theorem deleteFlush {paired : Option AttendanceEvent} (stored : db.employments.get employment.id = some employment)
    (active : lockedEmploymentHasActiveUser zone clock db employment) (found : event ∈ db.events)
    (owner : event.employmentId = employment.id) (partner : ∀ other ∈ paired, other ∈ db.eventsOf employment.id)
    {before after : List WorkInterval}
    (unlocked : ∀ month ∈ monthsForDays (changedEventDays before after ((event :: paired.toList).map AttendanceEvent.occurredAt)),
      ¬ isMonthLocked db .attendance employment.id month) :
    EventFlush zone clock db
      { db with events := db.events.deleteWhere fun other =>
        other.employmentId = employment.id ∧ other.id ∈ (event :: paired.toList).map AttendanceEvent.id }
      employment (changedEventDays before after ((event :: paired.toList).map AttendanceEvent.occurredAt)) [] := by
  have subset (other : AttendanceEvent) (member : other ∈ db.events.deleteWhere fun other =>
      other.employmentId = employment.id ∧ other.id ∈ (event :: paired.toList).map AttendanceEvent.id) :
      other ∈ db.events := (Table.mem_deleteWhere.mp member).1
  have listed : ∀ other ∈ event :: paired.toList, other ∈ db.events := by
    intro other member
    rcases List.mem_cons.mp member with rfl | member
    · exact found
    · exact (Db.mem_eventsOf.mp (partner other (Option.mem_toList.mp member))).1
  refine ⟨stored, active, rfl, ?_, ?_, unlocked_of_frame rfl unlocked, ?_, ?_, le_rfl, ?_⟩
  · intro other member new
    exact absurd (subset other member) new
  · intro other member missing
    rw [Table.mem_deleteWhere, not_and, not_not] at missing
    obtain ⟨owned, id⟩ := missing member
    obtain ⟨deleted, chosen, same⟩ := List.mem_map.mp id
    refine ⟨owned, ?_⟩
    rw [← db.events.key_inj (listed deleted chosen) member same]
    exact mem_changedEventDays (List.mem_map_of_mem chosen)
  · intro impossible
    obtain ⟨other, member, new⟩ := impossible
    exact absurd (subset other member) new
  · intro other member new
    exact absurd (subset other member) new
  · intro other member new
    exact absurd (subset other member) new

/-- A missing pause cuts an interval of its own day, which is how the day comes to be among the changed ones. -/
theorem breaksFlush {start finish : Int} (stored : db.employments.get employment.id = some employment)
    (active : lockedEmploymentHasActiveUser zone clock db employment)
    (inserted : insertEvents db employment.id
      ((pauseWalls (missingPauses (db.eventsOf employment.id) start finish)).map zone.attach) = some flushed)
    (free : ¬ daysHaveStatus flushed employment.id (changedEventDays (intervalSignatures (db.eventsOf employment.id))
      (intervalSignatures (flushed.eventsOf employment.id)) []))
    (unlocked : ∀ month ∈ monthsForDays (changedEventDays (intervalSignatures (db.eventsOf employment.id))
      (intervalSignatures (flushed.eventsOf employment.id)) []), ¬ isMonthLocked flushed .attendance employment.id month) :
    EventFlush zone clock db flushed employment (changedEventDays (intervalSignatures (db.eventsOf employment.id))
      (intervalSignatures (flushed.eventsOf employment.id)) [])
      ((pauseWalls (missingPauses (db.eventsOf employment.id) start finish)).map zone.attach) := by
  obtain ⟨frame, kept, fresh⟩ := insertEvents_ok inserted
  have cut (event : AttendanceEvent) (member : event ∈ flushed.events) (new : event ∉ db.events) :
      ∃ interval ∈ pairEvents (db.eventsOf employment.id),
        interval.start < event.occurredAt.wall ∧ event.occurredAt.wall < interval.finish := by
    obtain ⟨wall, listed, written⟩ := List.mem_map.mp (fresh event member new).2
    obtain ⟨pause, missing, ends⟩ := List.mem_flatMap.mp listed
    obtain ⟨pairs, group, inside⟩ := List.mem_flatten.mp missing
    obtain ⟨additions, placed, paired⟩ := mem_freshGroups group inside
    obtain ⟨interval, worked, bounds⟩ := mem_missingBreakEventGroups placed paired
    refine ⟨interval, worked, ?_⟩
    rw [← written]
    simp only [List.mem_cons, List.not_mem_nil, or_false] at ends
    simp only [Zone.attach]
    rcases ends with rfl | rfl <;> omega
  have sameDay (event : AttendanceEvent) (interval : WorkInterval) (worked : interval ∈ pairEvents (db.eventsOf employment.id))
      (inside : interval.start < event.occurredAt.wall ∧ event.occurredAt.wall < interval.finish) :
      event.occurredAt.date = dateOf interval.start := by
    have := (pairEvents_sameDay worked).2
    simp only [Timestamp.date, dateOf, day] at this ⊢
    omega
  refine ⟨stored, active, frame, ?_, ?_, unlocked_of_frame frame unlocked, fun _ => free_of_frame frame free, ?_,
    insertEvents_numbered inserted⟩
  · intro event member new
    obtain ⟨owner, written⟩ := fresh event member new
    obtain ⟨interval, worked, inside⟩ := cut event member new
    have gone := interval_split (Db.mem_eventsOf.mpr ⟨member, owner⟩) inside
    obtain ⟨below, oneDay⟩ := pairEvents_sameDay worked
    refine ⟨owner, written, List.mem_append_right _ ?_⟩
    rw [sameDay event interval worked inside]
    refine List.mem_flatMap.mpr ⟨interval, List.mem_append_left _ ?_, ?_⟩
    · rw [List.mem_filter]
      exact ⟨worked, decide_eq_true gone⟩
    · rw [splitByDay_sameDay below oneDay]
      simp
  · intro event member missing
    exact absurd (kept event member) missing
  · intro event member new
    right
    obtain ⟨interval, worked, inside⟩ := cut event member new
    obtain ⟨pair, paired, same⟩ := List.mem_map.mp worked
    obtain ⟨first, -, -, -⟩ := pair_sameDay paired
    obtain ⟨held, owner⟩ := Db.mem_eventsOf.mp first
    refine ⟨pair.1, held, owner, ?_⟩
    rw [sameDay event interval worked inside, ← same]
    rfl

end Changing

section Requests
variable {zone : Zone} {clock : Clock} {db next : Db} {answer : AttendanceEvent}

/-- The request flushed a change of the events of an employment, wrote the metrics of the changed months and committed. -/
def EventCommit (zone : Zone) (clock : Clock) (db next : Db) (employmentId : Int) (writes : List Timestamp) : Prop :=
  ∃ employment flushed days synced, EventFlush zone clock db flushed employment days writes ∧
    syncEmploymentMetricMonths flushed employment (monthsForDays days) = .ok synced ∧ commit zone synced = next ∧
    employment.id = employmentId

theorem checkedTime_ok {time : RequestTime} {read : Timestamp} (checked : checkedTime zone time = .ok read) :
    pragueNow zone time = read := by
  simp only [checkedTime, bind_eq_ok, pure_eq_ok] at checked
  obtain ⟨_, -, same⟩ := checked
  exact same

theorem checkedTime?_ok {time : Option RequestTime} {read : Option Timestamp}
    (checked : checkedTime? zone time = .ok read) : time.map (pragueNow zone) = read := by
  cases time with
  | none =>
    simp only [checkedTime?, pure_eq_ok] at checked
    exact checked
  | some time =>
    simp only [checkedTime?, bind_eq_ok, pure_eq_ok] at checked
    obtain ⟨value, first, rfl⟩ := checked
    rw [Option.map_some, checkedTime_ok first]

theorem offsetTime_ok {time : RequestTime} {read : Timestamp} (checked : offsetTime zone time = .ok read) :
    pragueNow zone time = read := by
  cases time with
  | naive wall => cases checked
  | aware utc => exact checkedTime_ok checked

theorem offsetTime?_ok {time : Option RequestTime} {read : Option Timestamp}
    (checked : offsetTime? zone time = .ok read) : time.map (pragueNow zone) = read := by
  cases time with
  | none =>
    simp only [offsetTime?, pure_eq_ok] at checked
    exact checked
  | some time =>
    simp only [offsetTime?, bind_eq_ok, pure_eq_ok] at checked
    obtain ⟨value, first, rfl⟩ := checked
    rw [Option.map_some, offsetTime_ok first]

/-- The times of a body as the server reads them. -/
def bodyTimes (zone : Zone) (body : AttendanceEventIn) : List Timestamp :=
  pragueNow zone body.occurredAt :: (body.pairedOccurredAt.map (pragueNow zone)).toList

def createdDays (zone : Zone) (db flushed : Db) (employmentId : Int) (body : AttendanceEventIn) : List Int :=
  changedEventDays (intervalSignatures (db.eventsOf employmentId)) (intervalSignatures (flushed.eventsOf employmentId))
    (bodyTimes zone body)

/-- What an accepted create request went through, at any of the three interfaces. -/
structure Creation (zone : Zone) (clock : Clock) (db next : Db) (body : AttendanceEventIn) (employment : Employment)
    (additions : List Timestamp) (flushed synced : Db) : Prop where
  found : db.employments.get body.employmentId = some employment
  active : lockedEmploymentHasActiveUser zone clock db employment
  inside : ¬ outsidePeriod employment (bodyTimes zone body)
  added : eventAdditions zone db employment (pragueNow zone body.occurredAt)
    (body.pairedOccurredAt.map (pragueNow zone)) = .ok additions
  inserted : insertEvents db employment.id additions = some flushed
  free : ¬ daysHaveStatus flushed employment.id (createdDays zone db flushed employment.id body)
  unlocked : ∀ month ∈ monthsForDays (createdDays zone db flushed employment.id body),
    ¬ isMonthLocked flushed .attendance employment.id month
  written : syncEmploymentMetricMonths flushed employment
    (monthsForDays (createdDays zone db flushed employment.id body)) = .ok synced
  committed : commit zone synced = next

theorem portalCreate_ok {auth : PortalUserAuth} {body : AttendanceEventIn}
    (done : Portal.createAttendanceEvent zone clock db auth body = .ok (next, answer)) :
    ∃ employment additions flushed synced, Creation zone clock db next body employment additions flushed synced := by
  simp only [Portal.createAttendanceEvent, bind_eq_ok, raiseIf_eq_ok, require_eq_ok, pure_eq_ok, portalEmployment_eq_ok,
    lockEmploymentForTimeMutation_eq_ok, alternationConflict_eq_ok, ensureMonthsUnlocked_eq_ok, Prod.mk.injEq, not_or,
    not_not] at done
  obtain ⟨-, -, time, first, paired, second, employment, ⟨found, -, -⟩, again, stored, -, active, -, -, -, -, -, inside,
    additions, added, flushed, inserted, -, free, -, unlocked, synced, written, _, -, committed, -⟩ := done
  obtain rfl := checkedTime_ok first
  obtain rfl := checkedTime?_ok second
  obtain rfl : employment = again := Option.some.inj ((employment_again found).1.symm.trans stored)
  exact ⟨employment, additions, flushed, synced, found, active.2, inside, added, inserted, free, unlocked, written, committed⟩

theorem adminCreate_ok {body : AttendanceEventIn} (done : Admin.createEvent zone clock db body = .ok (next, answer)) :
    ∃ employment additions flushed synced, Creation zone clock db next body employment additions flushed synced := by
  simp only [Admin.createEvent, Admin.employmentWithActiveUser, bind_eq_ok, raiseIf_eq_ok, require_eq_ok, pure_eq_ok,
    lockEmploymentForTimeMutation_eq_ok, alternationConflict_eq_ok, ensureMonthsUnlocked_eq_ok, Prod.mk.injEq,
    not_not] at done
  obtain ⟨time, first, paired, second, _, ⟨employment, found, -, -, rfl⟩, again, stored, -, active, -, inside,
    additions, added, flushed, inserted, -, free, -, unlocked, synced, written, _, -, committed, -⟩ := done
  obtain rfl := checkedTime_ok first
  obtain rfl := checkedTime?_ok second
  obtain rfl : employment = again := Option.some.inj ((employment_again found).1.symm.trans stored)
  exact ⟨employment, additions, flushed, synced, found, active, inside, added, inserted, free, unlocked, written, committed⟩

theorem integrationCreate_ok {client : IntegrationClient} {payload : AttendanceEventIn}
    (done : Integration.createAttendanceEvent zone clock db client payload = .ok (next, answer)) :
    ∃ employment additions flushed synced, Creation zone clock db next payload employment additions flushed synced := by
  simp only [Integration.createAttendanceEvent, Integration.activeEmployment, bind_eq_ok, raiseIf_eq_ok, require_eq_ok,
    pure_eq_ok, lockEmploymentForTimeMutation_eq_ok, alternationConflict_eq_ok, ensureMonthsUnlocked_eq_ok, Prod.mk.injEq,
    not_not] at done
  obtain ⟨-, -, time, first, paired, second, -, -, -, -, _, ⟨employment, found, -, -, rfl⟩, again, stored, -, active, -,
    inside, additions, added, flushed, inserted, -, free, -, unlocked, synced, written, _, -, committed, -⟩ := done
  obtain rfl := offsetTime_ok first
  obtain rfl := offsetTime?_ok second
  obtain rfl : employment = again := Option.some.inj ((employment_again found).1.symm.trans stored)
  exact ⟨employment, additions, flushed, synced, found, active, inside, added, inserted, free, unlocked, written, committed⟩

theorem Creation.writes {body : AttendanceEventIn} {employment : Employment} {additions : List Timestamp}
    {flushed synced : Db} (creation : Creation zone clock db next body employment additions flushed synced) :
    createWrites zone db body = additions := by
  simp [createWrites, creation.found, creation.added]

theorem Creation.commits {body : AttendanceEventIn} {employment : Employment} {additions : List Timestamp}
    {flushed synced : Db} (creation : Creation zone clock db next body employment additions flushed synced) :
    EventCommit zone clock db next body.employmentId (createWrites zone db body) := by
  rw [creation.writes]
  exact ⟨employment, flushed, _, synced, createFlush (employment_again creation.found).1 creation.active creation.inside
    creation.added creation.inserted creation.free creation.unlocked, creation.written, creation.committed,
    (employment_again creation.found).2.1⟩

/-- An event that is found by its number is found by its own number. -/
theorem event_again {eventId : Int} {event : AttendanceEvent} (found : db.events.get eventId = some event) :
    db.events.get event.id = some event ∧ event ∈ db.events := by
  obtain ⟨member, same⟩ := Table.get_eq_some_iff.mp found
  exact ⟨same ▸ found, member⟩

theorem portalUpdate_commit {auth : PortalUserAuth} {eventId : Int} {body : AttendanceEventIn}
    (done : Portal.updateAttendanceEvent zone clock db auth eventId body = .ok (next, answer)) :
    ∃ event, db.events.get eventId = some event ∧ EventCommit zone clock db next event.employmentId [pragueNow zone body.occurredAt] := by
  simp only [Portal.updateAttendanceEvent, bind_eq_ok, raiseIf_eq_ok, require_eq_ok, pure_eq_ok, portalEmployment_eq_ok,
    lockEmploymentForTimeMutation_eq_ok, ensureMonthsUnlocked_eq_ok, Prod.mk.injEq, not_or, not_not] at done
  obtain ⟨-, -, time, read, -, -, -, -, event, found, employment, ⟨employed, -, -⟩, again, stored, -, active, -, -, -, -, -,
    inside, flushed, rewritten, -, free, -, unlocked, synced, written, _, -, rfl, -⟩ := done
  obtain ⟨same, owner, -⟩ := employment_again employed
  obtain rfl : employment = again := Option.some.inj (same.symm.trans stored)
  rw [checkedTime_ok read]
  exact ⟨event, found, employment, flushed, _, synced,
    updateFlush stored active.2 (event_again found).1 owner.symm inside rewritten free unlocked, written, rfl, owner⟩

theorem adminUpdate_commit {eventId : Int} {body : AttendanceEventIn}
    (done : Admin.updateEvent zone clock db eventId body = .ok (next, answer)) :
    ∃ event, db.events.get eventId = some event ∧ EventCommit zone clock db next event.employmentId [pragueNow zone body.occurredAt] := by
  simp only [Admin.updateEvent, bind_eq_ok, raiseIf_eq_ok, require_eq_ok, pure_eq_ok, lockEmploymentForTimeMutation_eq_ok,
    ensureMonthsUnlocked_eq_ok, Prod.mk.injEq, not_not] at done
  obtain ⟨time, read, -, -, -, -, event, found, -, -, employment, employed, -, active, -, -, -, inside, flushed, rewritten,
    -, free, -, unlocked, synced, written, _, -, rfl, -⟩ := done
  obtain ⟨stored, owner, -⟩ := employment_again employed
  rw [checkedTime_ok read]
  exact ⟨event, found, employment, flushed, _, synced,
    updateFlush stored active (event_again found).1 owner.symm inside rewritten free unlocked, written, rfl, owner⟩

theorem integrationUpdate_commit {client : IntegrationClient} {eventId : Int} {occurredAt : RequestTime}
    (done : Integration.updateAttendanceEvent zone clock db client eventId occurredAt = .ok (next, answer)) :
    ∃ event, db.events.get eventId = some event ∧ EventCommit zone clock db next event.employmentId [pragueNow zone occurredAt] := by
  simp only [Integration.updateAttendanceEvent, bind_eq_ok, raiseIf_eq_ok, require_eq_ok, pure_eq_ok,
    lockEmploymentForTimeMutation_eq_ok, ensureMonthsUnlocked_eq_ok, Prod.mk.injEq, not_not] at done
  obtain ⟨time, read, -, -, event, found, -, -, employment, employed, -, active, -, -, -, inside, flushed, rewritten,
    -, free, -, unlocked, synced, written, _, -, rfl, -⟩ := done
  obtain ⟨stored, owner, -⟩ := employment_again employed
  rw [offsetTime_ok read]
  exact ⟨event, found, employment, flushed, _, synced,
    updateFlush stored active (event_again found).1 owner.symm inside rewritten free unlocked, written, rfl, owner⟩

/-- The partner a delete request names is one of the events it was looked for among. -/
theorem partner_mem {events : List AttendanceEvent} {pairedEventId : Option Int} :
    ∀ other ∈ pairedEventId.bind fun id => events.find? (·.id = id), other ∈ events := by
  intro other found
  obtain ⟨id, -, found⟩ := Option.bind_eq_some_iff.mp found
  exact List.mem_of_find?_eq_some found

theorem portalDelete_commit {auth : PortalUserAuth} {eventId : Int} {pairedEventId : Option Int}
    (done : Portal.deleteAttendanceEvent zone clock db auth eventId pairedEventId = .ok next) :
    ∃ event, db.events.get eventId = some event ∧ EventCommit zone clock db next event.employmentId [] := by
  simp only [Portal.deleteAttendanceEvent, bind_eq_ok, raiseIf_eq_ok, require_eq_ok, pure_eq_ok, portalEmployment_eq_ok,
    lockEmploymentForTimeMutation_eq_ok, ensureMonthsUnlocked_eq_ok, not_or, not_not] at done
  obtain ⟨event, found, employment, ⟨employed, -, -⟩, again, stored, -, active, -, -, -, unlocked, synced, written, rfl⟩ := done
  obtain ⟨same, owner, -⟩ := employment_again employed
  obtain rfl : employment = again := Option.some.inj (same.symm.trans stored)
  exact ⟨event, found, employment, _, _, synced,
    deleteFlush stored active.2 (event_again found).2 owner.symm partner_mem unlocked, written, rfl, owner⟩

theorem adminDelete_commit {eventId : Int} {pairedEventId : Option Int}
    (done : Admin.deleteEvent zone clock db eventId pairedEventId = .ok next) :
    ∃ event, db.events.get eventId = some event ∧ EventCommit zone clock db next event.employmentId [] := by
  simp only [Admin.deleteEvent, bind_eq_ok, raiseIf_eq_ok, require_eq_ok, pure_eq_ok, lockEmploymentForTimeMutation_eq_ok,
    ensureMonthsUnlocked_eq_ok, not_not] at done
  obtain ⟨event, found, employment, employed, -, active, -, -, -, -, -, unlocked, synced, written, rfl⟩ := done
  obtain ⟨stored, owner, -⟩ := employment_again employed
  exact ⟨event, found, employment, _, _, synced,
    deleteFlush stored active (event_again found).2 owner.symm partner_mem unlocked, written, rfl, owner⟩

theorem integrationDelete_commit {client : IntegrationClient} {eventId : Int} {pairedEventId : Option Int}
    (done : Integration.deleteAttendanceEvent zone clock db client eventId pairedEventId = .ok (next, answer)) :
    ∃ event, db.events.get eventId = some event ∧ EventCommit zone clock db next event.employmentId [] := by
  simp only [Integration.deleteAttendanceEvent, bind_eq_ok, raiseIf_eq_ok, require_eq_ok, pure_eq_ok,
    lockEmploymentForTimeMutation_eq_ok, ensureMonthsUnlocked_eq_ok, Prod.mk.injEq, not_not] at done
  obtain ⟨-, -, event, found, -, -, employment, employed, -, active, -, -, -, -, -, unlocked, synced, written, rfl, -⟩ := done
  obtain ⟨stored, owner, -⟩ := employment_again employed
  exact ⟨event, found, employment, _, _, synced,
    deleteFlush stored active (event_again found).2 owner.symm partner_mem unlocked, written, rfl, owner⟩

/-- The days whose intervals an insertion of pauses changes. -/
def backfilledDays (db flushed : Db) (employmentId : Int) : List Int :=
  changedEventDays (intervalSignatures (db.eventsOf employmentId)) (intervalSignatures (flushed.eventsOf employmentId)) []

/-- What an accepted backfill went through. -/
structure Backfill (zone : Zone) (clock : Clock) (db next : Db) (body : Admin.AddBreaksIn) (counts : Admin.AddBreaksOut)
    (employment : Employment) (start finish : Int) (flushed synced : Db) : Prop where
  bounds : ¬ (body.employmentId < 1 ∨ body.year < 2000 ∨ 2100 < body.year ∨ body.month < 1 ∨ 12 < body.month)
  confirmed : body.confirmed
  found : db.employments.get body.employmentId = some employment
  signedIn : userIsActive db employment
  active : lockedEmploymentHasActiveUser zone clock db employment
  range : monthRange body.year body.month = some (start, finish)
  month : ¬ isMonthLocked db .attendance employment.id (body.year, body.month)
  months : ∀ month ∈ (pauseWalls (missingPauses (db.eventsOf employment.id) start finish)).map
    fun wall => yearMonth (dateOf wall), ¬ isMonthLocked db .attendance employment.id month
  inserted : insertEvents db employment.id
    ((pauseWalls (missingPauses (db.eventsOf employment.id) start finish)).map zone.attach) = some flushed
  free : ¬ daysHaveStatus flushed employment.id (backfilledDays db flushed employment.id)
  unlocked : ∀ month ∈ monthsForDays (backfilledDays db flushed employment.id),
    ¬ isMonthLocked flushed .attendance employment.id month
  written : syncEmploymentMetricMonths flushed employment (monthsForDays (backfilledDays db flushed employment.id)) =
    .ok synced
  committed : commit zone synced = next
  counted : ⟨(missingGroups (db.eventsOf employment.id) start finish).length,
    (missingPauses (db.eventsOf employment.id) start finish).length,
    (pauseWalls (missingPauses (db.eventsOf employment.id) start finish)).length⟩ = counts

theorem addMissingBreaks_eq_ok {body : Admin.AddBreaksIn} {counts : Admin.AddBreaksOut} :
    Admin.addMissingBreaks zone clock db body = .ok (next, counts) ↔
      ∃ employment start finish flushed synced,
        Backfill zone clock db next body counts employment start finish flushed synced := by
  simp only [Admin.addMissingBreaks, Admin.employmentWithActiveUser, bind_eq_ok, raiseIf_eq_ok, require_eq_ok, pure_eq_ok,
    lockEmploymentForTimeMutation_eq_ok, ensureMonthUnlocked_eq_ok, ensureMonthsUnlocked_eq_ok, Prod.mk.injEq, not_not]
  constructor
  · rintro ⟨-, bounds, -, confirmed, _, ⟨employment, found, -, signedIn, rfl⟩, again, stored, -, active, ⟨start, finish⟩, range,
      -, month, -, months, flushed, inserted, -, free, -, unlocked, synced, written, committed, counted⟩
    obtain rfl : employment = again := Option.some.inj ((employment_again found).1.symm.trans stored)
    exact ⟨employment, start, finish, flushed, synced, bounds, confirmed, found, signedIn, active, range, month, months, inserted,
      free, unlocked, written, committed, counted⟩
  · rintro ⟨employment, start, finish, flushed, synced, backfill⟩
    exact ⟨(), backfill.bounds, (), backfill.confirmed, employment, ⟨employment, backfill.found, (), backfill.signedIn, rfl⟩,
      employment, (employment_again backfill.found).1, (), backfill.active, (start, finish), backfill.range, (), backfill.month,
      (), backfill.months, flushed, backfill.inserted, (), backfill.free, (), backfill.unlocked, synced, backfill.written,
      backfill.committed, backfill.counted⟩

theorem addMissingBreaks_commit {body : Admin.AddBreaksIn} {counts : Admin.AddBreaksOut}
    (done : Admin.addMissingBreaks zone clock db body = .ok (next, counts)) :
    EventCommit zone clock db next body.employmentId (breakWrites zone db body) := by
  obtain ⟨employment, start, finish, flushed, synced, backfill⟩ := addMissingBreaks_eq_ok.mp done
  obtain ⟨stored, owner, -⟩ := employment_again backfill.found
  have writes : breakWrites zone db body =
      (pauseWalls (missingPauses (db.eventsOf employment.id) start finish)).map zone.attach := by
    rw [breakWrites, backfill.range, ← owner]
  rw [writes]
  exact ⟨employment, flushed, _, synced,
    breaksFlush stored backfill.active backfill.inserted backfill.free backfill.unlocked, backfill.written, backfill.committed,
    owner⟩

end Requests

end Dagmar.Proofs
