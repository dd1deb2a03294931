import Dagmar.MonthPayloads
import Dagmar.Proofs.Backfilling
import Dagmar.Proofs.RealTime

/-! Deleting a time of a day together with another one. The partner that a month
names is the next time of the day, and taking two times that follow each other
leaves all other intervals; other times leave an interval out of step exactly when
one of the two stands before it and the other does not. -/

namespace Dagmar.Proofs
open Library Library.Calendar Library.Outcome Library.Pairing Payloads

section Days

/-- The times of a day, in order. -/
def timesOn (events : List AttendanceEvent) (date : Int) : List AttendanceEvent := orderedEvents (eventsOn events date)

/-- The second time is the next one of the day of the first. -/
def Follows (events : List AttendanceEvent) (first second : AttendanceEvent) : Prop :=
  Neighbours wallBefore (eventsOn events first.occurredAt.date) first second

/-- The events that a delete request leaves. -/
def without (events : List AttendanceEvent) (ids : List Int) : List AttendanceEvent := events.filter (·.id ∉ ids)

variable {events : List AttendanceEvent} {date : Int} {first second : AttendanceEvent}

@[simp] theorem mem_timesOn {event : AttendanceEvent} :
    event ∈ timesOn events date ↔ event ∈ events ∧ event.occurredAt.date = date := by
  rw [timesOn, mem_orderedEvents, mem_eventsOn]

theorem timesOn_nodup (numbered : Numbered events) : (timesOn events date).Nodup :=
  (List.perm_insertionSort _ _).nodup_iff.mpr (numbered.eventsOn date).1

theorem timesOn_strict (numbered : Numbered events) : (timesOn events date).Pairwise wallBefore := day_strict numbered

theorem timesOn_without (events : List AttendanceEvent) (ids : List Int) (date : Int) :
    timesOn (without events ids) date = (timesOn events date).filter (·.id ∉ ids) := by
  simp only [timesOn, orderedEvents, filter_insertionSort, eventsOn, without, List.filter_filter]
  congr 1
  exact List.filter_congr fun event _ => Bool.and_comm _ _

/-- Neighbours are a matter of which entries there are. -/
theorem neighbours_congr {α : Type} {s : α → α → Prop} {items others : List α} (same : ∀ item, item ∈ items ↔ item ∈ others)
    {left right : α} : Neighbours s items left right ↔ Neighbours s others left right := by
  constructor
  · rintro ⟨inLeft, inRight, below, together⟩
    exact ⟨(same left).mp inLeft, (same right).mp inRight, below, fun item inside => together item ((same item).mpr inside)⟩
  · rintro ⟨inLeft, inRight, below, together⟩
    exact ⟨(same left).mpr inLeft, (same right).mpr inRight, below, fun item inside => together item ((same item).mp inside)⟩

theorem follows_iff : Follows events first second ↔ Neighbours wallBefore (timesOn events first.occurredAt.date) first second :=
  neighbours_congr fun _ => mem_orderedEvents.symm

/-- The two times of an interval are apart, by less than a day. -/
def Timed (pair : AttendanceEvent × AttendanceEvent) : Prop :=
  0 < pair.2.occurredAt.wall - pair.1.occurredAt.wall ∧ pair.2.occurredAt.wall - pair.1.occurredAt.wall < day

theorem mem_rows {pair : AttendanceEvent × AttendanceEvent} :
    pair ∈ pairEventRows events ↔ pair ∈ pairUp (timesOn events pair.1.occurredAt.date) ∧ Timed pair := by
  have listed (date : Int) : pair ∈ dayPairs (timesOn events date) ↔ pair ∈ pairUp (timesOn events date) ∧ Timed pair := by
    rw [dayPairs, List.mem_filter, decide_eq_true_eq, Timed]
  rw [mem_pairEventRows]
  constructor
  · rintro ⟨date, member⟩
    have today := (mem_timesOn.mp (mem_dayPairs member).1).2
    exact today ▸ (listed date).mp member
  · intro member
    exact ⟨_, (listed _).mpr member⟩

/-- With distinct times no pair is too short to count. -/
theorem timed_of_distinct (numbered : Numbered events) (distinct : Distinct events) {pair : AttendanceEvent × AttendanceEvent}
    (member : pair ∈ pairUp (timesOn events date)) : Timed pair := by
  obtain ⟨inFirst, inSecond, below, -, -⟩ := (mem_pairUp_strict (timesOn_strict numbered)).mp member
  have first := (mem_timesOn.mp inFirst).1
  have second := (mem_timesOn.mp inSecond).1
  have apart : pair.1.occurredAt.wall ≠ pair.2.occurredAt.wall := by
    intro same
    have equal : pair.1 = pair.2 := List.inj_on_of_nodup_map distinct first second same
    rw [equal] at below
    exact Std.Asymm.asymm _ _ below below
  have forward : pair.1.occurredAt.wall < pair.2.occurredAt.wall := by
    simp only [wallBefore] at below
    omega
  have counted := (mem_dayPairs_iff (ordered_today events date)).mpr ⟨member, forward⟩
  simpa [Timed] using (List.mem_filter.mp counted).2

theorem mem_rows_distinct (numbered : Numbered events) (distinct : Distinct events) {pair : AttendanceEvent × AttendanceEvent} :
    pair ∈ pairEventRows events ↔ pair ∈ pairUp (timesOn events pair.1.occurredAt.date) :=
  mem_rows.trans ⟨And.left, fun member => ⟨member, timed_of_distinct numbered distinct member⟩⟩

theorem Numbered.without (numbered : Numbered events) (ids : List Int) : Numbered (without events ids) := numbered.filter _

theorem Distinct.without (distinct : Distinct events) (ids : List Int) : Distinct (without events ids) :=
  (List.filter_sublist.map _).nodup distinct

/-- An interval that a deletion spares outlives it exactly when an even number of the deleted times stands before it. -/
theorem row_kept_iff (numbered : Numbered events) {ids : List Int} {pair : AttendanceEvent × AttendanceEvent}
    (member : pair ∈ pairEventRows events) (spared : pair.1.id ∉ ids ∧ pair.2.id ∉ ids) :
    pair ∈ pairEventRows (without events ids) ↔
      (eventsOn events pair.1.occurredAt.date).countP (fun event => wallBefore event pair.1 ∧ event.id ∈ ids) % 2 = 0 := by
  obtain ⟨paired, timed⟩ := mem_rows.mp member
  have count : (timesOn events pair.1.occurredAt.date).countP (fun event => decide (wallBefore event pair.1) && !decide (event.id ∉ ids)) =
      (eventsOn events pair.1.occurredAt.date).countP (fun event => wallBefore event pair.1 ∧ event.id ∈ ids) := by
    rw [timesOn, orderedEvents, (List.perm_insertionSort _ _).countP_eq]
    exact List.countP_congr fun event _ => by simp
  rw [mem_rows, and_iff_left timed, timesOn_without,
    mem_pairUp_filter (timesOn_strict numbered) _ paired ⟨decide_eq_true spared.1, decide_eq_true spared.2⟩, count]

end Days

section Neighbouring
variable {events : List AttendanceEvent} {first second : AttendanceEvent}

/-- What deleting two times that follow each other does to the intervals. -/
structure RemovedLocally (events : List AttendanceEvent) (first second : AttendanceEvent) : Prop where
  otherDays : ∀ date, date ≠ first.occurredAt.date →
    (pairEventRows (without events [first.id, second.id])).filter (·.1.occurredAt.date = date) =
      (pairEventRows events).filter (·.1.occurredAt.date = date)
  rows : ∀ pair, pair ∈ pairEventRows (without events [first.id, second.id]) ↔
    (pair ∈ pairEventRows events ∧ pair.1 ≠ first ∧ pair.1 ≠ second ∧ pair.2 ≠ first ∧ pair.2 ≠ second) ∨
      ((pair.1, first) ∈ pairEventRows events ∧ (second, pair.2) ∈ pairEventRows events)
  started : ∀ other, (first, other) ∈ pairEventRows events → other = second ∧
    ∀ pair, pair ∈ pairEventRows (without events [first.id, second.id]) ↔ pair ∈ pairEventRows events ∧ pair ≠ (first, second)

theorem removed_iff (numbered : Numbered events) (inFirst : first ∈ events) (inSecond : second ∈ events)
    {event : AttendanceEvent} (member : event ∈ events) : event.id ∉ [first.id, second.id] ↔ event ≠ first ∧ event ≠ second := by
  simp only [List.mem_cons, List.not_mem_nil, or_false, not_or]
  exact and_congr (not_congr ⟨numbered.2 _ member _ inFirst, congrArg _⟩) (not_congr ⟨numbered.2 _ member _ inSecond, congrArg _⟩)

/-- Two times that follow each other are taken out of the middle of their day. -/
theorem follows_split (numbered : Numbered events) (follows : Follows events first second) :
    ∃ front back, timesOn events first.occurredAt.date = front ++ first :: second :: back ∧
      timesOn (without events [first.id, second.id]) first.occurredAt.date = front ++ back ∧
      ∀ date, date ≠ first.occurredAt.date → timesOn (without events [first.id, second.id]) date = timesOn events date := by
  have inFirst := (mem_eventsOn.mp follows.inLeft).1
  obtain ⟨inSecond, today⟩ := mem_eventsOn.mp follows.inRight
  obtain ⟨front, back, order⟩ := (follows_iff.mp follows).append (timesOn_strict numbered)
  refine ⟨front, back, order, ?_, ?_⟩
  · rw [timesOn_without, order]
    refine filter_removed (order ▸ timesOn_nodup numbered) fun event inside => ?_
    rw [decide_eq_true_eq]
    exact removed_iff numbered inFirst inSecond (mem_timesOn.mp (order ▸ inside)).1
  · intro date other
    rw [timesOn_without]
    refine List.filter_eq_self.mpr fun event inside => decide_eq_true ?_
    obtain ⟨member, when⟩ := mem_timesOn.mp inside
    refine (removed_iff numbered inFirst inSecond member).mpr ⟨?_, ?_⟩
    · rintro rfl
      exact other when.symm
    · rintro rfl
      exact other (when.symm.trans today)

theorem follows_removed (numbered : Numbered events) (distinct : Distinct events) (follows : Follows events first second) :
    RemovedLocally events first second := by
  have today := (mem_eventsOn.mp follows.inRight).2
  obtain ⟨front, back, order, left, elsewhere⟩ := follows_split numbered follows
  have nodup : (front ++ first :: second :: back).Nodup := order ▸ timesOn_nodup numbered
  have rows (pair : AttendanceEvent × AttendanceEvent) : pair ∈ pairEventRows (without events [first.id, second.id]) ↔
      (pair ∈ pairEventRows events ∧ pair.1 ≠ first ∧ pair.1 ≠ second ∧ pair.2 ≠ first ∧ pair.2 ≠ second) ∨
        ((pair.1, first) ∈ pairEventRows events ∧ (second, pair.2) ∈ pairEventRows events) := by
    rw [mem_rows_distinct (numbered.without _) (distinct.without _), mem_rows_distinct numbered distinct,
      mem_rows_distinct numbered distinct, mem_rows_distinct numbered distinct]
    by_cases same : pair.1.occurredAt.date = first.occurredAt.date
    · rw [same, today, left, order]
      exact mem_pairUp_removed nodup
    · rw [elsewhere _ same]
      constructor
      · intro member
        have inside := mem_of_mem_pairUp member
        simp only [mem_timesOn] at inside
        refine .inl ⟨member, ?_, ?_, ?_, ?_⟩
        · rintro rfl
          exact same rfl
        · rintro rfl
          exact same today
        · rintro rfl
          exact same inside.2.2.symm
        · rintro rfl
          exact same (inside.2.2.symm.trans today)
      · rintro (⟨member, -⟩ | ⟨joined, -⟩)
        · exact member
        · exact absurd (mem_timesOn.mp (mem_of_mem_pairUp joined).2).2.symm same
  refine ⟨?_, rows, ?_⟩
  · intro date other
    rw [pairEventRows_day, pairEventRows_day]
    exact congrArg dayPairs (elsewhere date other)
  · intro other started
    -- A time is in one pair, so the pair it starts is the one with the next time.
    have once := @timesOn_nodup _ first.occurredAt.date numbered
    have paired := (mem_rows_distinct numbered distinct).mp started
    obtain ⟨-, inOther, below, together, even⟩ := (mem_pairUp_strict (timesOn_strict numbered)).mp paired
    have next : other = second := Neighbours.unique ⟨(mem_pairUp_strict (timesOn_strict numbered)).mp paired |>.1, inOther, below, together⟩
      (follows_iff.mp follows)
    subst next
    have alone (pair : AttendanceEvent × AttendanceEvent) (member : pair ∈ pairEventRows events)
        (shared : pair.1 = first ∨ pair.1 = other ∨ pair.2 = first ∨ pair.2 = other) : pair = (first, other) := by
      have same : pair.1.occurredAt.date = first.occurredAt.date := by
        have ends := (pair_sameDay member).2.2.2
        rcases shared with same | same | same | same
        · rw [same]
        · rw [same, today]
        · rw [ends, same]
        · rw [ends, same, today]
      exact pairUp_shared once (same ▸ (mem_rows_distinct numbered distinct).mp member) paired shared
    refine ⟨rfl, fun pair => (rows pair).trans ⟨?_, ?_⟩⟩
    · rintro (⟨member, spared, -⟩ | ⟨joined, -⟩)
      · refine ⟨member, ?_⟩
        rintro rfl
        exact spared rfl
      · have both := alone _ joined (.inr (.inr (.inl rfl)))
        injection both with _ same
        exact absurd (same ▸ below) (Std.Asymm.asymm _ _ (same ▸ below))
    · rintro ⟨member, different⟩
      have untouched := mt (alone pair member) different
      simp only [not_or] at untouched
      exact .inl ⟨member, untouched⟩

/-- Two times of one day with nothing between them. -/
def NextTo (events : List AttendanceEvent) (left right : AttendanceEvent) : Prop :=
  Follows events left right ∨ Follows events right left

/-- Every interval without a deleted time is there afterwards. -/
def IntervalsKept (before after : List AttendanceEvent) (left right : AttendanceEvent) : Prop :=
  ∀ pair ∈ pairEventRows before, pair.1.id ∉ [left.id, right.id] → pair.2.id ∉ [left.id, right.id] → pair ∈ pairEventRows after

theorem follows_keeps (numbered : Numbered events) (follows : Follows events first second) :
    IntervalsKept events (without events [first.id, second.id]) first second := by
  intro pair member spared spared'
  obtain ⟨front, back, order, left, elsewhere⟩ := follows_split numbered follows
  obtain ⟨paired, timed⟩ := mem_rows.mp member
  refine mem_rows.mpr ⟨?_, timed⟩
  by_cases same : pair.1.occurredAt.date = first.occurredAt.date
  · rw [same, order] at paired
    rw [same, left]
    refine (mem_pairUp_removed (order ▸ timesOn_nodup numbered)).mpr (.inl ⟨paired, ?_, ?_, ?_, ?_⟩)
    · rintro rfl
      exact spared List.mem_cons_self
    · rintro rfl
      exact spared (by simp)
    · rintro rfl
      exact spared' List.mem_cons_self
    · rintro rfl
      exact spared' (by simp)
  · rw [elsewhere _ same]
    exact paired

theorem nextTo_keeps (numbered : Numbered events) {left right : AttendanceEvent} (nextTo : NextTo events left right) :
    IntervalsKept events (without events [left.id, right.id]) left right := by
  rcases nextTo with follows | follows
  · exact follows_keeps numbered follows
  · have swapped : without events [left.id, right.id] = without events [right.id, left.id] :=
      List.filter_congr fun event _ => by simp [and_comm]
    intro pair member spared spared'
    rw [swapped]
    exact follows_keeps numbered follows pair member (by simpa [and_comm] using spared) (by simpa [and_comm] using spared')

end Neighbouring

section Requests
variable {zone : Zone} {clock : Clock} {db next : Db}

/-- What is left of the events after a delete request was synced and committed. -/
theorem deleted_events (rested : Rested zone db) {employment : Employment} {ids : List Int} {months : List (Int × Nat)}
    {synced : Db} (written : syncEmploymentMetricMonths
      { db with events := db.events.deleteWhere fun other => other.employmentId = employment.id ∧ other.id ∈ ids }
      employment months = .ok synced) :
    (commit zone synced).eventsOf employment.id = without (db.eventsOf employment.id) ids := by
  obtain ⟨-, frame, -⟩ := syncMonths_ok written
  have still : Rested zone synced := by
    rw [frame]
    exact fun event member => rested event (Table.mem_deleteWhere.mp member).1
  rw [commit_of_rested still, frame]
  simp only [Db.eventsOf, Table.select, Table.deleteWhere, without, List.filter_filter]
  refine List.filter_congr fun event _ => ?_
  by_cases owner : event.employmentId = employment.id <;> simp [owner]

/-- The two times a delete request takes away. -/
structure PairDeleted (db next : Db) (eventId pairedEventId : Int) (event paired : AttendanceEvent) : Prop where
  found : db.events.get eventId = some event
  partner : db.events.get pairedEventId = some paired
  owner : paired.employmentId = event.employmentId
  different : paired ≠ event
  events : next.eventsOf event.employmentId = without (db.eventsOf event.employmentId) [event.id, paired.id]

theorem pairDeleted {employment : Employment} {event : AttendanceEvent} {named : Option AttendanceEvent}
    {eventId pairedEventId : Int} {months : List (Int × Nat)} {synced : Db} (rested : Rested zone db)
    (found : db.events.get eventId = some event) (owner : employment.id = event.employmentId)
    (chosen : named = (db.eventsOf employment.id).find? (·.id = pairedEventId))
    (allowed : ¬ (some pairedEventId ≠ none ∧ ∀ other ∈ named, other.employmentId ≠ employment.id ∨ other.id = event.id))
    (written : syncEmploymentMetricMonths
      { db with events := db.events.deleteWhere fun other => other.employmentId = employment.id ∧
        other.id ∈ (event :: named.toList).map AttendanceEvent.id } employment months = .ok synced) :
    ∃ paired, PairDeleted db (commit zone synced) eventId pairedEventId event paired := by
  cases named with
  | none => exact absurd ⟨by simp, by simp⟩ allowed
  | some paired =>
    obtain ⟨member, owned⟩ := Db.mem_eventsOf.mp (List.mem_of_find?_eq_some chosen.symm)
    have number : paired.id = pairedEventId := by
      have chosen := List.find?_some chosen.symm
      simpa using chosen
    have events := deleted_events rested written
    rw [owner] at events owned
    refine ⟨paired, found, Table.get_eq_some_iff.mpr ⟨member, number⟩, owned, ?_, events⟩
    rintro rfl
    exact allowed ⟨by simp, by simp⟩

theorem portalDelete_pair {auth : PortalUserAuth} {eventId pairedEventId : Int} (rested : Rested zone db)
    (done : Portal.deleteAttendanceEvent zone clock db auth eventId (some pairedEventId) = .ok next) :
    ∃ event paired, PairDeleted db next eventId pairedEventId event paired := by
  simp only [Portal.deleteAttendanceEvent, bind_eq_ok, raiseIf_eq_ok, require_eq_ok, pure_eq_ok, portalEmployment_eq_ok,
    lockEmploymentForTimeMutation_eq_ok, ensureMonthsUnlocked_eq_ok] at done
  obtain ⟨event, found, _, ⟨employed, -, -⟩, employment, stored, -, -, -, allowed, -, -, synced, written, rfl⟩ := done
  obtain ⟨same, owner, -⟩ := employment_again employed
  obtain rfl := Option.some.inj (same.symm.trans stored)
  exact ⟨event, pairDeleted rested found owner rfl allowed written⟩

theorem integrationDelete_pair {client : IntegrationClient} {eventId pairedEventId : Int} {answer : AttendanceEvent}
    (rested : Rested zone db)
    (done : Integration.deleteAttendanceEvent zone clock db client eventId (some pairedEventId) = .ok (next, answer)) :
    ∃ event paired, PairDeleted db next eventId pairedEventId event paired := by
  simp only [Integration.deleteAttendanceEvent, bind_eq_ok, raiseIf_eq_ok, require_eq_ok, pure_eq_ok,
    lockEmploymentForTimeMutation_eq_ok, ensureMonthsUnlocked_eq_ok, Prod.mk.injEq] at done
  obtain ⟨-, -, event, found, -, -, employment, employed, -, -, -, -, -, allowed, -, -, synced, written, rfl, -⟩ := done
  exact ⟨event, pairDeleted rested found (employment_again employed).2.1 rfl allowed written⟩

/-- A delete request of the integration meets its contract exactly when the two times are next to each other. The
intervals alone are kept exactly when both deleted times, or neither of them, come before each of them on its day. -/
theorem paired_delete_keeps {client : IntegrationClient} {eventId pairedEventId : Int} {answer : AttendanceEvent}
    (rested : Rested zone db)
    (done : Integration.deleteAttendanceEvent zone clock db client eventId (some pairedEventId) = .ok (next, answer)) :
    ∃ event paired, PairDeleted db next eventId pairedEventId event paired ∧
      (NextTo (db.eventsOf event.employmentId) event paired ∧
          IntervalsKept (db.eventsOf event.employmentId) (next.eventsOf event.employmentId) event paired ↔
        NextTo (db.eventsOf event.employmentId) event paired) ∧
      (IntervalsKept (db.eventsOf event.employmentId) (next.eventsOf event.employmentId) event paired ↔
        ∀ pair ∈ pairEventRows (db.eventsOf event.employmentId),
          pair.1.id ∉ [event.id, paired.id] → pair.2.id ∉ [event.id, paired.id] →
          (eventsOn (db.eventsOf event.employmentId) pair.1.occurredAt.date).countP
            (fun other => wallBefore other pair.1 ∧ other.id ∈ [event.id, paired.id]) % 2 = 0) := by
  obtain ⟨event, paired, deleted⟩ := integrationDelete_pair rested done
  have numbered := numbered_eventsOf db event.employmentId
  refine ⟨event, paired, deleted, ?_⟩
  rw [deleted.events]
  refine ⟨?_, ?_⟩
  · exact and_iff_left_of_imp (nextTo_keeps numbered)
  · constructor
    · intro kept pair member spared spared'
      exact (row_kept_iff numbered member ⟨spared, spared'⟩).mp (kept pair member spared spared')
    · intro even pair member spared spared'
      exact (row_kept_iff numbered member ⟨spared, spared'⟩).mpr (even pair member spared spared')

def deletingClient : IntegrationClient := ⟨[.attendanceDelete], .allEmployments, [], [], false⟩

/-- Work from eight to ten, from eleven to noon and from one to two. -/
def threeShiftsDb : Db := { sampleDb with events := ⟨storedDay [480, 600, 660, 720, 780, 840], by decide⟩, nextEventId := 7 }

/-- Deleting eight and two together is accepted, and the work from eleven to noon is lost. -/
theorem outer_times_deleted : ∃ next answer event paired,
    Integration.deleteAttendanceEvent sampleZone sampleClock threeShiftsDb deletingClient 1 (some 6) = .ok (next, answer) ∧
      threeShiftsDb.events.get 1 = some event ∧ threeShiftsDb.events.get 6 = some paired ∧
      ¬ NextTo (threeShiftsDb.eventsOf 1) event paired ∧
      ¬ IntervalsKept (threeShiftsDb.eventsOf 1) (next.eventsOf 1) event paired := by
  have outcome : ((Integration.deleteAttendanceEvent sampleZone sampleClock threeShiftsDb deletingClient 1 (some 6)).toOption.map
      fun answer => (pairEventRows (answer.1.eventsOf 1)).map fun pair => (pair.1.id, pair.2.id)) =
        some [(2, 3), (4, 5)] := by decide +kernel
  obtain ⟨⟨next, answer⟩, done, rows⟩ := Option.map_eq_some_iff.mp outcome
  have done := toOption_eq_some.mp done
  have rested : Rested sampleZone threeShiftsDb := fun event member => by revert event; decide +kernel
  obtain ⟨event, paired, deleted⟩ := integrationDelete_pair rested done
  have first := (Table.get_eq_some_iff.mp deleted.found).2
  have second := (Table.get_eq_some_iff.mp deleted.partner).2
  have owner : event.employmentId = 1 := by
    have all : ∀ event ∈ threeShiftsDb.events, event.employmentId = 1 := by decide +kernel
    exact all event (Table.get_eq_some_iff.mp deleted.found).1
  have lost : ¬ IntervalsKept (threeShiftsDb.eventsOf 1) (next.eventsOf 1) event paired := by
    intro kept
    have work : ∃ pair ∈ pairEventRows (threeShiftsDb.eventsOf 1), pair.1.id = 3 ∧ pair.2.id = 4 := by decide +kernel
    obtain ⟨pair, member, third, fourth⟩ := work
    have listed := List.mem_map_of_mem (f := fun pair : AttendanceEvent × AttendanceEvent => (pair.1.id, pair.2.id))
      (kept pair member (by simp [first, second, third]) (by simp [first, second, fourth]))
    rw [rows, third, fourth] at listed
    simp at listed
  refine ⟨next, answer, event, paired, done, deleted.found, deleted.partner, fun nextTo => lost ?_, lost⟩
  have events := deleted.events
  rw [owner] at events
  rw [events]
  exact nextTo_keeps (numbered_eventsOf _ _) nextTo

/-- Deleting ten and eleven together leaves the other work as it was. -/
theorem sample_paired_delete_keeps : ∃ next answer event paired,
    Integration.deleteAttendanceEvent sampleZone sampleClock threeShiftsDb deletingClient 2 (some 3) = .ok (next, answer) ∧
      PairDeleted threeShiftsDb next 2 3 event paired ∧
      (NextTo (threeShiftsDb.eventsOf event.employmentId) event paired ∧
          IntervalsKept (threeShiftsDb.eventsOf event.employmentId) (next.eventsOf event.employmentId) event paired ↔
        NextTo (threeShiftsDb.eventsOf event.employmentId) event paired) := by
  have accepted : (Integration.deleteAttendanceEvent sampleZone sampleClock threeShiftsDb deletingClient 2 (some 3)).toOption.isSome =
      true := by decide +kernel
  obtain ⟨⟨next, answer⟩, done⟩ := Option.isSome_iff_exists.mp accepted
  have done := toOption_eq_some.mp done
  obtain ⟨event, paired, deleted, contract, -⟩ :=
    paired_delete_keeps (fun event member => by revert event; decide +kernel) done
  exact ⟨next, answer, event, paired, done, deleted, contract⟩

end Requests

end Dagmar.Proofs
