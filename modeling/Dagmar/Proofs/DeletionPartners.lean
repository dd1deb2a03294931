import Dagmar.Proofs.NeighbourDeletion
import Dagmar.Proofs.PlannedTotals

/-! The partners that a month payload names. They are computed among the events of the
month and one event on each side of it, and are the next times of their days. -/

namespace Dagmar.Proofs
open Library Library.Calendar Library.Pairing Integration Payloads

section Window
variable {zone : Zone} {db : Db} {employmentId start finish : Int}

/-- The instants of midnights follow one another. -/
def MidnightsInOrder (zone : Zone) : Prop :=
  ∀ ⦃first last : Int⦄, first ≤ last → zone.toUtc (midnight first) ≤ zone.toUtc (midnight last)

/-- The three parts of the window: before the month, in it and after it. -/
theorem dayEvents_parts (zone : Zone) (db : Db) (employmentId start finish : Int) :
    ∃ previous current following : List AttendanceEvent,
      dayEvents zone db employmentId start finish = previous ++ current ++ following ∧
      (∀ event ∈ previous, event ∈ db.eventsOf employmentId ∧ event.occurredAt.utc < zone.toUtc (midnight start)) ∧
      (∀ event, event ∈ current ↔ event ∈ db.eventsOf employmentId ∧
        zone.toUtc (midnight start) ≤ event.occurredAt.utc ∧ event.occurredAt.utc < zone.toUtc (midnight finish)) ∧
      (∀ event ∈ following, event ∈ db.eventsOf employmentId ∧ zone.toUtc (midnight finish) ≤ event.occurredAt.utc) ∧
      previous.Nodup ∧ current.Nodup ∧ following.Nodup := by
  have stored (event : AttendanceEvent) : event ∈ (db.eventsOf employmentId).insertionSort storedLe ↔
      event ∈ db.eventsOf employmentId := List.mem_insertionSort _
  have single (found : Option AttendanceEvent) : found.toList.Nodup := by
    cases found <;> simp
  refine ⟨_, _, _, rfl, ?_, ?_, ?_, single _, ?_, single _⟩
  · intro event member
    have listed := List.mem_filter.mp (List.mem_of_getLast? (Option.mem_toList.mp member))
    exact ⟨(stored event).mp listed.1, of_decide_eq_true listed.2⟩
  · intro event
    rw [List.mem_filter, stored, decide_eq_true_eq]
  · intro event member
    have listed := List.mem_filter.mp (List.mem_of_head? (Option.mem_toList.mp member))
    exact ⟨(stored event).mp listed.1, of_decide_eq_true listed.2⟩
  · exact ((List.perm_insertionSort _ _).nodup_iff.mpr (numbered_eventsOf db employmentId).1).filter _

theorem dayEvents_numbered (midnights : MidnightsInOrder zone) (below : start ≤ finish) :
    Numbered (dayEvents zone db employmentId start finish) := by
  obtain ⟨previous, current, following, parts, before, within, after, once, once', once''⟩ :=
    dayEvents_parts zone db employmentId start finish
  have order : zone.toUtc (midnight start) ≤ zone.toUtc (midnight finish) := midnights below
  have inside : ∀ event ∈ dayEvents zone db employmentId start finish, event ∈ db.eventsOf employmentId := by
    intro event member
    rw [parts, List.mem_append, List.mem_append] at member
    rcases member with (member | member) | member
    · exact (before event member).1
    · exact ((within event).mp member).1
    · exact (after event member).1
  refine ⟨?_, fun left inLeft right inRight => (numbered_eventsOf db employmentId).2 left (inside left inLeft) right (inside right inRight)⟩
  rw [parts, List.nodup_append, List.nodup_append]
  refine ⟨⟨once, once', ?_⟩, once'', ?_⟩
  · rintro event early other inside rfl
    have first := (before event early).2
    have second := ((within event).mp inside).2.1
    omega
  · rintro event member other late rfl
    have last := (after event late).2
    rcases List.mem_append.mp member with early | inside
    · have first := (before event early).2
      omega
    · have second := ((within event).mp inside).2.2
      omega

/-- The window has all events of a day of the month. -/
theorem dayEvents_day (midnights : MidnightsInOrder zone) (rested : Rested zone db) {date : Int}
    (inside : start ≤ date ∧ date < finish) (event : AttendanceEvent) :
    event ∈ eventsOn (dayEvents zone db employmentId start finish) date ↔ event ∈ eventsOn (db.eventsOf employmentId) date := by
  obtain ⟨previous, current, following, parts, before, within, after, -⟩ := dayEvents_parts zone db employmentId start finish
  rw [mem_eventsOn, mem_eventsOn, parts, List.mem_append, List.mem_append]
  refine and_congr_left fun today => ⟨?_, ?_⟩
  · rintro ((member | member) | member)
    · exact (before event member).1
    · exact ((within event).mp member).1
    · exact (after event member).1
  · intro member
    have settled := rested event (Db.mem_eventsOf.mp member).1
    have bounds := (zone.days event.occurredAt.utc date).mp (by rw [settled]; exact today)
    have first : zone.toUtc (midnight start) ≤ zone.toUtc (midnight date) := midnights inside.1
    have last : zone.toUtc (midnight (date + 1)) ≤ zone.toUtc (midnight finish) :=
      midnights (show date + 1 ≤ finish by omega)
    exact .inl (.inr ((within event).mpr ⟨member, by omega, by omega⟩))

end Window

section Partners
variable {events : List AttendanceEvent} {first second : AttendanceEvent}

/-- The next event of a month is the next one of the day when it is of the same day. -/
theorem follows_iff_next : Follows events first second ↔
    Neighbours wallBefore (orderedEvents events) first second ∧ first.occurredAt.date = second.occurredAt.date := by
  constructor
  · rintro ⟨inFirst, inSecond, below, together⟩
    obtain ⟨member, -⟩ := mem_eventsOn.mp inFirst
    obtain ⟨member', today⟩ := mem_eventsOn.mp inSecond
    refine ⟨⟨mem_orderedEvents.mpr member, mem_orderedEvents.mpr member', below, ?_⟩, today.symm⟩
    intro event listed
    by_cases same : event.occurredAt.date = first.occurredAt.date
    · exact together event (mem_eventsOn.mpr ⟨mem_orderedEvents.mp listed, same⟩)
    · simp only [wallBefore, Timestamp.date, dateOf, day] at same today ⊢
      omega
  · rintro ⟨⟨inFirst, inSecond, below, together⟩, today⟩
    refine ⟨mem_eventsOn.mpr ⟨mem_orderedEvents.mp inFirst, rfl⟩,
      mem_eventsOn.mpr ⟨mem_orderedEvents.mp inSecond, today.symm⟩, below, ?_⟩
    intro event member
    exact together event (mem_orderedEvents.mpr (mem_eventsOn.mp member).1)

theorem mem_deletionPartners (numbered : Numbered events) {id partner : Int} : (id, partner) ∈ deletionPartners events ↔
    ∃ first second, Follows events first second ∧ first.id = id ∧ second.id = partner := by
  have strict := ordered_strict numbered
  simp only [deletionPartners, List.mem_filterMap, Prod.exists, mem_zip_tail strict]
  constructor
  · rintro ⟨first, second, next, found⟩
    split at found
    next today =>
      cases found
      exact ⟨first, second, follows_iff_next.mpr ⟨next, today⟩, rfl, rfl⟩
    next => cases found
  · rintro ⟨first, second, follows, rfl, rfl⟩
    obtain ⟨next, today⟩ := follows_iff_next.mp follows
    exact ⟨first, second, next, if_pos today⟩

theorem lookup_partner (numbered : Numbered events) (member : first ∈ events) {partner : Int} :
    (deletionPartners events).lookup first.id = some partner ↔ ∃ second, Follows events first second ∧ second.id = partner := by
  have only {partner : Int} (listed : (first.id, partner) ∈ deletionPartners events) :
      ∃ second, Follows events first second ∧ second.id = partner := by
    obtain ⟨other, second, follows, same, number⟩ := (mem_deletionPartners numbered).mp listed
    obtain rfl := numbered.2 other (mem_eventsOn.mp follows.inLeft).1 first member same
    exact ⟨second, follows, number⟩
  constructor
  · intro found
    obtain ⟨before, after, split, -⟩ := List.lookup_eq_some_iff.mp found
    exact only (split ▸ List.mem_append_right _ List.mem_cons_self)
  · rintro ⟨second, follows, rfl⟩
    have listed := (mem_deletionPartners numbered).mpr ⟨first, second, follows, rfl, rfl⟩
    have isSome : ((deletionPartners events).lookup first.id).isSome :=
      List.lookup_isSome_iff.mpr ⟨_, listed, beq_self_eq_true _⟩
    obtain ⟨partner, found⟩ := Option.isSome_iff_exists.mp isSome
    obtain ⟨before, after, split, -⟩ := List.lookup_eq_some_iff.mp found
    obtain ⟨other, follows', same⟩ := only (split ▸ List.mem_append_right _ List.mem_cons_self)
    rw [found, ← same, follows.unique follows']

end Partners

section Payload
variable {zone : Zone} {view : View} {employment : Employment} {year : Int} {month : Nat} {payload : AttendanceMonthOut}

/-- A shown event and its partner stand for two times of the day that follow each other; a request that names both
leaves the rest of the events. -/
structure NamedPartner (zone : Zone) (db : Db) (employmentId date id partner : Int) (first second : AttendanceEvent) : Prop where
  inFirst : first ∈ db.eventsOf employmentId
  inSecond : second ∈ db.eventsOf employmentId
  numbers : first.id = id ∧ second.id = partner
  dates : first.occurredAt.date = date ∧ second.occurredAt.date = date
  removed : RemovedLocally (db.eventsOf employmentId) first second
  deleted : ∀ clock auth next, Portal.deleteAttendanceEvent zone clock db auth id (some partner) = .ok next →
    next.eventsOf employmentId = without (db.eventsOf employmentId) [first.id, second.id]

/-- In a month payload every event but the last of its day has a partner, and deleting it with its partner changes
only the intervals of the two. -/
theorem partner_removed_locally (midnights : MidnightsInOrder zone) (rested : Rested zone view.db)
    (distinct : Distinct (view.db.eventsOf employment.id))
    (shown : buildMonth zone view employment year month = some payload) :
    (∃ start finish, monthRange year month = some (start, finish) ∧
      payload.days.map AttendanceDayOut.date = monthDays start finish) ∧
    (∀ day ∈ payload.days, ∀ out ∈ day.events, ∀ partner, out.deletionPartnerId = some partner →
      ∃ first second, NamedPartner zone view.db employment.id day.date out.id partner first second) ∧
    ∀ day ∈ payload.days, ∀ event ∈ eventsOn (view.db.eventsOf employment.id) day.date,
      ∃ out ∈ day.events, out.id = event.id ∧
        ((∃ later ∈ eventsOn (view.db.eventsOf employment.id) day.date, wallBefore event later) →
          out.deletionPartnerId.isSome) := by
  have numbered := numbered_eventsOf view.db employment.id
  obtain ⟨start, finish, range, days, -⟩ := Payloads.Proofs.buildMonth_ok shown
  have window := @dayEvents_numbered zone view.db employment.id start finish midnights (monthRange_lt range).le
  have same {date : Int} (inside : date ∈ monthDays start finish) :=
    @dayEvents_day zone view.db employment.id start finish midnights rested date (mem_monthDays.mp inside)
  have follows {date : Int} (inside : date ∈ monthDays start finish) {first second : AttendanceEvent}
      (today : first.occurredAt.date = date) : Follows (dayEvents zone view.db employment.id start finish) first second ↔
        Follows (view.db.eventsOf employment.id) first second := by
    subst today
    exact neighbours_congr (same inside)
  refine ⟨⟨start, finish, range, ?_⟩, ?_, ?_⟩
  · rw [days, List.map_map]
    exact List.map_id _
  · intro day listed out member partner named
    rw [days] at listed
    obtain ⟨date, inside, rfl⟩ := List.mem_map.mp listed
    obtain ⟨first, shownFirst, rfl⟩ := List.mem_map.mp member
    obtain ⟨inWindow, today⟩ := mem_eventsOn.mp shownFirst
    obtain ⟨second, next, number⟩ := (lookup_partner window inWindow).mp named
    have next := (follows inside today).mp next
    have inSecond := mem_eventsOn.mp next.inRight
    have inFirst := (mem_eventsOn.mp next.inLeft).1
    refine ⟨first, second, inFirst, inSecond.1, ⟨rfl, number⟩, ⟨today, inSecond.2.trans today⟩,
      follows_removed numbered distinct next, ?_⟩
    intro clock auth after done
    obtain ⟨event, paired, deleted⟩ := portalDelete_pair rested done
    obtain ⟨stored, owner⟩ := Db.mem_eventsOf.mp inFirst
    obtain rfl : first = event := Option.some.inj ((Table.get_of_mem stored).symm.trans deleted.found)
    obtain rfl : second = paired :=
      Option.some.inj ((Table.get_of_mem (Db.mem_eventsOf.mp inSecond.1).1).symm.trans (number ▸ deleted.partner))
    rw [← owner]
    exact deleted.events
  · intro day listed event member
    rw [days] at listed
    obtain ⟨date, inside, rfl⟩ := List.mem_map.mp listed
    have shownEvent := (same inside event).mpr member
    obtain ⟨inWindow, today⟩ := mem_eventsOn.mp shownEvent
    refine ⟨_, List.mem_map_of_mem shownEvent, rfl, ?_⟩
    rintro ⟨later, inLater, below⟩
    have ordered {event : AttendanceEvent} (member : event ∈ eventsOn (view.db.eventsOf employment.id) date) :
        event ∈ timesOn (view.db.eventsOf employment.id) date := mem_timesOn.mpr (mem_eventsOn.mp member)
    obtain ⟨second, next⟩ := exists_neighbour (timesOn_strict numbered) (ordered member) (ordered inLater) below
    have next := (follows inside today).mpr (follows_iff.mpr (today.symm ▸ next))
    exact Option.isSome_iff_exists.mpr ⟨second.id, (lookup_partner window inWindow).mpr ⟨second, next, rfl⟩⟩

theorem sampleZone_midnights : MidnightsInOrder sampleZone := by
  intro left right below
  have change : march2026 = 739704 * day + 60 * minute := by decide
  simp only [sampleZone, pragueSpring, springUtc, change, midnight, minute, day]
  split_ifs <;> omega

theorem sample_partner_removed_locally : ∃ payload,
    buildMonth sampleZone ⟨sampleClock, threeShiftsDb, ⟨fun _ => "", fun _ => "", fun _ => 0⟩⟩ sampleEmployment 2026 8 = some payload ∧
      ∀ day ∈ payload.days, ∀ out ∈ day.events, ∀ partner, out.deletionPartnerId = some partner →
        ∃ first second, NamedPartner sampleZone threeShiftsDb 1 day.date out.id partner first second := by
  have built : (buildMonth sampleZone ⟨sampleClock, threeShiftsDb, ⟨fun _ => "", fun _ => "", fun _ => 0⟩⟩ sampleEmployment 2026 8).isSome :=
    by decide +kernel
  obtain ⟨payload, shown⟩ := Option.isSome_iff_exists.mp built
  exact ⟨payload, shown, (partner_removed_locally sampleZone_midnights (fun event member => by revert event; decide +kernel)
    (by decide +kernel) shown).2.1⟩

end Payload

end Dagmar.Proofs
