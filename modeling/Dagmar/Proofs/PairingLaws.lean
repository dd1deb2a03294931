import Dagmar.Proofs.Sessions

/-! The laws of pairing, for events at distinct wall times. The order in which events are
given does not matter, each event has at most one partner, on its own day, and what
happens on one day leaves the pairs of the others as they are. -/

namespace Dagmar.Proofs
open Library.Pairing

section Laws
variable {events : List AttendanceEvent}

/-- The events of the pairs, one after another. -/
def pairedEvents (events : List AttendanceEvent) : List AttendanceEvent :=
  (pairEventRows events).flatMap fun pair => [pair.1, pair.2]

/-- The pairs of a day. -/
def pairsOn (events : List AttendanceEvent) (date : Int) : List (AttendanceEvent × AttendanceEvent) :=
  (pairEventRows events).filter (·.1.occurredAt.date = date)

/-- The event is the latest one of its day. -/
def LastOfDay (events : List AttendanceEvent) (event : AttendanceEvent) : Prop :=
  ∀ other ∈ eventsOn events event.occurredAt.date, other.occurredAt.wall ≤ event.occurredAt.wall

theorem Distinct.perm {other : List AttendanceEvent} (distinct : Distinct events) (perm : other.Perm events) : Distinct other :=
  (perm.map _).nodup_iff.mpr distinct

theorem Distinct.eventsOn (distinct : Distinct events) (date : Int) : Distinct (eventsOn events date) :=
  (List.filter_sublist.map _).nodup distinct

theorem Distinct.same {left right : AttendanceEvent} (distinct : Distinct events) (inLeft : left ∈ events) (inRight : right ∈ events)
    (walls : left.occurredAt.wall = right.occurredAt.wall) : left = right := List.inj_on_of_nodup_map distinct inLeft inRight walls

/-- Sorting forgets the order in which the events are given. -/
theorem orderedEvents_perm {other : List AttendanceEvent} (distinct : Distinct events) (perm : other.Perm events) :
    orderedEvents other = orderedEvents events := by
  apply insertionSort_congr eventLe
  · exact (distinct.perm perm).of_map
  · exact distinct.of_map
  · exact fun event => perm.mem_iff
  · intro left inLeft right inRight below above
    apply (distinct.perm perm).same inLeft inRight
    simp only [eventLe] at below above
    omega

theorem orderedEvents_ascending (distinct : Distinct events) :
    (orderedEvents events).Pairwise fun left right => left.occurredAt.wall < right.occurredAt.wall := by
  have sorted : (orderedEvents events).Pairwise eventLe := List.pairwise_insertionSort _ _
  have apart : (orderedEvents events).Pairwise fun left right => left.occurredAt.wall ≠ right.occurredAt.wall :=
    List.pairwise_map.mp (distinct.perm (List.perm_insertionSort _ _))
  refine (sorted.and apart).imp ?_
  intro left right both
  obtain ⟨below, different⟩ := both
  simp only [eventLe] at below
  omega

/-- An event without a partner is the last one of an odd number. -/
theorem unpaired_iff (distinct : Distinct events) {event : AttendanceEvent} (member : event ∈ events) :
    event ∉ pairedEvents events ↔
      (eventsOn events event.occurredAt.date).length % 2 = 1 ∧ LastOfDay events event := by
  have today : event ∈ orderedEvents (eventsOn events event.occurredAt.date) :=
    mem_orderedEvents.mpr (mem_eventsOn.mpr ⟨member, rfl⟩)
  have ascending := orderedEvents_ascending (distinct.eventsOn event.occurredAt.date)
  have distinctOrder : (orderedEvents (eventsOn events event.occurredAt.date)).Nodup :=
    ((distinct.eventsOn _).perm (List.perm_insertionSort _ _)).of_map
  have paired : event ∈ pairedEvents events ↔
      ∃ pair ∈ pairUp (orderedEvents (eventsOn events event.occurredAt.date)), event = pair.1 ∨ event = pair.2 := by
    simp only [pairedEvents, List.mem_flatMap, List.mem_cons, List.not_mem_nil, or_false]
    refine exists_congr fun pair => and_congr_left fun either => ?_
    rw [← dayPairs_distinct distinct, ← pairEventRows_day, List.mem_filter, decide_eq_true_eq]
    refine ⟨fun listed => ⟨listed, ?_⟩, And.left⟩
    rcases either with same | same
    · rw [same]
    · rw [same]
      exact (pair_sameDay listed).2.2.2
  have length : (orderedEvents (eventsOn events event.occurredAt.date)).length =
      (eventsOn events event.occurredAt.date).length := (List.perm_insertionSort _ _).length_eq
  have latest : (orderedEvents (eventsOn events event.occurredAt.date)).getLast? = some event ↔ LastOfDay events event := by
    rw [getLast?_greatest ascending today]
    simp only [mem_orderedEvents]
    rfl
  rw [paired, pairUp_covers distinctOrder today, not_not, length, latest]

/-- Pairs that follow one another share no event. -/
theorem pairedEvents_nodup (distinct : Distinct events) : (pairedEvents events).Nodup := by
  rw [pairedEvents, List.nodup_flatMap]
  constructor
  · intro pair member
    have below := (pair_sameDay member).2.2.1
    rw [List.nodup_cons]
    refine ⟨?_, List.nodup_singleton _⟩
    intro same
    rw [← List.mem_singleton.mp same] at below
    exact lt_irrefl _ below
  · have follow := List.pairwise_map.mp (pairEvents_apart distinct).2
    refine (List.Pairwise.and_mem.mp follow).imp ?_
    intro left right both event inLeft inRight
    obtain ⟨listed, listed', before⟩ := both
    have below := (pair_sameDay listed).2.2.1
    have below' := (pair_sameDay listed').2.2.1
    simp only [List.mem_cons, List.not_mem_nil, or_false] at inLeft inRight
    have latest : event.occurredAt.wall ≤ left.2.occurredAt.wall := by
      rcases inLeft with rfl | rfl
      · exact below.le
      · exact le_rfl
    have earliest : right.1.occurredAt.wall ≤ event.occurredAt.wall := by
      rcases inRight with rfl | rfl
      · exact le_rfl
      · exact below'.le
    simp only [pairInterval] at before
    omega

/-- What pairing promises for events at distinct wall times. -/
structure PairingLaws (events : List AttendanceEvent) : Prop where
  anyOrder : ∀ other : List AttendanceEvent, other.Perm events → pairEventRows other = pairEventRows events
  onePartner : (pairedEvents events).Nodup
  sameDay : ∀ pair ∈ pairEventRows events, pair.1 ∈ events ∧ pair.2 ∈ events ∧
    pair.1.occurredAt.wall < pair.2.occurredAt.wall ∧ pair.1.occurredAt.date = pair.2.occurredAt.date
  chronological : (pairEvents events).Pairwise fun left right => left.finish < right.start
  unpaired : ∀ event ∈ events, event ∉ pairedEvents events ↔
    (eventsOn events event.occurredAt.date).length % 2 = 1 ∧ LastOfDay events event
  dayAlone : ∀ date, pairsOn events date = pairEventRows (eventsOn events date)
  otherDays : ∀ (other : List AttendanceEvent) (date : Int), Distinct other →
    (eventsOn other date).Perm (eventsOn events date) → pairsOn other date = pairsOn events date

theorem pairing_laws (distinct : Distinct events) : PairingLaws events where
  anyOrder other perm := by
    rw [pairEventRows, pairEventRows, orderedEvents_perm distinct perm]
  onePartner := pairedEvents_nodup distinct
  sameDay pair member := pair_sameDay member
  chronological := (pairEvents_apart distinct).2
  unpaired event member := unpaired_iff distinct member
  dayAlone date := by
    rw [pairEventRows_eventsOn]
    exact pairEventRows_day events date
  otherDays other date distinct' perm := by
    have today (events : List AttendanceEvent) : pairsOn events date = dayPairs (orderedEvents (eventsOn events date)) :=
      pairEventRows_day events date
    rw [today, today, orderedEvents_perm (distinct.eventsOn date) perm]

end Laws

section Samples

/-- Three events of one day and two of the next, not in their order. -/
def fiveEvents : List AttendanceEvent :=
  [(4, 739834 * 1440 + 960), (1, 739833 * 1440 + 480), (3, 739833 * 1440 + 720), (5, 739834 * 1440 + 480),
    (2, 739833 * 1440 + 600)].map fun entry => ⟨entry.1, 1, ⟨entry.2 * minute, (entry.2 - 120) * minute⟩⟩

theorem fiveEvents_laws : PairingLaws fiveEvents := pairing_laws (by decide)

example : (pairEventRows fiveEvents).map (fun pair => (pair.1.id, pair.2.id)) = [(1, 2), (5, 4)] := by decide

end Samples

end Dagmar.Proofs
