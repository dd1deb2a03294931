import Dagmar.Proofs.Pairs

/-! The pairs of a day depend on its wall times alone: they are the sorted wall
times of the day taken two by two. -/

namespace Dagmar.Proofs
open Library.Pairing

/-- The wall times of a day in order. -/
def wallsOn (events : List AttendanceEvent) (date : Int) : List Int :=
  ((eventsOn events date).map (·.occurredAt.wall)).insertionSort (· ≤ ·)

theorem mem_wallsOn {events : List AttendanceEvent} {date wall : Int} :
    wall ∈ wallsOn events date ↔ dateOf wall = date ∧ ∃ event ∈ events, event.occurredAt.wall = wall := by
  simp only [wallsOn, List.mem_insertionSort, List.mem_map, mem_eventsOn, Timestamp.date]
  constructor
  · rintro ⟨event, ⟨member, today⟩, rfl⟩
    exact ⟨today, event, member, rfl⟩
  · rintro ⟨today, event, member, rfl⟩
    exact ⟨event, ⟨member, today⟩, rfl⟩

theorem wallsOn_sorted (events : List AttendanceEvent) (date : Int) : (wallsOn events date).Pairwise (· ≤ ·) :=
  List.pairwise_insertionSort _ _

theorem wallsOn_perm (events : List AttendanceEvent) (date : Int) :
    (wallsOn events date).Perm ((eventsOn events date).map (·.occurredAt.wall)) := List.perm_insertionSort _ _

theorem ordered_walls (events : List AttendanceEvent) :
    (orderedEvents events).map (·.occurredAt.wall) = (events.map (·.occurredAt.wall)).insertionSort (· ≤ ·) := by
  symm
  apply insertionSort_eq_of_perm ((List.perm_insertionSort _ _).map _)
  rw [List.pairwise_map]
  refine (List.pairwise_insertionSort eventLe _).imp ?_
  intro left right below
  simp only [eventLe] at below
  omega

theorem eventsOn_append (first second : List AttendanceEvent) (date : Int) :
    eventsOn (first ++ second) date = eventsOn first date ++ eventsOn second date := List.filter_append _ _

theorem mem_pairEvents_iff {events : List AttendanceEvent} {interval : WorkInterval} :
    interval ∈ pairEvents events ↔ interval.start < interval.finish ∧
      (interval.start, interval.finish) ∈ pairUp (wallsOn events (dateOf interval.start)) := by
  rw [mem_pairEvents, wallsOn, ← ordered_walls, pairUp_map]
  simp only [dayWork, List.mem_map, mem_dayPairs_iff (ordered_today _ _), Prod.mk.injEq]
  constructor
  · intro found
    obtain ⟨pair, ⟨listed, below⟩, rfl⟩ := found
    exact ⟨below, pair, listed, rfl, rfl⟩
  · intro found
    obtain ⟨below, pair, listed, first, second⟩ := found
    refine ⟨pair, ⟨listed, ?_⟩, ?_⟩
    · rwa [first, second]
    · rw [pairInterval, first, second]

end Dagmar.Proofs
