import Dagmar.Proofs.Sessions
import Dagmar.Proofs.PlanUpserts
import Mathlib.Data.List.Perm.Subperm

/-! Pairing by the wall clock and pairing by the instants that are stored. Both
sort the times of a day; they agree exactly when the wall clock keeps the two of
every pair together, in an even place, and under one offset from UTC. -/

namespace Dagmar.Proofs
open Library.Pairing

section Orders

/-- The sort key of the code: the wall time, then the number. -/
def wallBefore (left right : AttendanceEvent) : Prop :=
  left.occurredAt.wall < right.occurredAt.wall ∨ left.occurredAt.wall = right.occurredAt.wall ∧ left.id < right.id

instance : DecidableRel wallBefore := fun _ _ => inferInstanceAs (Decidable (_ ∨ _))

instance : Std.Asymm wallBefore where
  asymm left right := by
    simp only [wallBefore]
    omega

def instantBefore (left right : AttendanceEvent) : Prop := left.occurredAt.utc ≤ right.occurredAt.utc

instance : DecidableRel instantBefore := fun _ _ => inferInstanceAs (Decidable (_ ≤ _))

/-- First with second, third with fourth, by the instants of a day. -/
def instantPairs (events : List AttendanceEvent) (date : Int) : List (AttendanceEvent × AttendanceEvent) :=
  pairUp ((eventsOn events date).insertionSort instantBefore)

/-- The pairs of each day are those of its instants, and as long as their instants are apart. -/
structure FollowsRealTime (events : List AttendanceEvent) : Prop where
  pairs : ∀ date, ((pairEventRows events).filter (·.1.occurredAt.date = date)).Perm (instantPairs events date)
  minutes : ∀ pair ∈ pairEventRows events,
    (pairInterval pair).minutes = (pair.2.occurredAt.utc - pair.1.occurredAt.utc) / minute

/-- The wall clock leaves a pair of instants a pair. -/
structure WallKeeps (events : List AttendanceEvent) (date : Int) (pair : AttendanceEvent × AttendanceEvent) : Prop where
  offset : pair.1.occurredAt.wall - pair.1.occurredAt.utc = pair.2.occurredAt.wall - pair.2.occurredAt.utc
  together : ∀ event ∈ eventsOn events date,
    event = pair.1 ∨ event = pair.2 ∨ wallBefore event pair.1 ∨ wallBefore pair.2 event
  even : (eventsOn events date).countP (wallBefore · pair.1) % 2 = 0

/-- Two offsets of a zone are the same or a minute apart at least. -/
def OffsetSteps (zone : Zone) : Prop := ∀ first second,
  let change := (zone.toWall first - first) - (zone.toWall second - second)
  change = 0 ∨ change ≤ -minute ∨ minute ≤ change

end Orders

section Pairing
variable {zone : Zone} {events : List AttendanceEvent} {date : Int}

theorem ordered_strict (numbered : Numbered events) : (orderedEvents events).Pairwise wallBefore := by
  have nodup : (orderedEvents events).Nodup := (List.perm_insertionSort _ _).nodup_iff.mpr numbered.1
  have sorted : (orderedEvents events).Pairwise eventLe := List.pairwise_insertionSort _ _
  refine (List.Pairwise.and_mem.mp (sorted.and nodup)).imp ?_
  rintro left right ⟨inLeft, inRight, below, different⟩
  have numbers : left.id ≠ right.id := fun same =>
    different (numbered.2 left (mem_orderedEvents.mp inLeft) right (mem_orderedEvents.mp inRight) same)
  simp only [eventLe, wallBefore] at below ⊢
  omega

theorem instantOrder_perm (events : List AttendanceEvent) (date : Int) :
    ((eventsOn events date).insertionSort instantBefore).Perm (orderedEvents (eventsOn events date)) :=
  (List.perm_insertionSort _ _).trans (List.perm_insertionSort _ _).symm

theorem mem_instantPairs (distinct : (events.map (·.occurredAt.utc)).Nodup) {pair : AttendanceEvent × AttendanceEvent}
    (member : pair ∈ instantPairs events date) :
    pair.1 ∈ eventsOn events date ∧ pair.2 ∈ eventsOn events date ∧ pair.1.occurredAt.utc < pair.2.occurredAt.utc := by
  obtain ⟨first, second⟩ := mem_of_mem_pairUp member
  have sorted : ((eventsOn events date).insertionSort instantBefore).Pairwise instantBefore := by
    have trans : IsTrans AttendanceEvent instantBefore := ⟨fun _ _ _ => le_trans⟩
    have total : Std.Total instantBefore := ⟨fun left right => le_total left.occurredAt.utc right.occurredAt.utc⟩
    exact List.pairwise_insertionSort _ _
  have different : ((eventsOn events date).insertionSort instantBefore).Pairwise
      fun left right => left.occurredAt.utc ≠ right.occurredAt.utc := by
    rw [← List.pairwise_map]
    refine (((List.perm_insertionSort _ _).map _).nodup_iff).mpr ?_
    exact (List.filter_sublist.map _).nodup distinct
  obtain ⟨front, back, order, -⟩ := mem_pairUp_iff.mp member
  have both := sorted.and different
  rw [order] at both
  have below := (List.pairwise_cons.mp (List.pairwise_append.mp both).2.1).1 pair.2 List.mem_cons_self
  exact ⟨by simpa using first, by simpa using second, lt_of_le_of_ne below.1 below.2⟩

theorem day_strict (numbered : Numbered events) : (orderedEvents (eventsOn events date)).Pairwise wallBefore :=
  ordered_strict (numbered.eventsOn date)

theorem countP_ordered (p : AttendanceEvent → Bool) :
    (orderedEvents (eventsOn events date)).countP p = (eventsOn events date).countP p :=
  (List.perm_insertionSort _ _).countP_eq p

/-- A pair that the wall clock keeps is paired by it. -/
theorem WallKeeps.paired (numbered : Numbered events) (distinct : (events.map (·.occurredAt.utc)).Nodup)
    {pair : AttendanceEvent × AttendanceEvent} (member : pair ∈ instantPairs events date) (keeps : WallKeeps events date pair) :
    pair ∈ pairUp (orderedEvents (eventsOn events date)) ∧ pair ∈ dayPairs (orderedEvents (eventsOn events date)) := by
  obtain ⟨first, second, below⟩ := mem_instantPairs distinct member
  have offset := keeps.offset
  have order : pair.1.occurredAt.wall < pair.2.occurredAt.wall := by omega
  have paired : pair ∈ pairUp (orderedEvents (eventsOn events date)) := by
    rw [mem_pairUp_strict (day_strict numbered), countP_ordered]
    refine ⟨mem_orderedEvents.mpr first, mem_orderedEvents.mpr second, .inl order, ?_, keeps.even⟩
    intro event inside
    exact keeps.together event (mem_orderedEvents.mp inside)
  exact ⟨paired, (mem_dayPairs_iff (ordered_today events date)).mpr ⟨paired, order⟩⟩

/-- A pair by the wall clock stands in an even place, with nothing between the two. -/
theorem wallKeeps_of_paired (numbered : Numbered events) {pair : AttendanceEvent × AttendanceEvent}
    (paired : pair ∈ pairUp (orderedEvents (eventsOn events date)))
    (offset : pair.1.occurredAt.wall - pair.1.occurredAt.utc = pair.2.occurredAt.wall - pair.2.occurredAt.utc) :
    WallKeeps events date pair := by
  obtain ⟨-, -, -, together, even⟩ := (mem_pairUp_strict (day_strict numbered)).mp paired
  refine ⟨offset, ?_, ?_⟩
  · intro event inside
    exact together event (mem_orderedEvents.mpr inside)
  · rw [countP_ordered] at even
    exact even

/-- Equal minutes on the clock and between the instants mean an equal offset. -/
theorem offset_of_minutes (steps : OffsetSteps zone) {left right : Timestamp} (settled : zone.Settled left)
    (settled' : zone.Settled right) (same : (right.wall - left.wall) / minute = (right.utc - left.utc) / minute) :
    left.wall - left.utc = right.wall - right.utc := by
  have change := steps right.utc left.utc
  rw [Zone.Settled] at settled settled'
  simp only [settled, settled', minute] at change same
  omega

/-- Pairing follows the instants exactly when the wall clock keeps every pair of them. -/
theorem pairing_follows_instants (steps : OffsetSteps zone) (numbered : Numbered events)
    (settled : ∀ event ∈ events, zone.Settled event.occurredAt) (distinct : (events.map (·.occurredAt.utc)).Nodup) :
    FollowsRealTime events ↔ ∀ date, ∀ pair ∈ instantPairs events date, WallKeeps events date pair := by
  constructor
  · intro follows date pair member
    have listed := (follows.pairs date).mem_iff.mpr member
    rw [pairEventRows_day] at listed
    have row : pair ∈ pairEventRows events := mem_pairEventRows.mpr ⟨date, listed⟩
    obtain ⟨first, second, -⟩ := pair_sameDay row
    apply wallKeeps_of_paired numbered (List.mem_of_mem_filter listed)
    exact offset_of_minutes steps (settled _ first) (settled _ second) (follows.minutes pair row)
  · intro keeps
    have same (date : Int) : (dayPairs (orderedEvents (eventsOn events date))).Perm (instantPairs events date) := by
      have listed : (eventsOn events date).Nodup := (numbered.eventsOn date).1
      have nodup : (instantPairs events date).Nodup :=
        pairUp_nodup ((List.perm_insertionSort _ _).nodup_iff.mpr listed)
      have within : instantPairs events date ⊆ dayPairs (orderedEvents (eventsOn events date)) :=
        fun pair member => ((keeps date pair member).paired numbered distinct member).2
      -- There are as many pairs as half the times of the day, so none is left over.
      have count : (dayPairs (orderedEvents (eventsOn events date))).length ≤ (instantPairs events date).length := by
        refine (List.length_filter_le _ _).trans ?_
        rw [length_pairUp, instantPairs, length_pairUp, (instantOrder_perm events date).length_eq]
      exact ((List.subperm_of_subset nodup within).perm_of_length_le count).symm
    refine ⟨fun date => ?_, ?_⟩
    · rw [pairEventRows_day]
      exact same date
    · intro pair row
      obtain ⟨date, listed⟩ := mem_pairEventRows.mp row
      have offset := (keeps date pair ((same date).mem_iff.mp listed)).offset
      have equal : pair.2.occurredAt.wall - pair.1.occurredAt.wall = pair.2.occurredAt.utc - pair.1.occurredAt.utc := by omega
      rw [WorkInterval.minutes, pairInterval, equal]

end Pairing

section Sample

theorem sampleZone_steps : OffsetSteps sampleZone := by
  intro first second
  simp only [sampleZone, pragueSpring, springWall, minute]
  split_ifs <;> omega

/-- Half past one and half past three of the day on which the clock skips the hour from two to three. -/
def springEvents : List AttendanceEvent :=
  [⟨1, 1, sampleZone.attach (midnight (Library.Calendar.ordinal 2026 3 29) + 90 * minute)⟩,
    ⟨2, 1, sampleZone.attach (midnight (Library.Calendar.ordinal 2026 3 29) + 210 * minute)⟩]

/-- An hour of work is counted as two. -/
theorem spring_hour_counted_twice : (pairEvents springEvents).map WorkInterval.minutes = [120] ∧
    ¬ FollowsRealTime springEvents := by
  refine ⟨by decide, fun follows => ?_⟩
  have rows : pairEventRows springEvents = [(springEvents.get ⟨0, by decide⟩, springEvents.get ⟨1, by decide⟩)] := by decide
  have minutes := follows.minutes _ (by rw [rows]; exact List.mem_cons_self)
  revert minutes
  decide

/-- An ordinary day of work. -/
def summerEvents : List AttendanceEvent :=
  [⟨2, 1, sampleZone.attach (midnight 739834 + 990 * minute)⟩, ⟨1, 1, sampleZone.attach (midnight 739834 + 480 * minute)⟩]

theorem sample_pairing_follows_instants : FollowsRealTime summerEvents ↔
    ∀ date, ∀ pair ∈ instantPairs summerEvents date, WallKeeps summerEvents date pair :=
  pairing_follows_instants sampleZone_steps ⟨by decide, by decide⟩ (by decide) (by decide)

end Sample

end Dagmar.Proofs
