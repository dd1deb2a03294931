import Dagmar.EventApi
import Dagmar.Proofs.Pairs
import Mathlib.Algebra.Order.BigOperators.Group.List

/-! Automatic pauses cut the work into pieces of one to 360 minutes, and all of
them lie strictly inside the interval they are made for. -/

namespace Dagmar.Proofs
open Library.Pairing

section Segments

/-- The work left by a number of pauses fits into one piece more than there are pauses. -/
def WorkFits (duration : Int) (breaks : Nat) : Prop :=
  breaks + 1 ≤ duration - breaks * 30 ∧ duration - breaks * 30 ≤ (breaks + 1) * 360

theorem breakCount_fits {duration : Int} {fuel start : Nat} (enough : Nat) (reach : start ≤ enough ∧ enough ≤ start + fuel)
    (fits : WorkFits duration enough) : WorkFits duration (breakCount duration fuel start) := by
  induction fuel generalizing start with
  | zero =>
    obtain rfl : start = enough := by omega
    exact fits
  | succ fuel ih =>
    rw [breakCount]
    split
    next now => exact now
    next later =>
      apply ih
      have : start ≠ enough := by
        rintro rfl
        exact later fits
      omega

theorem breakCount_long {duration : Int} (long : 360 < duration) :
    WorkFits duration (breakCount duration duration.toNat 0) ∧ breakCount duration duration.toNat 0 ≠ 0 := by
  have fits : WorkFits duration (breakCount duration duration.toNat 0) := by
    apply breakCount_fits ((duration + 29) / 390).toNat
    · omega
    · unfold WorkFits
      omega
  refine ⟨fits, ?_⟩
  intro none
  rw [none] at fits
  unfold WorkFits at fits
  omega

theorem segmentsFrom_spec (pieces : Nat) (work : Int) (fits : pieces ≤ work ∧ work ≤ pieces * 360) :
    (segmentsFrom pieces work).length = pieces ∧ (segmentsFrom pieces work).sum = work ∧
      ∀ segment ∈ segmentsFrom pieces work, 1 ≤ segment ∧ segment ≤ 360 := by
  induction pieces generalizing work with
  | zero =>
    have : work = 0 := by omega
    simp [segmentsFrom, this]
  | succ pieces ih =>
    obtain ⟨length, sum, each⟩ := ih (work - min 360 (work - pieces)) (by omega)
    simp only [segmentsFrom, List.length_cons, List.sum_cons, List.forall_mem_cons]
    exact ⟨by omega, by omega, by omega, each⟩

theorem breakSegments_long {duration : Int} (long : 360 < duration) :
    (breakSegments duration).2 ≠ 0 ∧ (breakSegments duration).1.length = (breakSegments duration).2 + 1 ∧
      (breakSegments duration).1.sum = duration - (breakSegments duration).2 * 30 ∧
      ∀ segment ∈ (breakSegments duration).1, 1 ≤ segment ∧ segment ≤ 360 := by
  obtain ⟨fits, some'⟩ := breakCount_long long
  simp only [breakSegments, if_neg (not_le.mpr long)]
  refine ⟨some', segmentsFrom_spec _ _ ?_⟩
  unfold WorkFits at fits
  push_cast
  exact fits

end Segments

section Times

theorem mem_breakTimes {segments : List Int} {cursor time : Int} (positive : ∀ segment ∈ segments, 1 ≤ segment)
    (member : time ∈ breakTimes segments cursor) :
    cursor < time ∧ time ≤ cursor + (segments.sum + 30 * segments.length) * minute := by
  induction segments generalizing cursor with
  | nil => cases member
  | cons segment segments ih =>
    obtain ⟨first, rest⟩ := List.forall_mem_cons.mp positive
    have nonneg : 0 ≤ segments.sum := List.sum_nonneg fun other inside => by have := rest other inside; omega
    simp only [breakTimes, List.mem_cons] at member
    simp only [List.sum_cons, List.length_cons, minute] at ih member ⊢
    push_cast
    rcases member with rfl | rfl | member
    · omega
    · omega
    · have := ih rest member
      omega

/-- A long interval is cut into pieces of one to 360 minutes with half an hour between them. -/
theorem automaticBreakEvents_long {start finish : Int} (long : 360 < (finish - start) / minute) :
    ∃ front last, automaticBreakEvents start finish = breakTimes front start ∧
      (∀ segment ∈ front, 1 ≤ segment ∧ segment ≤ 360) ∧ (1 ≤ last ∧ last ≤ 360) ∧
      front.sum + 30 * front.length + last = (finish - start) / minute := by
  obtain ⟨some', length, sum, each⟩ := breakSegments_long long
  simp only [automaticBreakEvents, if_neg some']
  generalize breakSegments ((finish - start) / minute) = outcome at length sum each
  have nonempty : outcome.1 ≠ [] := by
    intro none
    rw [none] at length
    cases length
  have shape := List.dropLast_append_getLast nonempty
  generalize outcome.1.dropLast = front at shape ⊢
  generalize outcome.1.getLast nonempty = last at shape
  rw [← shape, List.forall_mem_append, List.forall_mem_singleton] at each
  rw [← shape, List.length_append, List.length_singleton] at length
  rw [← shape, List.sum_append, List.sum_singleton] at sum
  have pieces : (front.length : Int) = outcome.2 := by omega
  exact ⟨front, last, rfl, each.1, each.2, by omega⟩

theorem automaticBreakEvents_short {start finish : Int} (short : (finish - start) / minute ≤ 360) :
    automaticBreakEvents start finish = [] := by
  simp [automaticBreakEvents, breakSegments, short]

/-- Every automatic pause begins and ends strictly between the two events. -/
theorem mem_automaticBreakEvents {start finish time : Int} (member : time ∈ automaticBreakEvents start finish) :
    start < time ∧ time < finish := by
  by_cases long : 360 < (finish - start) / minute
  · obtain ⟨front, last, same, each, piece, sum⟩ := automaticBreakEvents_long long
    rw [same] at member
    have inside := mem_breakTimes (fun segment listed => (each segment listed).1) member
    have whole : (finish - start) / minute * minute ≤ finish - start := Int.ediv_mul_le _ (by decide)
    simp only [minute] at inside whole sum ⊢
    omega
  · rw [automaticBreakEvents_short (not_lt.mp long)] at member
    cases member

theorem breaks_sameDay {start finish time : Int} (same : dateOf start = dateOf finish)
    (member : time ∈ automaticBreakEvents start finish) : dateOf time = dateOf start := by
  obtain ⟨after, before⟩ := mem_automaticBreakEvents member
  simp only [dateOf, day] at same ⊢
  omega

end Times

section Missing

theorem breakPlacement_inside {target duration : Int} {session : List WorkInterval} {tried : Option Int} {placement : Int}
    (placed : breakPlacement target duration session tried = some placement) :
    tried = some placement ∨ ∃ interval ∈ session, interval.start + minute ≤ placement ∧
      placement ≤ interval.finish - (duration + 1) * minute := by
  induction session generalizing tried with
  | nil => exact .inl placed
  | cons interval session ih =>
    have room (fits : interval.start + minute ≤ interval.finish - (duration + 1) * minute) :
        interval.start + minute ≤ min (max target (interval.start + minute)) (interval.finish - (duration + 1) * minute) ∧
          min (max target (interval.start + minute)) (interval.finish - (duration + 1) * minute) ≤
            interval.finish - (duration + 1) * minute :=
      ⟨le_min (le_max_right _ _) fits, min_le_right _ _⟩
    have later (found : ∃ other ∈ session, other.start + minute ≤ placement ∧
        placement ≤ other.finish - (duration + 1) * minute) : ∃ other ∈ interval :: session,
          other.start + minute ≤ placement ∧ placement ≤ other.finish - (duration + 1) * minute := by
      obtain ⟨other, member, bounds⟩ := found
      exact ⟨other, List.mem_cons_of_mem _ member, bounds⟩
    rw [breakPlacement] at placed
    split at placed
    next fits =>
      split at placed
      · cases placed
        exact .inr ⟨interval, List.mem_cons_self, room fits⟩
      · rcases ih placed with same | found
        · cases same
          exact .inr ⟨interval, List.mem_cons_self, room fits⟩
        · exact .inr (later found)
    · rcases ih placed with same | found
      · exact .inl same
      · exact .inr (later found)

/-- Every pause that is placed lies strictly inside one interval of its session. -/
theorem placeBreaks_inside {session : List WorkInterval} {start remaining : Int} {count index : Nat} {pause : Int × Int}
    (member : pause ∈ pairUp (placeBreaks session start count index remaining).1) :
    ∃ interval ∈ session, interval.start < pause.1 ∧ pause.1 < pause.2 ∧ pause.2 < interval.finish := by
  induction count generalizing index remaining with
  | zero => cases member
  | succ count ih =>
    rw [placeBreaks] at member
    dsimp only at member
    split at member
    · cases member
    next positive =>
      split at member
      · cases member
      next placement placed =>
        simp only [pairUp_cons_cons, List.mem_cons] at member
        rcases member with rfl | member
        · rcases breakPlacement_inside placed with impossible | ⟨interval, inside, low, high⟩
          · cases impossible
          · refine ⟨interval, inside, ?_⟩
            generalize min 30 remaining = duration at positive high ⊢
            simp only [minute] at low high ⊢
            omega
        · exact ih member

theorem mem_workSessions {intervals session : List WorkInterval} {interval : WorkInterval}
    (listed : session ∈ workSessions intervals) (member : interval ∈ session) : interval ∈ intervals := by
  have flat : interval ∈ (workSessions intervals).flatten := List.mem_flatten.mpr ⟨session, listed, member⟩
  rw [workSessions, List.flatten_splitBy, List.mem_insertionSort] at flat
  exact flat

theorem mem_missingBreakEventGroups {intervals : List WorkInterval} {rangeStart rangeEnd : Int} {additions : List Int}
    (listed : additions ∈ missingBreakEventGroups intervals rangeStart rangeEnd) {pause : Int × Int}
    (member : pause ∈ pairUp additions) :
    ∃ interval ∈ intervals, interval.start < pause.1 ∧ pause.1 < pause.2 ∧ pause.2 < interval.finish := by
  obtain ⟨session, inside, placed⟩ := List.mem_filterMap.mp listed
  unfold sessionAdditions at placed
  split at placed
  · cases placed
  · split at placed
    · cases placed
    · dsimp only at placed
      split at placed
      · cases placed
        obtain ⟨interval, held, bounds⟩ := placeBreaks_inside member
        exact ⟨interval, mem_workSessions inside held, bounds⟩
      · cases placed

theorem mem_freshGroups {existing : List Int} {groups : List (List Int)} {pairs : List (Int × Int)} {pause : Int × Int}
    (listed : pairs ∈ Admin.freshGroups existing groups) (member : pause ∈ pairs) :
    ∃ additions ∈ groups, pause ∈ pairUp additions := by
  induction groups generalizing existing with
  | nil => cases listed
  | cons additions groups ih =>
    have later (found : ∃ other ∈ groups, pause ∈ pairUp other) : ∃ other ∈ additions :: groups, pause ∈ pairUp other := by
      obtain ⟨other, inside, paired⟩ := found
      exact ⟨other, List.mem_cons_of_mem _ inside, paired⟩
    rw [Admin.freshGroups] at listed
    split at listed
    · exact later (ih listed)
    · rcases List.mem_cons.mp listed with rfl | listed
      · exact ⟨additions, List.mem_cons_self, List.mem_of_mem_filter member⟩
      · exact later (ih listed)

/-- A pair of events stops being one when an event falls between them. -/
theorem interval_split {events : List AttendanceEvent} {interval : WorkInterval} {event : AttendanceEvent}
    (member : event ∈ events) (inside : interval.start < event.occurredAt.wall ∧ event.occurredAt.wall < interval.finish) :
    interval ∉ pairEvents events := by
  intro paired
  obtain ⟨below, sameDay⟩ := pairEvents_sameDay paired
  obtain ⟨pair, listed, rfl⟩ := List.mem_map.mp (mem_pairEvents.mp paired)
  have today : event ∈ orderedEvents (eventsOn events (dateOf (pairInterval pair).start)) := by
    refine mem_orderedEvents.mpr (mem_eventsOn.mpr ⟨member, ?_⟩)
    simp only [Timestamp.date, dateOf, day] at sameDay inside ⊢
    omega
  have between := pairUp_adjacent (List.pairwise_insertionSort eventLe _) (List.mem_of_mem_filter listed) today
  simp only [pairInterval, eventLe] at inside between
  rcases between with rfl | rfl | before | after <;> omega

end Missing

end Dagmar.Proofs
