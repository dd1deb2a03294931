import Dagmar.Proofs.Sessions
import Mathlib.Order.Bounds.Basic

/-! How automatic pauses split an interval. The search for the number of pauses
leaves at the first number that fits, and the times in order make pieces of the
computed lengths with half an hour between them. -/

namespace Dagmar.Proofs
open Library.Pairing

section Count
variable {duration : Int}

/-- The search never passes over a number that fits. -/
theorem breakCount_le {fuel start enough : Nat} (reach : start ≤ enough) (fits : WorkFits duration enough) :
    breakCount duration fuel start ≤ enough := by
  induction fuel generalizing start with
  | zero => exact reach
  | succ fuel ih =>
    rw [breakCount]
    split
    next now => exact reach
    next later =>
      apply ih
      have : start ≠ enough := by
        rintro rfl
        exact later fits
      omega

/-- With a turn for every minute the search ends by itself, at the least number of pauses that fits. -/
theorem breakCount_least (long : 360 < duration) {fuel : Nat} (turns : duration.toNat ≤ fuel) :
    IsLeast {breaks : Nat | WorkFits duration breaks} (breakCount duration fuel 0) := by
  refine ⟨?_, ?_⟩
  · apply breakCount_fits ((duration + 29) / 390).toNat
    · omega
    · unfold WorkFits
      omega
  · intro breaks fits
    exact breakCount_le (Nat.zero_le _) fits

theorem breakSegments_least (long : 360 < duration) :
    IsLeast {breaks : Nat | WorkFits duration breaks} (breakSegments duration).2 := by
  rw [breakSegments, if_neg (not_le.mpr long)]
  exact breakCount_least long le_rfl

end Count

section Pieces
variable {front : List Int} {last start : Int}

/-- The times of an interval in order: its start, the pauses, and its end. -/
def timesInOrder (start finish : Int) : List Int := start :: automaticBreakEvents start finish ++ [finish]

def piecesInOrder (start finish : Int) : List WorkInterval := (pairUp (timesInOrder start finish)).map asInterval

private theorem pieces_end (segment : Int) :
    start + segment * minute + 30 * minute + (front.sum + 30 * front.length + last) * minute =
      start + ((segment :: front).sum + 30 * (segment :: front).length + last) * minute := by
  simp only [List.sum_cons, List.length_cons, minute]
  push_cast
  omega

theorem breakTimes_ascending (positive : ∀ segment ∈ front ++ [last], 1 ≤ segment) :
    (start :: breakTimes front start ++ [start + (front.sum + 30 * front.length + last) * minute]).IsChain (· < ·) := by
  induction front generalizing start with
  | nil =>
    have piece : 1 ≤ last := positive last List.mem_cons_self
    simp only [breakTimes, List.singleton_append, List.isChain_pair, List.sum_nil, List.length_nil, minute]
    omega
  | cons segment front ih =>
    obtain ⟨piece, positive⟩ := List.forall_mem_cons.mp positive
    have rest := @ih (start + segment * minute + 30 * minute) positive
    rw [pieces_end] at rest
    simp only [breakTimes, List.cons_append, List.isChain_cons_cons] at rest ⊢
    simp only [minute] at rest ⊢
    exact ⟨by omega, by omega, rest⟩

theorem breakTimes_lengths :
    (pairUp (start :: breakTimes front start ++ [start + (front.sum + 30 * front.length + last) * minute])).map
      (fun pair => pair.2 - pair.1) = (front ++ [last]).map (· * minute) := by
  induction front generalizing start with
  | nil => simp [breakTimes]
  | cons segment front ih =>
    have rest := @ih (start + segment * minute + 30 * minute)
    rw [pieces_end] at rest
    simp only [breakTimes, List.cons_append, pairUp_cons_cons, List.map_cons] at rest ⊢
    rw [rest]
    simp

theorem breakTimes_pauses (finish : Int) :
    (pairUp (start :: breakTimes front start ++ [finish])).IsChain fun left right => right.1 = left.2 + 30 * minute := by
  induction front generalizing start with
  | nil => simp [breakTimes]
  | cons segment front ih =>
    simp only [breakTimes, List.cons_append, pairUp_cons_cons, List.isChain_cons]
    refine ⟨?_, ih⟩
    intro pair next
    -- The second piece begins where the first pause ends.
    cases front with
    | nil =>
      obtain rfl : (start + segment * minute + 30 * minute, finish) = pair := by simpa [breakTimes] using next
      rfl
    | cons other front =>
      simp only [breakTimes, List.cons_append, pairUp_cons_cons, List.head?_cons, Option.mem_def, Option.some.injEq] at next
      rw [← next]

end Pieces

section Whole
variable {start finish : Int}

theorem aligned_length (aligned : start % minute = 0) (aligned' : finish % minute = 0) :
    finish = start + (finish - start) / minute * minute := by
  simp only [minute] at *
  omega

/-- What the times of an interval are made of, whether it takes pauses or not. -/
theorem timesInOrder_shape (aligned : start % minute = 0) (aligned' : finish % minute = 0) (below : start < finish) :
    ∃ front last, (breakSegments ((finish - start) / minute)).1 = front ++ [last] ∧
      (∀ segment ∈ front ++ [last], 1 ≤ segment) ∧
      timesInOrder start finish = start :: breakTimes front start ++ [start + (front.sum + 30 * front.length + last) * minute] := by
  have whole := aligned_length aligned aligned'
  by_cases long : 360 < (finish - start) / minute
  · obtain ⟨some', length, sum, each⟩ := breakSegments_long long
    have nonempty : (breakSegments ((finish - start) / minute)).1 ≠ [] := by
      intro none
      rw [none] at length
      cases length
    have shape := List.dropLast_append_getLast nonempty
    have pieces : ((breakSegments ((finish - start) / minute)).1.dropLast.length : Int) =
        (breakSegments ((finish - start) / minute)).2 := by
      rw [List.length_dropLast, length]
      rfl
    refine ⟨_, _, shape.symm, ?_, ?_⟩
    · rw [shape]
      exact fun segment listed => (each segment listed).1
    · rw [← shape, List.sum_append, List.sum_singleton] at sum
      have total : (breakSegments ((finish - start) / minute)).1.dropLast.sum +
          30 * (breakSegments ((finish - start) / minute)).1.dropLast.length +
          (breakSegments ((finish - start) / minute)).1.getLast nonempty = (finish - start) / minute := by omega
      have pauses : automaticBreakEvents start finish =
          breakTimes (breakSegments ((finish - start) / minute)).1.dropLast start := by
        simp only [automaticBreakEvents, if_neg some']
      rw [total, ← whole, timesInOrder, pauses]
  · have short := not_lt.mp long
    refine ⟨[], (finish - start) / minute, ?_, ?_, ?_⟩
    · rw [breakSegments, if_pos short]
      rfl
    · intro segment listed
      rw [List.nil_append, List.mem_singleton] at listed
      rw [listed]
      simp only [minute] at whole ⊢
      omega
    · rw [timesInOrder, automaticBreakEvents_short short]
      simp only [breakTimes, List.sum_nil, List.length_nil]
      rw [show ((0 : Int) + 30 * (0 : Nat) + (finish - start) / minute) = (finish - start) / minute by omega, ← whole]

/-- A duration is split into the fewest pieces of at most six hours that half-hour pauses leave, and the
times of an interval make these pieces. -/
theorem automatic_breaks_split (duration : Nat) (aligned : start % minute = 0) (aligned' : finish % minute = 0)
    (below : start < finish) :
    (360 < duration →
      (∀ fuel ≥ duration, breakCount duration fuel 0 = (breakSegments duration).2) ∧
      IsLeast {breaks : Nat | (breaks : Int) + 1 ≤ duration - 30 * breaks ∧ (duration : Int) - 30 * breaks ≤ 360 * (breaks + 1)}
        (breakSegments duration).2 ∧
      (breakSegments duration).1.length = (breakSegments duration).2 + 1 ∧
      (∀ segment ∈ (breakSegments duration).1, 1 ≤ segment ∧ segment ≤ 360) ∧
      (breakSegments duration).1.sum = duration - 30 * (breakSegments duration).2) ∧
    (automaticBreakEvents start finish).Pairwise (· < ·) ∧
    (∀ time ∈ automaticBreakEvents start finish, start < time ∧ time < finish) ∧
    (piecesInOrder start finish).map (fun piece => piece.finish - piece.start) =
      (breakSegments ((finish - start) / minute)).1.map (· * minute) ∧
    (piecesInOrder start finish).IsChain fun left right => right.start = left.finish + 30 * minute := by
  obtain ⟨front, last, segments, positive, times⟩ := timesInOrder_shape aligned aligned' below
  refine ⟨?_, ?_, fun time => mem_automaticBreakEvents, ?_, ?_⟩
  · intro long
    have long' : (360 : Int) < duration := by omega
    obtain ⟨-, length, sum, each⟩ := breakSegments_long long'
    have least := breakSegments_least long'
    have same : {breaks : Nat | WorkFits duration breaks} =
        {breaks : Nat | (breaks : Int) + 1 ≤ duration - 30 * breaks ∧ (duration : Int) - 30 * breaks ≤ 360 * (breaks + 1)} := by
      ext breaks
      simp only [WorkFits, Set.mem_ofPred_eq, mul_comm]
    refine ⟨?_, same ▸ least, length, each, by omega⟩
    intro fuel turns
    exact (breakCount_least long' (by omega)).unique least
  · have ascending : (timesInOrder start finish).Pairwise (· < ·) := by
      rw [times]
      exact List.isChain_iff_pairwise.mp (breakTimes_ascending positive)
    rw [timesInOrder, List.cons_append, List.pairwise_cons, List.pairwise_append] at ascending
    exact ascending.2.1
  · rw [piecesInOrder, times, segments, List.map_map]
    exact breakTimes_lengths
  · rw [piecesInOrder, times, List.isChain_map]
    exact breakTimes_pauses _

/-- The times 08:00 and 14:32 of a day: a piece of six hours, a pause, and a last piece of two minutes. -/
theorem sample_automatic_breaks_split :
    automaticBreakEvents (midnight 739000 + 480 * minute) (midnight 739000 + 872 * minute) =
      [midnight 739000 + 840 * minute, midnight 739000 + 870 * minute] ∧
    (automaticBreakEvents (midnight 739000 + 480 * minute) (midnight 739000 + 872 * minute)).Pairwise (· < ·) :=
  ⟨by decide, (automatic_breaks_split 392 (by decide) (by decide) (by decide)).2.1⟩

end Whole

end Dagmar.Proofs
