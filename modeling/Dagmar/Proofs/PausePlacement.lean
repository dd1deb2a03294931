import Dagmar.Proofs.Backfilling
import Dagmar.Proofs.MinuteCounting

/-! Where the missing pauses of a session go. A pause takes the interval that holds it
at its time, or else the last one with room for it; pauses that take different
intervals, or hold their times, are apart, so two of them meet only where a long
pause of the work leaves both to one interval. -/

namespace Dagmar.Proofs
open Library Library.Coverage Library.Pairing

section Slots
variable {session : List WorkInterval} {target duration : Int} {interval other : WorkInterval}

/-- A pause fits into the interval with a minute of work at both ends. -/
def HasRoom (duration : Int) (interval : WorkInterval) : Prop :=
  interval.start + minute ≤ interval.finish - (duration + 1) * minute

/-- It fits at the very time it is meant for. -/
def HoldsAt (target duration : Int) (interval : WorkInterval) : Prop :=
  interval.start + minute ≤ target ∧ target ≤ interval.finish - (duration + 1) * minute

/-- The interval of a session that a pause goes to. -/
structure Takes (session : List WorkInterval) (target duration : Int) (interval : WorkInterval) : Prop where
  listed : interval ∈ session
  room : HasRoom duration interval
  chosen : HoldsAt target duration interval ∨
    (∀ other ∈ session, ¬ HoldsAt target duration other) ∧ ∀ other ∈ session, HasRoom duration other → other.start ≤ interval.start

instance (duration : Int) (interval : WorkInterval) : Decidable (HasRoom duration interval) :=
  inferInstanceAs (Decidable (_ ≤ _))

instance (target duration : Int) (interval : WorkInterval) : Decidable (HoldsAt target duration interval) :=
  inferInstanceAs (Decidable (_ ∧ _))

/-- The time next to the intended one at which the pause fits into the interval. -/
def fitted (target duration : Int) (interval : WorkInterval) : Int :=
  min (max target (interval.start + minute)) (interval.finish - (duration + 1) * minute)

/-- Intervals in order that may touch. -/
def Following (intervals : List WorkInterval) : Prop :=
  (∀ interval ∈ intervals, interval.start < interval.finish) ∧
    intervals.Pairwise fun left right => left.finish ≤ right.start

theorem HoldsAt.room (holds : HoldsAt target duration interval) : HasRoom duration interval := holds.1.trans holds.2

theorem Following.disjoint (following : Following session) (member : interval ∈ session) (member' : other ∈ session) :
    interval = other ∨ interval.finish ≤ other.start ∨ other.finish ≤ interval.start := pairwise_either following.2 member member'

theorem Following.same_start (following : Following session) (member : interval ∈ session) (member' : other ∈ session)
    (same : interval.start = other.start) : interval = other := by
  have := following.1 interval member
  have := following.1 other member'
  rcases following.disjoint member member' with equal | before | after
  · exact equal
  · omega
  · omega

theorem breakPlacement_cons (target duration : Int) (interval : WorkInterval) (session : List WorkInterval) (tried : Option Int) :
    breakPlacement target duration (interval :: session) tried =
      if HasRoom duration interval then
        if HoldsAt target duration interval then some (fitted target duration interval)
        else breakPlacement target duration session (some (fitted target duration interval))
      else breakPlacement target duration session tried := rfl

/-- The search stops at an interval that holds the time, and ends with the last one that has room. -/
theorem breakPlacement_cases (target duration : Int) (session : List WorkInterval) (tried : Option Int) :
    (∃ interval ∈ session, HoldsAt target duration interval ∧
      breakPlacement target duration session tried = some (fitted target duration interval)) ∨
    (∀ interval ∈ session, ¬ HoldsAt target duration interval) ∧
      ((∃ front interval back, session = front ++ interval :: back ∧ HasRoom duration interval ∧
        (∀ other ∈ back, ¬ HasRoom duration other) ∧
        breakPlacement target duration session tried = some (fitted target duration interval)) ∨
      (∀ interval ∈ session, ¬ HasRoom duration interval) ∧ breakPlacement target duration session tried = tried) := by
  induction session generalizing tried with
  | nil => exact .inr ⟨by simp, .inr ⟨by simp, rfl⟩⟩
  | cons interval session ih =>
    rw [breakPlacement_cons]
    by_cases room : HasRoom duration interval
    · rw [if_pos room]
      by_cases holds : HoldsAt target duration interval
      · rw [if_pos holds]
        exact .inl ⟨interval, List.mem_cons_self, holds, rfl⟩
      · rw [if_neg holds]
        rcases ih (some (fitted target duration interval)) with
          ⟨other, listed, held, same⟩ | ⟨unheld, ⟨front, other, back, rfl, room', last, same⟩ | ⟨none, same⟩⟩
        · exact .inl ⟨other, List.mem_cons_of_mem _ listed, held, same⟩
        · exact .inr ⟨List.forall_mem_cons.mpr ⟨holds, unheld⟩, .inl ⟨interval :: front, other, back, rfl, room', last, same⟩⟩
        · exact .inr ⟨List.forall_mem_cons.mpr ⟨holds, unheld⟩, .inl ⟨[], interval, session, rfl, room, none, same⟩⟩
    · rw [if_neg room]
      have holds : ¬ HoldsAt target duration interval := fun holds => room holds.room
      rcases ih tried with ⟨other, listed, held, same⟩ | ⟨unheld, ⟨front, other, back, rfl, room', last, same⟩ | ⟨none, same⟩⟩
      · exact .inl ⟨other, List.mem_cons_of_mem _ listed, held, same⟩
      · exact .inr ⟨List.forall_mem_cons.mpr ⟨holds, unheld⟩, .inl ⟨interval :: front, other, back, rfl, room', last, same⟩⟩
      · exact .inr ⟨List.forall_mem_cons.mpr ⟨holds, unheld⟩, .inr ⟨List.forall_mem_cons.mpr ⟨room, none⟩, same⟩⟩

theorem breakPlacement_takes (following : Following session) {placement : Int}
    (placed : breakPlacement target duration session none = some placement) :
    ∃ interval, Takes session target duration interval ∧ placement = fitted target duration interval := by
  rcases breakPlacement_cases target duration session none with
    ⟨interval, listed, held, same⟩ | ⟨unheld, ⟨front, interval, back, rfl, room, last, same⟩ | ⟨-, same⟩⟩
  · exact ⟨interval, ⟨listed, held.room, .inl held⟩, Option.some.inj (placed.symm.trans same)⟩
  · refine ⟨interval, ⟨by simp, room, .inr ⟨unheld, ?_⟩⟩, Option.some.inj (placed.symm.trans same)⟩
    intro other member fits
    rcases List.mem_append.mp member with earlier | later
    · have before := (List.pairwise_append.mp following.2).2.2 other earlier interval List.mem_cons_self
      have := following.1 other member
      omega
    · rcases List.mem_cons.mp later with rfl | later
      · exact le_rfl
      · exact absurd fits (last other later)
  · rw [placed] at same
    cases same

theorem breakPlacement_some (room : ∃ interval ∈ session, HasRoom duration interval) :
    ∃ placement, breakPlacement target duration session none = some placement := by
  rcases breakPlacement_cases target duration session none with
    ⟨interval, -, -, same⟩ | ⟨-, ⟨front, interval, back, -, -, -, same⟩ | ⟨none, -⟩⟩
  · exact ⟨_, same⟩
  · exact ⟨_, same⟩
  · obtain ⟨interval, member, fits⟩ := room
    exact absurd fits (none interval member)

/-- A pause goes to one interval only. -/
theorem Takes.unique (following : Following session) (nonneg : 0 ≤ duration) (takes : Takes session target duration interval)
    (takes' : Takes session target duration other) : interval = other := by
  rcases takes.chosen with held | ⟨unheld, last⟩
  · rcases takes'.chosen with held' | ⟨unheld, -⟩
    · simp only [HoldsAt, minute] at held held'
      rcases following.disjoint takes.listed takes'.listed with same | before | after
      · exact same
      · omega
      · omega
    · exact absurd held (unheld interval takes.listed)
  · rcases takes'.chosen with held' | ⟨-, last'⟩
    · exact absurd held' (unheld other takes'.listed)
    · exact following.same_start takes.listed takes'.listed
        (le_antisymm (last' interval takes.listed takes.room) (last other takes'.listed takes'.room))

theorem fitted_bounds (room : HasRoom duration interval) :
    interval.start + minute ≤ fitted target duration interval ∧
      fitted target duration interval ≤ interval.finish - (duration + 1) * minute :=
  ⟨le_min (le_max_right _ _) room, min_le_right _ _⟩

end Slots

section Schedule
variable {session : List WorkInterval} {start remaining : Int} {count index : Nat} {additions : List Int}
  {rangeStart rangeEnd : Int}

/-- How long a pause of a session is, in minutes. -/
def pauseDuration (session : List WorkInterval) (number : Nat) : Int := min 30 (missingMinutes session - 30 * number)

/-- The time a pause is meant for. -/
def pauseTarget (session : List WorkInterval) (number : Nat) : Int := sessionStart session + 360 * (number + 1) * minute

/-- The session is in the range, and what it lacks has room in it. -/
structure Treated (rangeStart rangeEnd : Int) (session : List WorkInterval) : Prop where
  ends : rangeStart < sessionEnd session
  starts : sessionStart session < rangeEnd
  lacking : 0 < missingMinutes session
  room : ∃ interval ∈ session, HasRoom (pauseDuration session 0) interval

instance (rangeStart rangeEnd : Int) (session : List WorkInterval) : Decidable (Treated rangeStart rangeEnd session) :=
  decidable_of_iff (rangeStart < sessionEnd session ∧ sessionStart session < rangeEnd ∧ 0 < missingMinutes session ∧
      ∃ interval ∈ session, HasRoom (pauseDuration session 0) interval)
    ⟨fun all => ⟨all.1, all.2.1, all.2.2.1, all.2.2.2⟩, fun treated => ⟨treated.ends, treated.starts, treated.lacking, treated.room⟩⟩

/-- A turn of the placement that is still needed and finds a place. -/
theorem placeBreaks_succ {placement : Int} (needed : 0 < remaining)
    (placed : breakPlacement (start + 360 * (index + 1) * minute) (min 30 remaining) session none = some placement) :
    placeBreaks session start (count + 1) index remaining =
      (placement :: (placement + min 30 remaining * minute) ::
        (placeBreaks session start count (index + 1) (remaining - min 30 remaining)).1,
        (placeBreaks session start count (index + 1) (remaining - min 30 remaining)).2) := by
  have positive : ¬ min 30 remaining ≤ 0 := by omega
  rw [placeBreaks]
  simp only [if_neg positive, placed]

theorem placeBreaks_stuck (needed : 0 < remaining)
    (found : breakPlacement (start + 360 * (index + 1) * minute) (min 30 remaining) session none = none) :
    placeBreaks session start (count + 1) index remaining = ([], remaining) := by
  have positive : ¬ min 30 remaining ≤ 0 := by omega
  rw [placeBreaks]
  simp only [if_neg positive, found]

theorem placeBreaks_enough (enough : remaining ≤ 0) : placeBreaks session start count index remaining = ([], remaining) := by
  cases count with
  | zero => rfl
  | succ count =>
    have none : min 30 remaining ≤ 0 := by omega
    rw [placeBreaks]
    simp only [if_pos none]

/-- With room for the first pause every pause is placed. -/
theorem placeBreaks_done (room : ∃ interval ∈ session, HasRoom (min 30 remaining) interval) (nonneg : 0 ≤ remaining)
    (turns : remaining ≤ 30 * count) : ∃ additions, placeBreaks session start count index remaining = (additions, 0) := by
  induction count generalizing index remaining with
  | zero =>
    obtain rfl : remaining = 0 := by omega
    exact ⟨[], rfl⟩
  | succ count ih =>
    by_cases needed : 0 < remaining
    · obtain ⟨placement, placed⟩ := breakPlacement_some room
      have later : ∃ interval ∈ session, HasRoom (min 30 (remaining - min 30 remaining)) interval := by
        obtain ⟨interval, member, fits⟩ := room
        refine ⟨interval, member, ?_⟩
        simp only [HasRoom, minute] at fits ⊢
        omega
      obtain ⟨rest, done⟩ := @ih (remaining - min 30 remaining) (index + 1) later (by omega) (by omega)
      rw [placeBreaks_succ needed placed, done]
      exact ⟨_, rfl⟩
    · obtain rfl : remaining = 0 := by omega
      exact ⟨[], placeBreaks_enough le_rfl⟩

/-- The placement makes one pause for every half hour begun. -/
theorem placeBreaks_pauses (placed : placeBreaks session start count index remaining = (additions, 0)) (number : Nat) :
    (30 * number < remaining → ∃ placement,
      breakPlacement (start + 360 * ((index + number : Nat) + 1) * minute) (min 30 (remaining - 30 * number)) session none =
          some placement ∧
        (pairUp additions)[number]? = some (placement, placement + min 30 (remaining - 30 * number) * minute)) ∧
      (remaining ≤ 30 * number → (pairUp additions)[number]? = none) := by
  induction count generalizing index remaining additions number with
  | zero =>
    obtain ⟨rfl, rfl⟩ := Prod.mk.inj placed
    exact ⟨fun more => by omega, fun _ => rfl⟩
  | succ count ih =>
    by_cases needed : 0 < remaining
    · cases found : breakPlacement (start + 360 * (index + 1) * minute) (min 30 remaining) session none with
      | none =>
        rw [placeBreaks_stuck needed found, Prod.mk.injEq] at placed
        omega
      | some placement =>
        rw [placeBreaks_succ needed found] at placed
        obtain ⟨rfl, left⟩ := Prod.mk.inj placed
        rw [pairUp_cons_cons]
        cases number with
        | zero =>
          refine ⟨fun _ => ⟨placement, ?_, ?_⟩, fun enough => by omega⟩
          · simpa using found
          · simp
        | succ number =>
          have rest := @ih (remaining - min 30 remaining) (index + 1) _ (Prod.ext rfl left) number
          rw [List.getElem?_cons_succ]
          refine ⟨fun more => ?_, fun enough => rest.2 (by omega)⟩
          have whole : min 30 remaining = 30 := by omega
          rw [whole] at rest
          obtain ⟨other, placed', listed⟩ := rest.1 (by omega)
          have same : remaining - 30 - 30 * (number : Int) = remaining - 30 * ((number + 1 : Nat) : Int) := by omega
          have turn : index + 1 + number = index + (number + 1) := by omega
          rw [same] at placed' listed
          rw [turn] at placed'
          rw [whole]
          exact ⟨other, placed', listed⟩
    · rw [placeBreaks_enough (by omega)] at placed
      obtain ⟨rfl, rfl⟩ := Prod.mk.inj placed
      exact ⟨fun more => by omega, fun _ => rfl⟩

theorem placeBreaks_size : size (pairUp (placeBreaks session start count index remaining).1) =
    (remaining - (placeBreaks session start count index remaining).2) * minute := by
  induction count generalizing index remaining with
  | zero => simp [placeBreaks]
  | succ count ih =>
    by_cases needed : 0 < remaining
    · cases found : breakPlacement (start + 360 * (index + 1) * minute) (min 30 remaining) session none with
      | none =>
        rw [placeBreaks_stuck needed found]
        simp
      | some placement =>
        rw [placeBreaks_succ needed found, pairUp_cons_cons, size_cons, ih]
        simp only [minute]
        omega
    · rw [placeBreaks_enough (by omega)]
      simp

theorem pauseDuration_bounds {number : Nat} (needed : 30 * number < missingMinutes session) :
    0 < pauseDuration session number ∧ pauseDuration session number ≤ 30 := by
  simp only [pauseDuration]
  omega

/-- Before a later pause the whole half hour is placed. -/
theorem pauseDuration_earlier {earlier later : Nat} (order : earlier < later) (needed : 30 * later < missingMinutes session) :
    pauseDuration session earlier = 30 := by
  simp only [pauseDuration]
  omega

theorem missingMinutes_le (session : List WorkInterval) : missingMinutes session ≤ 30 * requiredBreaks session := by
  have recorded := existingBreakMinutes_nonneg session
  simp only [missingMinutes]
  omega

/-- The placement finds its places exactly in the sessions that are treated. -/
theorem treated_iff : Treated rangeStart rangeEnd session ↔ ∃ additions, sessionAdditions rangeStart rangeEnd session = some additions := by
  have duration : pauseDuration session 0 = min 30 (missingMinutes session) := by simp [pauseDuration]
  constructor
  · intro treated
    obtain ⟨additions, placed⟩ := @placeBreaks_done session (sessionStart session) (missingMinutes session)
      (requiredBreaks session) 0 (duration ▸ treated.room) treated.lacking.le (missingMinutes_le session)
    refine ⟨additions, sessionAdditions_eq_some.mpr ⟨?_, treated.lacking.ne', placed⟩⟩
    exact not_or.mpr ⟨not_le.mpr treated.ends, not_le.mpr treated.starts⟩
  · rintro ⟨additions, given⟩
    obtain ⟨outside, missing, placed⟩ := sessionAdditions_eq_some.mp given
    have lacking : 0 < missingMinutes session := lt_of_le_of_ne (le_max_left _ _) missing.symm
    obtain ⟨placement, first, -⟩ := (placeBreaks_pauses placed 0).1 (by simpa using lacking)
    refine ⟨by omega, by omega, lacking, ?_⟩
    rcases breakPlacement_inside first with impossible | ⟨interval, member, low, high⟩
    · cases impossible
    · exact ⟨interval, member, low.trans high⟩

/-- The pauses of a treated session by number. -/
theorem Treated.numbered (treated : Treated rangeStart rangeEnd session) (following : Following session) (number : Nat) :
    (30 * number < missingMinutes session → ∃ interval,
      Takes session (pauseTarget session number) (pauseDuration session number) interval ∧
        (planned rangeStart rangeEnd session)[number]? =
          some (fitted (pauseTarget session number) (pauseDuration session number) interval,
            fitted (pauseTarget session number) (pauseDuration session number) interval + pauseDuration session number * minute)) ∧
      (missingMinutes session ≤ 30 * number → (planned rangeStart rangeEnd session)[number]? = none) := by
  obtain ⟨additions, given⟩ := treated_iff.mp treated
  have placed := (sessionAdditions_eq_some.mp given).2.2
  have pauses : planned rangeStart rangeEnd session = pairUp additions := by rw [planned, given]; rfl
  have numbered := placeBreaks_pauses placed number
  rw [Nat.zero_add] at numbered
  rw [pauses]
  refine ⟨fun needed => ?_, numbered.2⟩
  obtain ⟨placement, found, listed⟩ := numbered.1 needed
  obtain ⟨interval, takes, rfl⟩ := breakPlacement_takes following found
  exact ⟨interval, takes, listed⟩

theorem untreated_planned (untreated : ¬ Treated rangeStart rangeEnd session) : planned rangeStart rangeEnd session = [] := by
  cases given : sessionAdditions rangeStart rangeEnd session with
  | none => rw [planned, given]; rfl
  | some additions => exact absurd (treated_iff.mpr ⟨additions, given⟩) untreated

theorem Treated.size (treated : Treated rangeStart rangeEnd session) :
    size (planned rangeStart rangeEnd session) = missingMinutes session * minute := by
  obtain ⟨additions, given⟩ := treated_iff.mp treated
  have placed := (sessionAdditions_eq_some.mp given).2.2
  have total := @placeBreaks_size session (sessionStart session) (missingMinutes session) (requiredBreaks session) 0
  rw [placed, sub_zero] at total
  rw [planned, given]
  exact total

end Schedule

section Crowding
variable {session : List WorkInterval} {earlier later : Nat} {interval other : WorkInterval} {rangeStart rangeEnd : Int}

/-- Two pauses have time between them. -/
def Clear (left right : Int × Int) : Prop := left.2 < right.1 ∨ right.2 < left.1

/-- Two pauses of a session go to one interval, and the later one is meant for its first half hour, the interval ends soon
after the time of the earlier one, or it is too short for both. -/
structure Crowd (session : List WorkInterval) (earlier later : Nat) (interval : WorkInterval) : Prop where
  order : earlier < later
  needed : 30 * later < missingMinutes session
  takes : Takes session (pauseTarget session earlier) 30 interval
  takes' : Takes session (pauseTarget session later) (pauseDuration session later) interval
  near : pauseTarget session later ≤ interval.start + 31 * minute ∨
    interval.finish ≤ pauseTarget session earlier + (31 + pauseDuration session later) * minute ∨
    interval.finish - interval.start ≤ (32 + pauseDuration session later) * minute

def Crowded (session : List WorkInterval) : Prop := ∃ earlier later interval, Crowd session earlier later interval

/-- Two pauses that go to intervals of their own are clear, and in one interval they are unless it is crowded. -/
theorem clear_iff (following : Following session) (order : earlier < later) (needed : 30 * later < missingMinutes session)
    (takes : Takes session (pauseTarget session earlier) 30 interval)
    (takes' : Takes session (pauseTarget session later) (pauseDuration session later) other) :
    Clear (fitted (pauseTarget session earlier) 30 interval, fitted (pauseTarget session earlier) 30 interval + 30 * minute)
      (fitted (pauseTarget session later) (pauseDuration session later) other,
        fitted (pauseTarget session later) (pauseDuration session later) other + pauseDuration session later * minute) ↔
      ¬ (interval = other ∧ Crowd session earlier later interval) := by
  have duration := pauseDuration_bounds needed
  by_cases same : interval = other
  · subst same
    have apart : pauseTarget session earlier + 360 * minute ≤ pauseTarget session later := by
      simp only [pauseTarget, minute]
      omega
    have room := takes.room
    have room' := takes'.room
    have crowd : Crowd session earlier later interval ↔ pauseTarget session later ≤ interval.start + 31 * minute ∨
        interval.finish ≤ pauseTarget session earlier + (31 + pauseDuration session later) * minute ∨
        interval.finish - interval.start ≤ (32 + pauseDuration session later) * minute :=
      ⟨Crowd.near, fun near => ⟨order, needed, takes, takes', near⟩⟩
    rw [crowd, eq_self, true_and]
    clear crowd
    generalize pauseDuration session later = length at duration room' ⊢
    generalize pauseTarget session earlier = first at apart ⊢
    generalize pauseTarget session later = second at apart ⊢
    simp only [HasRoom, minute] at apart room room'
    simp only [Clear, fitted, minute]
    omega
  · refine iff_of_true ?_ fun both => same both.1
    have first := @fitted_bounds (pauseTarget session earlier) 30 interval takes.room
    have second := @fitted_bounds (pauseTarget session later) (pauseDuration session later) other takes'.room
    simp only [Clear, minute] at first second ⊢
    rcases following.disjoint takes.listed takes'.listed with equal | before | after
    · exact absurd equal same
    · omega
    · omega

theorem Treated.clear_iff (treated : Treated rangeStart rangeEnd session) (following : Following session) :
    (planned rangeStart rangeEnd session).Pairwise Clear ↔ ¬ Crowded session := by
  rw [List.pairwise_iff_getElem]
  constructor
  · rintro clear ⟨earlier, later, interval, crowd⟩
    have whole := pauseDuration_earlier crowd.order crowd.needed
    obtain ⟨first, takes, listed⟩ := (treated.numbered following earlier).1 (by have := crowd.needed; have := crowd.order; omega)
    obtain ⟨second, takes', listed'⟩ := (treated.numbered following later).1 crowd.needed
    rw [whole] at takes listed
    obtain ⟨inside, here⟩ := List.getElem?_eq_some_iff.mp listed
    obtain ⟨inside', here'⟩ := List.getElem?_eq_some_iff.mp listed'
    have apart := clear earlier later inside inside' crowd.order
    rw [here, here', Proofs.clear_iff following crowd.order crowd.needed takes takes'] at apart
    obtain rfl := takes.unique following (by decide) crowd.takes
    exact apart ⟨crowd.takes'.unique following (pauseDuration_bounds crowd.needed).1.le takes', crowd⟩
  · intro free earlier later inside inside' order
    have needed : 30 * later < missingMinutes session := by
      by_contra enough
      have none := (treated.numbered following later).2 (not_lt.mp enough)
      rw [List.getElem?_eq_none_iff] at none
      omega
    have whole := pauseDuration_earlier order needed
    obtain ⟨first, takes, listed⟩ := (treated.numbered following earlier).1 (by omega)
    obtain ⟨second, takes', listed'⟩ := (treated.numbered following later).1 needed
    rw [whole] at takes listed
    rw [(List.getElem?_eq_some_iff.mp listed).2, (List.getElem?_eq_some_iff.mp listed').2,
      Proofs.clear_iff following order needed takes takes']
    exact fun both => free ⟨earlier, later, first, both.2⟩

end Crowding

section Intervals
variable {intervals session : List WorkInterval} {rangeStart rangeEnd : Int}

instance : IsTrans WorkInterval intervalLe where
  trans first second third := by
    simp only [intervalLe]
    omega

instance : Std.Total intervalLe where
  total left right := by
    simp only [intervalLe]
    omega

/-- Work in any order: every interval has a length, and no two overlap. -/
structure Separate (intervals : List WorkInterval) : Prop where
  positive : ∀ interval ∈ intervals, interval.start < interval.finish
  disjoint : intervals.Pairwise fun left right => left.finish ≤ right.start ∨ right.finish ≤ left.start

theorem Separate.following (separate : Separate intervals) : Following (intervals.insertionSort intervalLe) := by
  have perm := List.perm_insertionSort intervalLe intervals
  have positive : ∀ interval ∈ intervals.insertionSort intervalLe, interval.start < interval.finish :=
    fun interval member => separate.positive interval (perm.mem_iff.mp member)
  have disjoint : (intervals.insertionSort intervalLe).Pairwise fun left right =>
      left.finish ≤ right.start ∨ right.finish ≤ left.start :=
    (perm.pairwise_iff fun either => either.symm).mpr separate.disjoint
  refine ⟨positive, ?_⟩
  refine (List.Pairwise.and_mem.mp ((List.pairwise_insertionSort intervalLe intervals).and disjoint)).imp ?_
  rintro left right ⟨inLeft, inRight, order, before | after⟩
  · exact before
  · have := positive left inLeft
    have := positive right inRight
    simp only [intervalLe] at order
    omega

theorem Separate.following_session (separate : Separate intervals) (listed : session ∈ workSessions intervals) :
    Following session ∧ session ≠ [] := by
  have whole := separate.following.2
  rw [← List.flatten_splitBy close (intervals.insertionSort intervalLe), List.pairwise_flatten] at whole
  refine ⟨⟨fun interval member => separate.positive interval (mem_workSessions listed member), whole.1 session listed⟩, ?_⟩
  exact List.ne_nil_of_mem_splitBy listed

theorem Separate.sessions (separate : Separate intervals) : (workSessions intervals).Pairwise fun left right =>
    ∀ interval ∈ left, ∀ other ∈ right, interval.finish ≤ other.start := by
  have whole := separate.following.2
  rw [← List.flatten_splitBy close (intervals.insertionSort intervalLe), List.pairwise_flatten] at whole
  exact whole.2

/-- The intervals of another session all come before those of this one, or all after them. -/
theorem Separate.sessions_disjoint (separate : Separate intervals) {other : List WorkInterval}
    (listed : session ∈ workSessions intervals) (listed' : other ∈ workSessions intervals) :
    session = other ∨ (∀ interval ∈ session, ∀ other' ∈ other, interval.finish ≤ other'.start) ∨
      ∀ other' ∈ other, ∀ interval ∈ session, other'.finish ≤ interval.start := pairwise_either separate.sessions listed listed'

/-- A session reaches from its start to its end. -/
theorem session_span (following : Following session) (nonempty : session ≠ []) {interval : WorkInterval} (member : interval ∈ session) :
    sessionStart session ≤ interval.start ∧ interval.finish ≤ sessionEnd session := by
  constructor
  · cases session with
    | nil => cases member
    | cons first session =>
      have start : sessionStart (first :: session) = first.start := rfl
      rcases List.mem_cons.mp member with rfl | later
      · exact le_of_eq start
      · have := (List.pairwise_cons.mp following.2).1 interval later
        have := following.1 first List.mem_cons_self
        omega
  · rcases session.eq_nil_or_concat with rfl | ⟨front, last, rfl⟩
    · cases member
    · rw [List.concat_eq_append] at following member ⊢
      have finish : sessionEnd (front ++ [last]) = last.finish := by simp [sessionEnd]
      rcases List.mem_append.mp member with earlier | same
      · have := (List.pairwise_append.mp following.2).2.2 interval earlier last List.mem_cons_self
        have := following.1 last (by simp)
        omega
      · rw [finish, List.mem_singleton.mp same]

/-- The ends of a session are ends of its intervals. -/
theorem session_ends (nonempty : session ≠ []) :
    (∃ interval ∈ session, interval.start = sessionStart session) ∧ ∃ interval ∈ session, interval.finish = sessionEnd session := by
  constructor
  · cases session with
    | nil => exact absurd rfl nonempty
    | cons first session => exact ⟨first, List.mem_cons_self, rfl⟩
  · rcases session.eq_nil_or_concat with rfl | ⟨front, last, rfl⟩
    · exact absurd rfl nonempty
    · exact ⟨last, by simp, by simp [sessionEnd]⟩

end Intervals

section Returned
variable {intervals session : List WorkInterval} {rangeStart rangeEnd : Int}

/-- The pauses that the groups of boundaries stand for. -/
def returnedPauses (intervals : List WorkInterval) (rangeStart rangeEnd : Int) : List (Int × Int) :=
  (missingBreakEventGroups intervals rangeStart rangeEnd).flatMap pairUp

theorem returnedPauses_eq : returnedPauses intervals rangeStart rangeEnd =
    (workSessions intervals).flatMap (planned rangeStart rangeEnd) := planned_groups intervals

theorem placeBreaks_walls {start remaining : Int} {count index : Nat} :
    pauseWalls (pairUp (placeBreaks session start count index remaining).1) = (placeBreaks session start count index remaining).1 := by
  induction count generalizing index remaining with
  | zero => rfl
  | succ count ih =>
    by_cases needed : 0 < remaining
    · cases found : breakPlacement (start + 360 * (index + 1) * minute) (min 30 remaining) session none with
      | none =>
        rw [placeBreaks_stuck needed found]
        rfl
      | some placement =>
        rw [placeBreaks_succ needed found, pairUp_cons_cons, pauseWalls, List.flatMap_cons, ← pauseWalls, ih]
        rfl
    · rw [placeBreaks_enough (by omega)]
      rfl

/-- The returned boundaries are the ends of these pauses. -/
theorem pauseWalls_returned :
    pauseWalls (returnedPauses intervals rangeStart rangeEnd) = (missingBreakEventGroups intervals rangeStart rangeEnd).flatten := by
  rw [returnedPauses, pauseWalls, List.flatMap_assoc, List.flatten_eq_flatMap]
  apply List.flatMap_congr
  intro additions listed
  obtain ⟨session, -, given⟩ := List.mem_filterMap.mp listed
  have placed := (sessionAdditions_eq_some.mp given).2.2
  have walls := @placeBreaks_walls session (sessionStart session) (missingMinutes session) (requiredBreaks session) 0
  rw [placed] at walls
  exact walls

theorem returned_inside : ∀ pause ∈ returnedPauses intervals rangeStart rangeEnd,
    ∃ interval ∈ intervals, interval.start < pause.1 ∧ pause.1 < pause.2 ∧ pause.2 < interval.finish := by
  rw [returnedPauses_eq]
  exact planned_inside rangeStart rangeEnd intervals

/-- Pauses meet within a crowded session or nowhere. -/
theorem Separate.clear_iff (separate : Separate intervals) : (returnedPauses intervals rangeStart rangeEnd).Pairwise Clear ↔
    ∀ session ∈ workSessions intervals, Treated rangeStart rangeEnd session → ¬ Crowded session := by
  rw [returnedPauses_eq, List.pairwise_flatMap]
  have across : (workSessions intervals).Pairwise fun left right =>
      ∀ pause ∈ planned rangeStart rangeEnd left, ∀ other ∈ planned rangeStart rangeEnd right, Clear pause other := by
    refine separate.sessions.imp fun before pause member other member' => ?_
    obtain ⟨interval, held, bounds⟩ := mem_planned member
    obtain ⟨interval', held', bounds'⟩ := mem_planned member'
    have := before interval held interval' held'
    exact .inl (by omega)
  rw [and_iff_left across]
  refine forall₂_congr fun session listed => ?_
  by_cases treated : Treated rangeStart rangeEnd session
  · rw [treated.clear_iff (separate.following_session listed).1]
    exact ⟨fun free _ => free, fun free => free treated⟩
  · rw [untreated_planned treated]
    exact iff_of_true List.Pairwise.nil fun other => absurd other treated

theorem clear_walls {pauses : List (Int × Int)} (forward : ∀ pause ∈ pauses, pause.1 < pause.2) (clear : pauses.Pairwise Clear) :
    (pauseWalls pauses).Nodup := by
  rw [pauseWalls, List.nodup_flatMap]
  refine ⟨fun pause member => ?_, (List.Pairwise.and_mem.mp clear).imp ?_⟩
  · have := forward pause member
    simp only [List.nodup_cons, List.mem_singleton, List.not_mem_nil, not_false_eq_true, List.nodup_nil, and_self, and_true]
    omega
  · rintro left right ⟨inLeft, inRight, apart⟩ wall first second
    have := forward left inLeft
    have := forward right inRight
    simp only [List.mem_cons, List.not_mem_nil, or_false] at first second
    simp only [Clear] at apart
    omega

end Returned

section Repairing
variable {intervals session : List WorkInterval} {rangeStart rangeEnd time : Int} {before after : List AttendanceEvent}

/-- Some interval holds the time. -/
def WorkedAt (intervals : List WorkInterval) (time : Int) : Prop :=
  ∃ interval ∈ intervals, interval.start ≤ time ∧ time < interval.finish

instance (intervals : List WorkInterval) : DecidablePred (WorkedAt intervals) :=
  fun _ => inferInstanceAs (Decidable (∃ interval ∈ intervals, _))

/-- The worked time from the start of a session to its end. -/
def workedTime (intervals session : List WorkInterval) : Int :=
  ((stretch (sessionStart session) (sessionEnd session)).filter (WorkedAt intervals)).card

/-- The events that pair to the intervals, and these with the new boundaries. -/
structure Repairing (intervals : List WorkInterval) (boundaries : List Int) (before after : List AttendanceEvent) : Prop where
  paired : (pairEvents before).Perm intervals
  added : (after.map (·.occurredAt.wall)).Perm (before.map (·.occurredAt.wall) ++ boundaries)

theorem workedAt_perm {other : List WorkInterval} (same : intervals.Perm other) : WorkedAt intervals time ↔ WorkedAt other time := by
  simp only [WorkedAt, same.mem_iff]

/-- The events of a day tell which of its time is worked. -/
theorem workedAt_iff (events : List AttendanceEvent) :
    WorkedAt (pairEvents events) time ↔ Covers (pairUp (wallsOn events (dateOf time))) time := by
  constructor
  · rintro ⟨interval, paired, bounds⟩
    obtain ⟨below, sameDay⟩ := pairEvents_sameDay paired
    have today : dateOf interval.start = dateOf time := by
      simp only [dateOf, day] at sameDay ⊢
      omega
    have listed := (mem_pairEvents_iff.mp paired).2
    rw [today] at listed
    exact ⟨_, listed, bounds⟩
  · rintro ⟨pair, listed, bounds⟩
    have today := (mem_wallsOn.mp (mem_of_mem_pairUp listed).1).1
    refine ⟨⟨pair.1, pair.2⟩, mem_pairEvents_iff.mpr ⟨by dsimp only; omega, ?_⟩, bounds⟩
    rw [today]
    exact listed

theorem wallsOn_added {boundaries : List Int} (added : (after.map (·.occurredAt.wall)).Perm (before.map (·.occurredAt.wall) ++ boundaries))
    (date : Int) : (wallsOn after date).Perm (wallsOn before date ++ boundaries.filter (dateOf · = date)) := by
  have walls (events : List AttendanceEvent) :
      (eventsOn events date).map (·.occurredAt.wall) = (events.map (·.occurredAt.wall)).filter (dateOf · = date) := by
    rw [List.filter_map]
    rfl
  refine (wallsOn_perm _ _).trans ?_
  rw [walls]
  refine (added.filter _).trans ?_
  rw [List.filter_append, ← walls]
  exact (wallsOn_perm _ _).symm.append_right _

/-- The boundaries on a day are the ends of its pauses. -/
theorem ends_filter {pauses : List (Int × Int)} (oneDay : ∀ pause ∈ pauses, dateOf pause.1 = dateOf pause.2) (date : Int) :
    (ends pauses).filter (dateOf · = date) = ends (pauses.filter (dateOf ·.1 = date)) := by
  induction pauses with
  | nil => rfl
  | cons pause pauses ih =>
    obtain ⟨here, oneDay⟩ := List.forall_mem_cons.mp oneDay
    rw [ends, List.flatMap_cons, List.filter_append, ← ends, ih oneDay]
    by_cases today : dateOf pause.1 = date
    · have today' : dateOf pause.2 = date := here.symm.trans today
      simp [ends, today, today']
    · have today' : ¬ dateOf pause.2 = date := here ▸ today
      simp [today, today']

/-- Pairing the events anew takes the time of the pauses from the work, and nothing else. -/
theorem Repairing.workedAt (repairing : Repairing intervals (missingBreakEventGroups intervals rangeStart rangeEnd).flatten before after)
    (clear : (returnedPauses intervals rangeStart rangeEnd).Pairwise Clear) :
    WorkedAt (pairEvents after) time ↔ WorkedAt intervals time ∧ ¬ Covers (returnedPauses intervals rangeStart rangeEnd) time := by
  have held : ∀ pause ∈ returnedPauses intervals rangeStart rangeEnd,
      ∃ interval ∈ pairEvents before, interval.start < pause.1 ∧ pause.1 < pause.2 ∧ pause.2 < interval.finish := by
    intro pause member
    obtain ⟨interval, worked, bounds⟩ := returned_inside pause member
    exact ⟨interval, repairing.paired.mem_iff.mpr worked, bounds⟩
  have oneDay : ∀ pause ∈ returnedPauses intervals rangeStart rangeEnd, dateOf pause.1 = dateOf pause.2 := by
    intro pause member
    obtain ⟨interval, paired, bounds⟩ := held pause member
    have sameDay := (pairEvents_sameDay paired).2
    simp only [dateOf, day] at sameDay ⊢
    omega
  have perm := wallsOn_added repairing.added (dateOf time)
  have boundaries : (missingBreakEventGroups intervals rangeStart rangeEnd).flatten = ends (returnedPauses intervals rangeStart rangeEnd) :=
    pauseWalls_returned.symm
  rw [boundaries, ends_filter oneDay] at perm
  have today : Covers ((returnedPauses intervals rangeStart rangeEnd).filter (dateOf ·.1 = dateOf time)) time ↔
      Covers (returnedPauses intervals rangeStart rangeEnd) time := by
    constructor
    · rintro ⟨pause, member, bounds⟩
      exact ⟨pause, (List.mem_filter.mp member).1, bounds⟩
    · rintro ⟨pause, member, bounds⟩
      have sameDay := oneDay pause member
      have onDay : dateOf pause.1 = dateOf time := by
        simp only [dateOf, day] at sameDay ⊢
        omega
      exact ⟨pause, List.mem_filter.mpr ⟨member, decide_eq_true onDay⟩, bounds⟩
  have apart : NonOverlapping ((returnedPauses intervals rangeStart rangeEnd).filter (dateOf ·.1 = dateOf time)) := by
    refine (clear.filter _).imp fun either => ?_
    simp only [Clear] at either
    omega
  rw [workedAt_iff, covers_inserted (wallsOn_sorted _ _) (wallsOn_sorted _ _) perm apart, today, ← workedAt_iff,
    workedAt_perm repairing.paired]
  · intro pause member
    obtain ⟨interval, -, bounds⟩ := held pause (List.mem_filter.mp member).1
    exact bounds.2.1.le
  · intro pause member
    obtain ⟨listed, onDay⟩ := List.mem_filter.mp member
    obtain ⟨interval, paired, bounds⟩ := held pause listed
    obtain ⟨below, sameDay⟩ := pairEvents_sameDay paired
    have start : dateOf interval.start = dateOf time := by
      have onDay := of_decide_eq_true onDay
      simp only [dateOf, day] at onDay sameDay ⊢
      omega
    have pair := (mem_pairEvents_iff.mp paired).2
    rw [start] at pair
    exact ⟨_, pair, bounds.1, bounds.2.2⟩

/-- Within a session only its own pauses stand. -/
theorem Separate.covers_session (separate : Separate intervals) (listed : session ∈ workSessions intervals)
    (inside : sessionStart session ≤ time ∧ time < sessionEnd session) :
    Covers (returnedPauses intervals rangeStart rangeEnd) time ↔ Covers (planned rangeStart rangeEnd session) time := by
  rw [returnedPauses_eq]
  constructor
  · rintro ⟨pause, member, bounds⟩
    obtain ⟨other, listed', given⟩ := List.mem_flatMap.mp member
    obtain ⟨interval, held, around⟩ := mem_planned given
    obtain ⟨⟨first, member', start⟩, last, member'', finish⟩ := session_ends (separate.following_session listed).2
    rcases separate.sessions_disjoint listed listed' with rfl | earlier | later
    · exact ⟨pause, given, bounds⟩
    · have := earlier last member'' interval held
      omega
    · have := later interval held first member'
      omega
  · rintro ⟨pause, member, bounds⟩
    exact ⟨pause, List.mem_flatMap.mpr ⟨session, listed, member⟩, bounds⟩

/-- The pauses of a session are work of it. -/
theorem Separate.planned_worked (separate : Separate intervals) (listed : session ∈ workSessions intervals)
    (covered : Covers (planned rangeStart rangeEnd session) time) :
    (sessionStart session ≤ time ∧ time < sessionEnd session) ∧ WorkedAt intervals time := by
  obtain ⟨pause, member, bounds⟩ := covered
  obtain ⟨interval, held, around⟩ := mem_planned member
  obtain ⟨following, nonempty⟩ := separate.following_session listed
  have span := session_span following nonempty held
  exact ⟨by omega, interval, mem_workSessions listed held, by omega, by omega⟩

/-- A session loses what its pauses cover. -/
theorem Repairing.workedTime (repairing : Repairing intervals (missingBreakEventGroups intervals rangeStart rangeEnd).flatten before after)
    (separate : Separate intervals) (clear : (returnedPauses intervals rangeStart rangeEnd).Pairwise Clear)
    (listed : session ∈ workSessions intervals) :
    Proofs.workedTime (pairEvents after) session = Proofs.workedTime intervals session - size (planned rangeStart rangeEnd session) := by
  have rest : (stretch (sessionStart session) (sessionEnd session)).filter (WorkedAt (pairEvents after)) =
      (stretch (sessionStart session) (sessionEnd session)).filter (WorkedAt intervals) \ cover (planned rangeStart rangeEnd session) := by
    ext time
    rw [Finset.mem_sdiff, Finset.mem_filter, Finset.mem_filter, mem_cover, and_assoc]
    refine and_congr_right fun inside => ?_
    rw [repairing.workedAt clear, separate.covers_session listed (mem_stretch.mp inside)]
  have subset : cover (planned rangeStart rangeEnd session) ⊆
      (stretch (sessionStart session) (sessionEnd session)).filter (WorkedAt intervals) := by
    intro time covered
    obtain ⟨inside, worked⟩ := separate.planned_worked listed (mem_cover.mp covered)
    exact Finset.mem_filter.mpr ⟨mem_stretch.mpr inside, worked⟩
  have own : (planned rangeStart rangeEnd session).Pairwise Clear := by
    rw [returnedPauses_eq, List.pairwise_flatMap] at clear
    exact clear.1 session listed
  have apart : NonOverlapping (planned rangeStart rangeEnd session) := by
    refine own.imp fun either => ?_
    simp only [Clear] at either
    omega
  have forward : ∀ pause ∈ planned rangeStart rangeEnd session, pause.1 ≤ pause.2 := by
    intro pause member
    obtain ⟨interval, -, bounds⟩ := mem_planned member
    exact bounds.2.1.le
  have count := Finset.card_sdiff_add_card_eq_card subset
  rw [Proofs.workedTime, Proofs.workedTime, ← card_cover apart forward, rest]
  omega

end Repairing

section Placement
variable {intervals : List WorkInterval}

/-- The returned groups are pauses of the work, apart from one another, and pairing them with the events takes from each
session what it lacks. -/
structure WellPlaced (intervals : List WorkInterval) (rangeStart rangeEnd : Int) : Prop where
  apart : (returnedPauses intervals rangeStart rangeEnd).Pairwise Clear
  distinct : (missingBreakEventGroups intervals rangeStart rangeEnd).flatten.Nodup
  fresh : ∀ boundary ∈ (missingBreakEventGroups intervals rangeStart rangeEnd).flatten, ∀ interval ∈ intervals,
    boundary ≠ interval.start ∧ boundary ≠ interval.finish
  inside : ∀ pause ∈ returnedPauses intervals rangeStart rangeEnd,
    ∃ interval ∈ intervals, interval.start < pause.1 ∧ pause.1 < pause.2 ∧ pause.2 < interval.finish
  worked : ∀ before after, Repairing intervals (missingBreakEventGroups intervals rangeStart rangeEnd).flatten before after →
    ∀ time, WorkedAt (pairEvents after) time ↔ WorkedAt intervals time ∧ ¬ Covers (returnedPauses intervals rangeStart rangeEnd) time
  removed : ∀ before after, Repairing intervals (missingBreakEventGroups intervals rangeStart rangeEnd).flatten before after →
    ∀ session ∈ workSessions intervals, workedTime (pairEvents after) session = workedTime intervals session -
      if (sessionAdditions rangeStart rangeEnd session).isSome then missingMinutes session * minute else 0

/-- A time strictly inside an interval ends no interval. -/
theorem Separate.inside_fresh (separate : Separate intervals) {interval other : WorkInterval} {time : Int}
    (held : interval ∈ intervals) (inside : interval.start < time ∧ time < interval.finish) (member : other ∈ intervals) :
    time ≠ other.start ∧ time ≠ other.finish := by
  have := separate.positive other member
  rcases pairwise_either separate.disjoint held member with rfl | before | after
  · omega
  · omega
  · omega

/-- The pauses are well placed exactly when no session that gets pauses is crowded. -/
theorem backfilled_pauses_placed (separate : Separate intervals) (rangeStart rangeEnd : Int) :
    WellPlaced intervals rangeStart rangeEnd ↔
      ∀ session ∈ workSessions intervals, Treated rangeStart rangeEnd session → ¬ Crowded session := by
  rw [← separate.clear_iff]
  refine ⟨WellPlaced.apart, fun clear => ⟨clear, ?_, ?_, returned_inside, fun before after repairing time => repairing.workedAt clear, ?_⟩⟩
  · rw [← pauseWalls_returned]
    refine clear_walls (fun pause member => ?_) clear
    obtain ⟨interval, -, bounds⟩ := returned_inside pause member
    exact bounds.2.1
  · intro boundary listed interval member
    rw [← pauseWalls_returned] at listed
    obtain ⟨pause, given, either⟩ := mem_pauseWalls.mp listed
    obtain ⟨other, held, bounds⟩ := returned_inside pause given
    exact separate.inside_fresh held (by omega) member
  · intro before after repairing session listed
    rw [repairing.workedTime separate clear listed]
    congr 1
    by_cases treated : Treated rangeStart rangeEnd session
    · rw [treated.size, if_pos (Option.isSome_iff_exists.mpr (treated_iff.mp treated))]
    · rw [untreated_planned treated, if_neg fun given => treated (treated_iff.mpr (Option.isSome_iff_exists.mp given))]
      rfl

/-- Nine hours of work in one stretch. -/
def sampleStretch : WorkInterval := ⟨480 * minute, 1020 * minute⟩

theorem sample_pauses_placed : WellPlaced [sampleStretch] 0 day := by
  refine (backfilled_pauses_placed ⟨by decide, by decide⟩ 0 day).mpr ?_
  rintro session listed - ⟨earlier, later, interval, crowd⟩
  have single : workSessions [sampleStretch] = [[sampleStretch]] := by decide
  rw [single, List.mem_singleton] at listed
  have needed := crowd.needed
  have order := crowd.order
  have lacking : missingMinutes session = 30 := by
    rw [listed]
    decide
  omega

/-- Work on whole minutes of one day whose two missing pauses overlap: no interval holds the time of the first, so it
goes to the last one, where the second has its time. -/
theorem overlapping_pauses : ¬ ∀ intervals rangeStart rangeEnd, DisjointWork intervals →
    (∀ interval ∈ intervals, dateOf interval.start = dateOf interval.finish) → WellPlaced intervals rangeStart rangeEnd := by
  intro always
  have work : DisjointWork [⟨0, 360 * minute⟩, ⟨361 * minute, 690 * minute⟩, ⟨691 * minute, 1000 * minute⟩] :=
    ⟨by decide, by decide, by decide⟩
  have pauses : returnedPauses [⟨0, 360 * minute⟩, ⟨361 * minute, 690 * minute⟩, ⟨691 * minute, 1000 * minute⟩] 0 day =
      [(692 * minute, 722 * minute), (720 * minute, 748 * minute)] := by decide
  have apart := (always _ 0 day work (by decide)).apart
  rw [pauses] at apart
  exact absurd apart (by simp only [List.pairwise_cons, Clear, minute]; simp)

end Placement

end Dagmar.Proofs
