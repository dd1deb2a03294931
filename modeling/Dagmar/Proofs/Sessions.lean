import Dagmar.Proofs.DayWalls
import Dagmar.Proofs.Pauses

/-! Work sessions before and after pauses are inserted. Intervals of distinct
times follow one another; a pause inside an interval cuts that interval alone, so
a session falls into parts without regard to the others. -/

namespace Dagmar.Proofs
open Library.Pairing

section Intervals

def asInterval (pair : Int × Int) : WorkInterval := ⟨pair.1, pair.2⟩

/-- Intervals that follow one another. -/
def Apart (intervals : List WorkInterval) : Prop :=
  (∀ interval ∈ intervals, interval.start < interval.finish) ∧
    intervals.Pairwise fun left right => left.finish < right.start

/-- No two events are at the same wall time. -/
def Distinct (events : List AttendanceEvent) : Prop := (events.map (·.occurredAt.wall)).Nodup

instance (events : List AttendanceEvent) : Decidable (Distinct events) := inferInstanceAs (Decidable (List.Nodup _))

theorem wallsOn_ascending {events : List AttendanceEvent} (distinct : Distinct events) (date : Int) :
    (wallsOn events date).Pairwise (· < ·) := by
  have nodup : (wallsOn events date).Nodup := by
    rw [(wallsOn_perm events date).nodup_iff]
    exact (List.filter_sublist.map _).nodup distinct
  exact ((wallsOn_sorted events date).and nodup).imp fun both => lt_of_le_of_ne both.1 both.2

theorem dayPairs_distinct {events : List AttendanceEvent} (distinct : Distinct events) (date : Int) :
    dayPairs (orderedEvents (eventsOn events date)) = pairUp (orderedEvents (eventsOn events date)) := by
  apply dayPairs_ascending (ordered_today events date)
  rw [ordered_walls]
  exact wallsOn_ascending distinct date

theorem dayWork_eq {events : List AttendanceEvent} (distinct : Distinct events) (date : Int) :
    dayWork events date = (pairUp (wallsOn events date)).map asInterval := by
  rw [dayWork, dayPairs_distinct distinct, wallsOn, ← ordered_walls, pairUp_map, List.map_map]
  rfl

theorem dayWork_apart {events : List AttendanceEvent} (distinct : Distinct events) (date : Int) :
    Apart (dayWork events date) := by
  refine ⟨fun interval member => (mem_dayWork member).1, ?_⟩
  rw [dayWork_eq distinct, List.pairwise_map]
  exact pairUp_pairwise (wallsOn_ascending distinct date)

theorem pairEvents_apart {events : List AttendanceEvent} (distinct : Distinct events) : Apart (pairEvents events) := by
  have days : (((orderedEvents events).map (·.occurredAt.date)).dedup).Pairwise (· < ·) := by
    have sorted : ((orderedEvents events).map (·.occurredAt.date)).Pairwise (· ≤ ·) := by
      rw [List.pairwise_map]
      refine (List.pairwise_insertionSort eventLe _).imp ?_
      intro left right below
      simp only [eventLe, Timestamp.date, dateOf, day] at below ⊢
      omega
    exact ((sorted.sublist (List.dedup_sublist _)).and (List.nodup_dedup _)).imp fun both => lt_of_le_of_ne both.1 both.2
  refine ⟨fun interval member => (pairEvents_sameDay member).1, ?_⟩
  rw [pairEvents_days, List.pairwise_flatMap]
  refine ⟨fun date _ => (dayWork_apart distinct date).2, days.imp ?_⟩
  intro earlier later before left inLeft right inRight
  have ends := (mem_dayWork inLeft).2.2
  have starts := (mem_dayWork inRight).2.1
  simp only [dateOf, day] at ends starts
  omega

theorem Apart.nodup {intervals : List WorkInterval} (apart : Apart intervals) : intervals.Nodup := by
  have each := List.Pairwise.and_mem.mp apart.2
  refine each.imp ?_
  rintro left right ⟨inLeft, -, before⟩ rfl
  have := apart.1 left inLeft
  omega

/-- Intervals that follow one another are determined by which they are. -/
theorem Apart.ext {first second : List WorkInterval} (apart : Apart first) (apart' : Apart second)
    (same : ∀ interval, interval ∈ first ↔ interval ∈ second) : first = second := by
  have perm := (List.perm_ext_iff_of_nodup apart.nodup apart'.nodup).mpr same
  refine List.Perm.eq_of_pairwise ?_ apart.2 apart'.2 perm
  intro left right inLeft inRight before after
  have := apart.1 left inLeft
  have := apart'.1 right inRight
  omega

theorem Apart.disjoint {intervals : List WorkInterval} (apart : Apart intervals) {left right : WorkInterval}
    (inLeft : left ∈ intervals) (inRight : right ∈ intervals) :
    left = right ∨ left.finish < right.start ∨ right.finish < left.start := pairwise_either apart.2 inLeft inRight

theorem Apart.sorted {intervals : List WorkInterval} (apart : Apart intervals) :
    intervals.insertionSort intervalLe = intervals := by
  apply List.Pairwise.insertionSort_eq
  refine (List.Pairwise.and_mem.mp apart.2).imp ?_
  rintro left right ⟨inLeft, -, before⟩
  have := apart.1 left inLeft
  exact .inl (by omega)

end Intervals

section Cuts
variable {pauses : List (Int × Int)} {intervals : List WorkInterval} {interval : WorkInterval}

/-- The begins and the ends of pauses. -/
def pauseWalls (pauses : List (Int × Int)) : List Int := pauses.flatMap fun pair => [pair.1, pair.2]

/-- Each pause lies strictly inside one of the intervals. -/
def Inside (pauses : List (Int × Int)) (intervals : List WorkInterval) : Prop :=
  ∀ pause ∈ pauses, ∃ interval ∈ intervals, interval.start < pause.1 ∧ pause.1 < pause.2 ∧ pause.2 < interval.finish

/-- The work that pauses leave of an interval. -/
def cutInterval (pauses : List (Int × Int)) (interval : WorkInterval) : List WorkInterval :=
  (cutPair (pauseWalls pauses) (interval.start, interval.finish)).map asInterval

def cutSession (pauses : List (Int × Int)) (session : List WorkInterval) : List WorkInterval :=
  session.flatMap (cutInterval pauses)

theorem mem_pauseWalls {wall : Int} : wall ∈ pauseWalls pauses ↔ ∃ pause ∈ pauses, wall = pause.1 ∨ wall = pause.2 := by
  simp [pauseWalls]

/-- In intervals that follow one another a pause has both ends inside an interval, or none. -/
theorem Inside.both (inside : Inside pauses intervals) (apart : Apart intervals) (member : interval ∈ intervals)
    {pause : Int × Int} (listed : pause ∈ pauses) :
    interval.start < pause.1 ∧ pause.1 < interval.finish ↔ interval.start < pause.2 ∧ pause.2 < interval.finish := by
  obtain ⟨other, held, bounds⟩ := inside pause listed
  rcases apart.disjoint member held with rfl | before | after
  · exact iff_of_true (by omega) (by omega)
  · exact iff_of_false (by omega) (by omega)
  · exact iff_of_false (by omega) (by omega)

theorem pauses_even {pair : Int × Int}
    (both : ∀ pause ∈ pauses, (pair.1 < pause.1 ∧ pause.1 < pair.2 ↔ pair.1 < pause.2 ∧ pause.2 < pair.2)) :
    (between (pauseWalls pauses) pair).length % 2 = 0 := by
  rw [between, List.length_insertionSort]
  induction pauses with
  | nil => rfl
  | cons pause pauses ih =>
    obtain ⟨here, both⟩ := List.forall_mem_cons.mp both
    have rest := ih both
    have shape : pauseWalls (pause :: pauses) = pause.1 :: pause.2 :: pauseWalls pauses := rfl
    rw [shape, List.filter_cons, List.filter_cons]
    simp only [decide_eq_true_eq]
    by_cases inside : pair.1 < pause.1 ∧ pause.1 < pair.2
    · rw [if_pos inside, if_pos (here.mp inside), List.length_cons, List.length_cons]
      omega
    · rw [if_neg inside, if_neg (fun other => inside (here.mpr other))]
      exact rest

/-- What an interval is cut into. -/
structure Cut (interval : WorkInterval) (parts : List WorkInterval) : Prop where
  apart : Apart parts
  bounds : ∀ part ∈ parts, interval.start ≤ part.start ∧ part.finish ≤ interval.finish
  first : parts.head?.map WorkInterval.start = some interval.start
  last : parts.getLast?.map WorkInterval.finish = some interval.finish

theorem cutInterval_cut (below : interval.start < interval.finish) (distinct : (pauseWalls pauses).Nodup)
    (even : (between (pauseWalls pauses) (interval.start, interval.finish)).length % 2 = 0) :
    Cut interval (cutInterval pauses interval) := by
  obtain ⟨walls, shape⟩ : ∃ walls, walls =
      interval.start :: between (pauseWalls pauses) (interval.start, interval.finish) ++ [interval.finish] := ⟨_, rfl⟩
  have parts : cutInterval pauses interval = (pairUp walls).map asInterval := by rw [shape]; rfl
  have nodup : (between (pauseWalls pauses) (interval.start, interval.finish)).Nodup := by
    rw [between, (List.perm_insertionSort _ _).nodup_iff]
    exact distinct.filter _
  have sorted : (between (pauseWalls pauses) (interval.start, interval.finish)).Pairwise (· ≤ ·) :=
    List.pairwise_insertionSort _ _
  have ascending : walls.Pairwise (· < ·) := by
    simp only [shape, List.cons_append, List.pairwise_cons, List.pairwise_append, List.mem_append, List.mem_singleton,
      mem_between]
    refine ⟨?_, (sorted.and nodup).imp fun both => lt_of_le_of_ne both.1 both.2, ⟨by simp, List.Pairwise.nil⟩, ?_⟩
    · rintro wall (⟨-, bounds⟩ | rfl)
      · exact bounds.1
      · exact below
    · rintro wall ⟨-, bounds⟩ other rfl
      exact bounds.2
  have length : walls.length % 2 = 0 := by
    rw [shape]
    simp only [List.length_append, List.length_cons, List.length_nil]
    omega
  refine ⟨⟨?_, ?_⟩, ?_, ?_, ?_⟩
  · intro part member
    rw [parts] at member
    obtain ⟨pair, listed, rfl⟩ := List.mem_map.mp member
    exact pairUp_below ascending listed
  · rw [parts, List.pairwise_map]
    exact pairUp_pairwise ascending
  · intro part member
    rw [parts] at member
    obtain ⟨pair, listed, rfl⟩ := List.mem_map.mp member
    have within : ∀ wall ∈ walls, interval.start ≤ wall ∧ wall ≤ interval.finish := by
      intro wall inside
      simp only [shape, List.cons_append, List.mem_cons, List.mem_append, mem_between, List.not_mem_nil, or_false] at inside
      rcases inside with rfl | ⟨-, bounds⟩ | rfl <;> omega
    obtain ⟨first, second⟩ := mem_of_mem_pairUp listed
    exact ⟨(within _ first).1, (within _ second).2⟩
  · have first := pairUp_head? length
    rw [parts, List.head?_map, Option.map_map]
    refine Eq.trans ?_ (first.trans ?_)
    · rfl
    · rw [shape]
      rfl
  · have last := pairUp_getLast? length
    rw [parts, List.getLast?_map, Option.map_map]
    refine Eq.trans ?_ (last.trans ?_)
    · rfl
    · rw [shape, List.getLast?_concat]

/-- An interval without a pause is its own only part. -/
theorem cutInterval_untouched (free : ∀ wall ∈ pauseWalls pauses, ¬ (interval.start < wall ∧ wall < interval.finish)) :
    cutInterval pauses interval = [interval] := by
  have none : between (pauseWalls pauses) (interval.start, interval.finish) = [] := by
    apply List.eq_nil_iff_forall_not_mem.mpr
    intro wall member
    obtain ⟨listed, bounds⟩ := mem_between.mp member
    exact free wall listed bounds
  rw [cutInterval, cutPair, none]
  rfl

theorem Inside.cut (inside : Inside pauses intervals) (apart : Apart intervals) (distinct : (pauseWalls pauses).Nodup)
    (member : interval ∈ intervals) : Cut interval (cutInterval pauses interval) :=
  cutInterval_cut (apart.1 interval member) distinct (pauses_even fun _ listed => inside.both apart member listed)

theorem cutSession_apart (inside : Inside pauses intervals) (apart : Apart intervals) (distinct : (pauseWalls pauses).Nodup) :
    Apart (cutSession pauses intervals) := by
  refine ⟨?_, ?_⟩
  · intro part member
    obtain ⟨interval, listed, held⟩ := List.mem_flatMap.mp member
    exact (inside.cut apart distinct listed).apart.1 part held
  · rw [cutSession, List.pairwise_flatMap]
    refine ⟨fun interval listed => (inside.cut apart distinct listed).apart.2, ?_⟩
    refine (List.Pairwise.and_mem.mp apart.2).imp ?_
    rintro left right ⟨inLeft, inRight, before⟩ part held other held'
    have := ((inside.cut apart distinct inLeft).bounds part held).2
    have := ((inside.cut apart distinct inRight).bounds other held').1
    omega

/-- Pauses cut each interval of the events they are inserted among. -/
theorem pairEvents_paused {events events' : List AttendanceEvent} (distinct : Distinct events) (distinct' : Distinct events')
    (inside : Inside pauses (pairEvents events)) (nodup : (pauseWalls pauses).Nodup)
    (inserted : ∀ date, (wallsOn events' date).Perm
      (wallsOn events date ++ (pauseWalls pauses).filter (dateOf · = date))) :
    pairEvents events' = cutSession pauses (pairEvents events) := by
  have apart := pairEvents_apart distinct
  -- Between the ends of an interval only pauses of its own day can fall.
  have today {interval : WorkInterval} {date : Int} (member : interval ∈ dayWork events date) :
      between ((pauseWalls pauses).filter (dateOf · = date)) (interval.start, interval.finish) =
        between (pauseWalls pauses) (interval.start, interval.finish) := by
    obtain ⟨-, starts, ends⟩ := mem_dayWork member
    rw [between, between, List.filter_filter]
    congr 1
    apply List.filter_congr
    intro wall _
    rw [← Bool.decide_and, decide_eq_decide]
    simp only [dateOf, day] at starts ends ⊢
    exact ⟨fun both => both.1, fun both => ⟨both, by omega⟩⟩
  have member {interval : WorkInterval} {date : Int} (listed : interval ∈ dayWork events date) :
      interval ∈ pairEvents events := by
    rw [mem_pairEvents, (mem_dayWork listed).2.1]
    exact listed
  have cuts (date : Int) : dayWork events' date = (dayWork events date).flatMap (cutInterval pauses) := by
    have walls : wallsOn events' date =
        (wallsOn events date ++ (pauseWalls pauses).filter (dateOf · = date)).insertionSort (· ≤ ·) :=
      (insertionSort_eq_of_perm (inserted date) (wallsOn_sorted _ _)).symm
    have work := dayWork_eq distinct date
    have listed (pair : Int × Int) (paired : pair ∈ pairUp (wallsOn events date)) : asInterval pair ∈ dayWork events date := by
      rw [work]
      exact List.mem_map_of_mem paired
    rw [dayWork_eq distinct', walls, pairUp_insert (wallsOn_ascending distinct date), List.map_flatMap, work, List.flatMap_map]
    · apply List.flatMap_congr
      intro pair paired
      rw [cutInterval, cutPair, cutPair, ← today (listed pair paired)]
      rfl
    · intro wall given
      rw [List.mem_filter, decide_eq_true_eq] at given
      obtain ⟨pause, held, ends⟩ := mem_pauseWalls.mp given.1
      obtain ⟨interval, worked, bounds⟩ := inside pause held
      have between' : interval.start < wall ∧ wall < interval.finish := by
        rcases ends with rfl | rfl <;> omega
      have here : interval ∈ dayWork events date := by
        rw [mem_pairEvents] at worked
        obtain ⟨-, starts, ends⟩ := mem_dayWork worked
        have same : dateOf interval.start = date := by
          rw [← given.2]
          simp only [dateOf, day] at starts ends ⊢
          omega
        rw [← same]
        exact worked
      rw [work] at here
      obtain ⟨pair, paired, rfl⟩ := List.mem_map.mp here
      exact ⟨pair, paired, between'⟩
    · intro pair paired
      have even := pauses_even fun pause held => inside.both apart (member (listed pair paired)) held
      have same := today (listed pair paired)
      exact (congrArg (·.length % 2) same).trans even
  refine (pairEvents_apart distinct').ext (cutSession_apart inside apart nodup) ?_
  intro interval
  rw [mem_pairEvents, cuts, cutSession, List.mem_flatMap, List.mem_flatMap]
  constructor
  · rintro ⟨other, listed, held⟩
    exact ⟨other, member listed, held⟩
  · rintro ⟨other, listed, held⟩
    refine ⟨other, ?_, held⟩
    rw [mem_pairEvents] at listed
    obtain ⟨-, starts, ends⟩ := mem_dayWork listed
    have bounds := (inside.cut apart nodup (member listed)).bounds interval held
    have below := (inside.cut apart nodup (member listed)).apart.1 interval held
    have same : dateOf interval.start = dateOf other.start := by
      simp only [dateOf, day] at starts ends ⊢
      omega
    rw [same]
    exact listed

end Cuts

section Parts
variable {pauses : List (Int × Int)} {intervals session : List WorkInterval}

/-- The next interval begins less than half an hour after this one. -/
def close (left right : WorkInterval) : Bool := right.start - left.finish < 30 * minute

/-- The sessions that are left of a session. -/
def sessionParts (pauses : List (Int × Int)) (session : List WorkInterval) : List (List WorkInterval) :=
  (cutSession pauses session).splitBy close

theorem workSessions_apart (apart : Apart intervals) : workSessions intervals = intervals.splitBy close := by
  rw [workSessions, apart.sorted]
  rfl

theorem cutSession_first (cut : ∀ interval ∈ session, Cut interval (cutInterval pauses interval)) :
    (cutSession pauses session).head?.map WorkInterval.start = session.head?.map WorkInterval.start := by
  cases session with
  | nil => rfl
  | cons interval session =>
    have first := (cut interval List.mem_cons_self).first
    rw [cutSession, List.flatMap_cons, List.head?_append]
    cases shape : (cutInterval pauses interval).head? with
    | none => simp [shape] at first
    | some part =>
      rw [shape] at first
      exact first

theorem cutSession_last (cut : ∀ interval ∈ session, Cut interval (cutInterval pauses interval)) :
    (cutSession pauses session).getLast?.map WorkInterval.finish = session.getLast?.map WorkInterval.finish := by
  rcases session.eq_nil_or_concat with rfl | ⟨session, interval, rfl⟩
  · rfl
  · have last := (cut interval (by simp)).last
    rw [List.concat_eq_append, cutSession, List.flatMap_append, List.flatMap_singleton, List.getLast?_append,
      List.getLast?_concat]
    cases shape : (cutInterval pauses interval).getLast? with
    | none => simp [shape] at last
    | some part =>
      rw [shape] at last
      exact last

/-- Half an hour between two runs of intervals stays there when both are cut. -/
theorem close_cut {front back : List WorkInterval} (cut : ∀ interval ∈ front, Cut interval (cutInterval pauses interval))
    (cut' : ∀ interval ∈ back, Cut interval (cutInterval pauses interval))
    (apart : ∀ left ∈ front.getLast?, ∀ right ∈ back.head?, close left right = false) :
    ∀ left ∈ (cutSession pauses front).getLast?, ∀ right ∈ (cutSession pauses back).head?, close left right = false := by
  intro left last right first
  have ends := cutSession_last cut
  have starts := cutSession_first cut'
  rw [Option.mem_def] at last first
  rw [last, Option.map_some] at ends
  rw [first, Option.map_some] at starts
  obtain ⟨before, held, same⟩ := Option.map_eq_some_iff.mp ends.symm
  obtain ⟨after, held', same'⟩ := Option.map_eq_some_iff.mp starts.symm
  have := apart before held after held'
  unfold close at this ⊢
  rw [← same, ← same']
  exact this

/-- Sessions fall into parts one by one. -/
theorem splitBy_cutSessions {sessions : List (List WorkInterval)} (nonempty : [] ∉ sessions)
    (cut : ∀ session ∈ sessions, ∀ interval ∈ session, Cut interval (cutInterval pauses interval))
    (apart : sessions.IsChain fun left right => ∃ ends starts, close (left.getLast ends) (right.head starts) = false) :
    (cutSession pauses sessions.flatten).splitBy close = sessions.flatMap (sessionParts pauses) := by
  induction sessions with
  | nil => rfl
  | cons session sessions ih =>
    obtain ⟨here, cut⟩ := List.forall_mem_cons.mp cut
    obtain ⟨next, apart⟩ := List.isChain_cons.mp apart
    have rest := ih (fun empty => nonempty (List.mem_cons_of_mem _ empty)) cut apart
    have flat : cutSession pauses (session :: sessions).flatten = cutSession pauses session ++ cutSession pauses sessions.flatten := by
      rw [List.flatten_cons, cutSession, List.flatMap_append]
      rfl
    rw [flat, List.splitBy_append, rest, List.flatMap_cons]
    · rfl
    · refine close_cut here ?_ ?_
      · intro interval member
        obtain ⟨other, listed, held⟩ := List.mem_flatten.mp member
        exact cut other listed interval held
      · intro left last right first
        cases sessions with
        | nil => cases first
        | cons following sessions =>
          obtain ⟨ends, starts, gap⟩ := next following rfl
          rw [List.flatten_cons, List.head?_append_of_ne_nil _ starts, List.head?_eq_some_head starts] at first
          rw [List.getLast?_eq_some_getLast ends] at last
          rw [← Option.some.inj last, ← Option.some.inj first]
          exact gap

theorem workSessions_paused (inside : Inside pauses intervals) (apart : Apart intervals)
    (distinct : (pauseWalls pauses).Nodup) :
    workSessions (cutSession pauses intervals) = (workSessions intervals).flatMap (sessionParts pauses) := by
  rw [workSessions_apart (cutSession_apart inside apart distinct), workSessions_apart apart]
  have flat : (intervals.splitBy close).flatten = intervals := List.flatten_splitBy close intervals
  rw [← splitBy_cutSessions (List.nil_notMem_splitBy close intervals), flat]
  · intro session listed interval member
    refine inside.cut apart distinct ?_
    rw [← flat]
    exact List.mem_flatten.mpr ⟨session, listed, member⟩
  · exact List.isChain_getLast_head_splitBy close intervals

end Parts

end Dagmar.Proofs
