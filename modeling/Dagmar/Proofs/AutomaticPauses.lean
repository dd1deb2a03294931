import Dagmar.Proofs.DayWalls
import Dagmar.Proofs.MetricsInvariant

/-! Automatic pauses along runs of create requests. The pauses of a request cut
the interval it was about; an interval that the request closes on the later side
of its time is left as long as it is. -/

namespace Dagmar.Proofs
open Library Library.Calendar Library.Outcome Library.Pairing

section Gaps

/-- The longest stretch of work without a pause. -/
def longestWork : Int := 360 * minute

/-- Times taken two by two lie at most six hours apart. -/
def Short (walls : List Int) : Prop := ∀ pair ∈ pairUp walls, pair.2 - pair.1 ≤ longestWork

instance (walls : List Int) : Decidable (Short walls) := inferInstanceAs (Decidable (∀ pair ∈ pairUp walls, _))

theorem short_append {front back : List Int} (even : front.length % 2 = 0) :
    Short (front ++ back) ↔ Short front ∧ Short back := by
  simp only [Short, pairUp_append back even, List.forall_mem_append]

theorem short_cons_cons {first second : Int} {rest : List Int} :
    Short (first :: second :: rest) ↔ second - first ≤ longestWork ∧ Short rest := by
  simp only [Short, pairUp_cons_cons, List.forall_mem_cons]

theorem Short.front {front back : List Int} (short : Short (front ++ back)) : Short front := by
  rcases Nat.mod_two_eq_zero_or_one front.length with even | odd
  · exact ((short_append even).mp short).1
  · rcases front.eq_nil_or_concat with rfl | ⟨front, last, rfl⟩
    · cases odd
    rw [List.concat_eq_append, List.append_assoc] at short
    rw [List.concat_eq_append, List.length_append, List.length_singleton] at odd
    rw [List.concat_eq_append, short_append (by omega)]
    exact ⟨((short_append (by omega)).mp short).1, fun pair member => by cases member⟩

/-- Sorted times are short when each but the last is followed by one within six hours. -/
theorem short_of_next {walls : List Int} (sorted : walls.Pairwise (· ≤ ·))
    (next : ∀ wall ∈ walls, (∀ other ∈ walls, other ≤ wall) ∨
      ∃ other ∈ walls, wall < other ∧ other ≤ wall + longestWork) : Short walls := by
  intro pair member
  obtain ⟨first, second⟩ := mem_of_mem_pairUp member
  rcases next pair.1 first with last | ⟨other, listed, after, near⟩
  · have := last pair.2 second
    simp only [longestWork, minute]
    omega
  · have := pairUp_adjacent sorted member listed
    omega

theorem breakTimes_length (segments : List Int) (cursor : Int) : (breakTimes segments cursor).length = 2 * segments.length := by
  induction segments generalizing cursor with
  | nil => rfl
  | cons segment segments ih =>
    rw [breakTimes, List.length_cons, List.length_cons, ih, List.length_cons]
    omega

theorem automaticBreakEvents_even (start finish : Int) : (automaticBreakEvents start finish).length % 2 = 0 := by
  simp only [automaticBreakEvents]
  split
  · rfl
  · rw [breakTimes_length]
    omega

/-- From any moment of the work a pause begins or ends within six hours. -/
theorem breakTimes_next {segments : List Int} {cursor moment : Int} (each : ∀ segment ∈ segments, segment ≤ 360)
    (after : cursor ≤ moment) (before : moment < cursor + (segments.sum + 30 * segments.length) * minute) :
    ∃ time ∈ breakTimes segments cursor, moment < time ∧ time ≤ moment + longestWork := by
  induction segments generalizing cursor with
  | nil =>
    simp at before
    omega
  | cons segment segments ih =>
    obtain ⟨first, rest⟩ := List.forall_mem_cons.mp each
    simp only [breakTimes, List.mem_cons, exists_eq_or_imp, longestWork, minute] at ih ⊢
    by_cases soon : moment < cursor + segment * 60000000
    · left
      omega
    · right
      by_cases paused : moment < cursor + segment * 60000000 + 30 * 60000000
      · left
        omega
      · right
        apply ih rest (by omega)
        simp only [List.sum_cons, List.length_cons, minute] at before
        push_cast at before
        omega

theorem automaticBreakEvents_next {start finish moment : Int} (whole : (finish - start) % minute = 0)
    (after : start ≤ moment) (before : moment < finish) :
    ∃ time ∈ automaticBreakEvents start finish ++ [finish], moment < time ∧ time ≤ moment + longestWork := by
  have minutes : (finish - start) / minute * minute = finish - start := Int.ediv_mul_cancel_of_emod_eq_zero whole
  by_cases near : finish ≤ moment + longestWork
  · exact ⟨finish, by simp, before, near⟩
  have long : 360 < (finish - start) / minute := by
    simp only [longestWork, minute] at near minutes ⊢
    omega
  obtain ⟨front, last, same, each, piece, sum⟩ := automaticBreakEvents_long long
  -- More than six hours are left, and the last piece is not longer than that.
  have early : moment < start + (front.sum + 30 * front.length) * minute := by
    simp only [longestWork, minute] at near minutes sum ⊢
    omega
  obtain ⟨time, member, bounds⟩ := breakTimes_next (fun segment listed => (each segment listed).2) after early
  exact ⟨time, List.mem_append_left _ (same ▸ member), bounds⟩

/-- Times before a pair keep their pairs when as many times follow them, up to an even number, and end later. -/
theorem short_replace {front front' back : List Int} (short : Short (front ++ back)) (short' : Short front')
    (parity : front.length % 2 = front'.length % 2)
    (later : ∀ last ∈ front.getLast?, ∀ last' ∈ front'.getLast?, last ≤ last') : Short (front' ++ back) := by
  by_cases even : front.length % 2 = 0
  · exact (short_append (parity ▸ even)).mpr ⟨short', ((short_append even).mp short).2⟩
  · rcases front.eq_nil_or_concat with rfl | ⟨front, last, rfl⟩
    · simp at even
    rcases front'.eq_nil_or_concat with rfl | ⟨front', last', rfl⟩
    · exact absurd parity even
    have order := later last (by simp) last' (by simp)
    simp only [List.concat_eq_append, List.length_append, List.length_singleton, List.append_assoc,
      List.singleton_append] at *
    rw [short_append (by omega)] at short short' ⊢
    refine ⟨short'.1, ?_⟩
    cases back with
    | nil => exact fun pair member => by cases member
    | cons next back =>
      have gap := short_cons_cons.mp short.2
      exact short_cons_cons.mpr ⟨by omega, gap.2⟩

/-- Sorted times split at any bound. -/
theorem sorted_split {walls : List Int} (sorted : walls.Pairwise (· ≤ ·)) (bound : Int) :
    walls.filter (· < bound) ++ walls.filter (bound ≤ ·) = walls := by
  have perm : (walls.filter (· < bound) ++ walls.filter (bound ≤ ·)).Perm walls := by
    have same : walls.filter (bound ≤ ·) = walls.filter (fun wall => !decide (wall < bound)) := by
      apply List.filter_congr
      intro wall _
      rw [← decide_not, decide_eq_decide]
      exact not_lt.symm
    rw [same]
    exact List.filter_append_perm _ _
  have ascending : (walls.filter (· < bound) ++ walls.filter (bound ≤ ·)).Pairwise (· ≤ ·) := by
    refine List.pairwise_append.mpr ⟨sorted.filter _, sorted.filter _, ?_⟩
    intro early before late after
    have := of_decide_eq_true (List.mem_filter.mp before).2
    have := of_decide_eq_true (List.mem_filter.mp after).2
    omega
  exact List.Perm.eq_of_pairwise (fun _ _ _ _ => le_antisymm) ascending sorted perm

/-- Sorted times that include the pauses of an interval are short inside it. -/
theorem short_covered {walls : List Int} {start finish : Int} (sorted : walls.Pairwise (· ≤ ·))
    (whole : (finish - start) % minute = 0)
    (held : ∀ time ∈ automaticBreakEvents start finish ++ [finish], time ∈ walls)
    (inside : ∀ wall ∈ walls, wall ≤ finish ∧ (start ≤ wall ∨ ∃ other ∈ walls, wall < other ∧ other ≤ wall + longestWork)) :
    Short walls := by
  apply short_of_next sorted
  intro wall member
  obtain ⟨below, above⟩ := inside wall member
  rcases above with above | next
  · by_cases ends : wall = finish
    · exact .inl fun other listed => ends ▸ (inside other listed).1
    · obtain ⟨time, listed, bounds⟩ := automaticBreakEvents_next whole above (by omega)
      exact .inr ⟨time, held time listed, bounds⟩
  · exact .inr next

/-- A new time closes the interval that begins right before it, and its pauses are added. -/
theorem short_closing {front after walls : List Int} {start finish : Int}
    (order : (front ++ [start] ++ finish :: after).Pairwise (· ≤ ·)) (whole : (finish - start) % minute = 0)
    (even : front.length % 2 = 0) (short : Short (front ++ [start] ++ after)) (later : Short after)
    (sorted : walls.Pairwise (· ≤ ·))
    (perm : walls.Perm (front ++ [start] ++ after ++ finish :: automaticBreakEvents start finish)) : Short walls := by
  rw [List.append_assoc, List.pairwise_append, List.singleton_append, List.pairwise_cons, List.pairwise_cons] at order
  obtain ⟨first, ⟨next, last, rest⟩, below⟩ := order
  have ends : start ≤ finish := next finish List.mem_cons_self
  obtain ⟨middle, cut⟩ : ∃ middle, middle = (start :: finish :: automaticBreakEvents start finish).insertionSort (· ≤ ·) :=
    ⟨_, rfl⟩
  have members (wall : Int) : wall ∈ middle ↔ wall = start ∨ wall = finish ∨ wall ∈ automaticBreakEvents start finish := by
    simp [cut]
  have inside (wall : Int) (member : wall ∈ middle) : start ≤ wall ∧ wall ≤ finish := by
    rcases (members wall).mp member with rfl | rfl | pause
    · exact ⟨le_rfl, ends⟩
    · exact ⟨ends, le_rfl⟩
    · have := mem_automaticBreakEvents pause
      omega
  have ascending : middle.Pairwise (· ≤ ·) := cut ▸ List.pairwise_insertionSort _ _
  have same : walls = front ++ (middle ++ after) := by
    refine List.Perm.eq_of_pairwise (fun _ _ _ _ => le_antisymm) sorted ?_ ?_
    · refine List.pairwise_append.mpr ⟨first, List.pairwise_append.mpr ⟨ascending, rest, ?_⟩, ?_⟩
      · exact fun wall member other listed => (inside wall member).2.trans (last other listed)
      · intro wall member other listed
        have start' := below wall member start (by simp)
        rcases List.mem_append.mp listed with pause | listed
        · exact start'.trans (inside other pause).1
        · exact below wall member other (by simp [listed])
    · refine perm.trans ?_
      rw [List.append_assoc, List.append_assoc, cut]
      refine List.Perm.append_left front ?_
      refine List.Perm.trans ?_ ((List.perm_insertionSort _ _).symm.append_right after)
      rw [List.singleton_append, List.cons_append]
      exact List.perm_append_comm.cons start
  have count : middle.length % 2 = 0 := by
    have := automaticBreakEvents_even start finish
    rw [cut, List.length_insertionSort, List.length_cons, List.length_cons]
    omega
  rw [List.append_assoc, short_append even] at short
  rw [same, short_append even, short_append count]
  refine ⟨short.1, short_covered ascending whole ?_ ?_, later⟩
  · intro time listed
    rw [List.mem_append, List.mem_singleton] at listed
    exact (members time).mpr (.inr listed.symm)
  · exact fun wall member => ⟨(inside wall member).2, .inl (inside wall member).1⟩

/-- The times up to the end of a closed pair, with its pauses, are short when the last open one is near. -/
theorem short_upto {before middle : List Int} {start finish : Int} (sorted : (before ++ middle).Pairwise (· ≤ ·))
    (whole : (finish - start) % minute = 0) (short : Short before) (opens : start ∈ middle)
    (held : ∀ time ∈ automaticBreakEvents start finish ++ [finish], time ∈ middle)
    (inside : ∀ wall ∈ middle, start ≤ wall ∧ wall ≤ finish) (early : ∀ wall ∈ before, wall < start)
    (near : before.length % 2 = 1 → ∀ last ∈ before.getLast?, start ≤ last + longestWork) : Short (before ++ middle) := by
  obtain ⟨-, ascending, -⟩ := List.pairwise_append.mp sorted
  rcases Nat.mod_two_eq_zero_or_one before.length with even | odd
  · rw [short_append even]
    exact ⟨short, short_covered ascending whole held fun wall member => ⟨(inside wall member).2, .inl (inside wall member).1⟩⟩
  · rcases before.eq_nil_or_concat with rfl | ⟨front, last, rfl⟩
    · cases odd
    rw [List.concat_eq_append] at *
    have reach := near odd last (by simp)
    have earlier := early last (by simp)
    rw [List.length_append, List.length_singleton] at odd
    rw [short_append (by omega)] at short
    rw [List.append_assoc, List.singleton_append] at sorted ⊢
    rw [short_append (by omega)]
    refine ⟨short.1, short_covered (List.pairwise_append.mp sorted).2.1 whole ?_ ?_⟩
    · exact fun time listed => List.mem_cons_of_mem _ (held time listed)
    · intro wall member
      rcases List.mem_cons.mp member with rfl | member
      · have := (inside start opens).2
        exact ⟨by omega, .inr ⟨start, List.mem_cons_of_mem _ opens, earlier, reach⟩⟩
      · exact ⟨(inside wall member).2, .inl (inside wall member).1⟩

/-- The same among the times before the pair, during it and after it. -/
theorem short_around {before within after walls : List Int} {start finish : Int}
    (order : (before ++ (within ++ after)).Pairwise (· ≤ ·)) (early : ∀ wall ∈ before, wall < start)
    (during : ∀ wall ∈ within, start ≤ wall ∧ wall ≤ finish) (late : ∀ wall ∈ after, finish ≤ wall) (below : start < finish)
    (whole : (finish - start) % minute = 0) (short : Short (before ++ (within ++ after)))
    (near : before.length % 2 = 1 → ∀ last ∈ before.getLast?, start ≤ last + longestWork)
    (sorted : walls.Pairwise (· ≤ ·))
    (perm : walls.Perm (before ++ (within ++ after) ++ (start :: automaticBreakEvents start finish ++ [finish]))) :
    Short walls := by
  obtain ⟨middle, cut⟩ : ∃ middle, middle = (start :: automaticBreakEvents start finish ++ within).insertionSort (· ≤ ·) :=
    ⟨_, rfl⟩
  have members (wall : Int) : wall ∈ middle ↔ wall = start ∨ wall ∈ automaticBreakEvents start finish ∨ wall ∈ within := by
    simp [cut]
  have inside (wall : Int) (member : wall ∈ middle) : start ≤ wall ∧ wall ≤ finish := by
    rcases (members wall).mp member with rfl | pause | member
    · omega
    · have := mem_automaticBreakEvents pause
      omega
    · exact during wall member
  have inside' (wall : Int) (member : wall ∈ middle ++ [finish]) : start ≤ wall ∧ wall ≤ finish := by
    rcases List.mem_append.mp member with member | member
    · exact inside wall member
    · rw [List.mem_singleton.mp member]
      omega
  obtain ⟨first, rest, -⟩ := List.pairwise_append.mp order
  obtain ⟨-, final, -⟩ := List.pairwise_append.mp rest
  have upto : (before ++ (middle ++ [finish])).Pairwise (· ≤ ·) := by
    refine List.pairwise_append.mpr ⟨first, List.pairwise_append.mpr ⟨cut ▸ List.pairwise_insertionSort _ _, by simp, ?_⟩, ?_⟩
    · intro wall member other listed
      rw [List.mem_singleton.mp listed]
      exact (inside wall member).2
    · exact fun wall member other listed => (early wall member).le.trans (inside' other listed).1
  have same : walls = (before ++ (middle ++ [finish])) ++ after := by
    refine List.Perm.eq_of_pairwise (fun _ _ _ _ => le_antisymm) sorted ?_ ?_
    · refine List.pairwise_append.mpr ⟨upto, final, ?_⟩
      intro wall member other listed
      refine le_trans ?_ (late other listed)
      rcases List.mem_append.mp member with member | member
      · exact (early wall member).le.trans below.le
      · exact (inside' wall member).2
    · refine perm.trans ?_
      rw [List.append_assoc, List.append_assoc before]
      refine List.Perm.append_left before ?_
      have sort : middle.Perm (start :: automaticBreakEvents start finish ++ within) := cut ▸ List.perm_insertionSort _ _
      refine List.Perm.trans ?_ ((sort.append_right [finish]).append_right after).symm
      generalize start :: automaticBreakEvents start finish = added
      rw [List.perm_iff_count]
      intro wall
      simp only [List.count_append]
      omega
  have count : middle.length = 1 + (automaticBreakEvents start finish).length + within.length := by
    rw [cut, List.length_insertionSort, List.length_append, List.length_cons]
    omega
  have even := automaticBreakEvents_even start finish
  rw [← List.append_assoc] at short
  rw [same]
  refine short_replace short (short_upto upto whole ?_ ?_ ?_ inside' early near) ?_ ?_
  · rw [List.append_assoc] at short
    exact short.front
  · exact List.mem_append_left _ ((members start).mpr (.inl rfl))
  · intro time listed
    rcases List.mem_append.mp listed with pause | ends
    · exact List.mem_append_left _ ((members time).mpr (.inr (.inl pause)))
    · exact List.mem_append_right _ ends
  · simp only [List.length_append, List.length_singleton]
    omega
  · intro last final last' final'
    rw [← List.append_assoc, List.getLast?_concat, Option.mem_some_iff] at final'
    subst final'
    rcases List.mem_append.mp (List.mem_of_mem_getLast? final) with member | member
    · exact (early last member).le.trans below.le
    · exact (during last member).2

/-- A closed pair is added with its pauses. Work that was short before stays short unless the day
was left with an open interval that the pair closes too late. -/
theorem short_pair {day walls : List Int} {start finish : Int} (order : day.Pairwise (· ≤ ·)) (below : start < finish)
    (whole : (finish - start) % minute = 0) (short : Short day)
    (closed : day.length % 2 = 0 ∨ ∀ last ∈ day.getLast?, start ≤ last + longestWork)
    (sorted : walls.Pairwise (· ≤ ·))
    (perm : walls.Perm (day ++ (start :: automaticBreakEvents start finish ++ [finish]))) : Short walls := by
  obtain ⟨before, earlier⟩ : ∃ before, before = day.filter (· < start) := ⟨_, rfl⟩
  obtain ⟨rest, later⟩ : ∃ rest, rest = day.filter (start ≤ ·) := ⟨_, rfl⟩
  have parts : before ++ rest = day := by rw [earlier, later, sorted_split order]
  have ascending : rest.Pairwise (· ≤ ·) := later ▸ order.filter _
  have early (wall : Int) (member : wall ∈ before) : wall < start := by
    rw [earlier] at member
    exact of_decide_eq_true (List.mem_filter.mp member).2
  have late (wall : Int) (member : wall ∈ rest) : start ≤ wall := by
    rw [later] at member
    exact of_decide_eq_true (List.mem_filter.mp member).2
  rw [← parts] at order short closed perm
  -- An open time before the pair was paired with a later one, or it was the last of the day.
  have near : before.length % 2 = 1 → ∀ last ∈ before.getLast?, start ≤ last + longestWork := by
    intro odd last ends
    cases rest with
    | nil =>
      rw [List.append_nil] at closed
      exact closed.resolve_left (by omega) last ends
    | cons next rest =>
      obtain ⟨front, rfl⟩ := List.getLast?_eq_some_iff.mp ends
      rw [List.length_append, List.length_singleton] at odd
      rw [List.append_assoc, short_append (by omega), List.singleton_append, short_cons_cons] at short
      have := late next (by simp)
      omega
  rw [← sorted_split ascending finish] at order short perm
  refine short_around order early ?_ ?_ below whole short near sorted perm
  · intro wall member
    rw [List.mem_filter, decide_eq_true_eq] at member
    exact ⟨late wall member.1, member.2.le⟩
  · intro wall member
    exact of_decide_eq_true (List.mem_filter.mp member).2

end Gaps

section Insertion
variable {db flushed : Db} {employmentId : Int} {times : List Timestamp}

/-- The rows that an insertion adds carry the given times in the given order. -/
theorem eventsOf_inserted (inserted : insertEvents db employmentId times = some flushed) :
    ∃ added, flushed.eventsOf employmentId = db.eventsOf employmentId ++ added ∧
      added.map AttendanceEvent.occurredAt = times := by
  obtain ⟨-, rows⟩ := insertEvents_rows inserted
  refine ⟨times.mapIdx fun index time => ⟨db.nextEventId + index, employmentId, time⟩, ?_, ?_⟩
  · rw [Db.eventsOf, Table.select, rows, List.filter_append]
    congr 1
    rw [List.filter_eq_self]
    intro event member
    obtain ⟨index, bound, rfl⟩ := List.mem_mapIdx.mp member
    simp
  · apply List.ext_getElem?
    intro index
    simp only [List.getElem?_map, List.getElem?_mapIdx, Option.map_map]
    exact Option.map_id'

/-- The wall times of a day after an insertion. -/
theorem wallsOn_inserted (inserted : insertEvents db employmentId times = some flushed) (date : Int) :
    (wallsOn (flushed.eventsOf employmentId) date).Perm
      (wallsOn (db.eventsOf employmentId) date ++ (times.filter (·.date = date)).map Timestamp.wall) := by
  obtain ⟨added, events, written⟩ := eventsOf_inserted inserted
  subst written
  refine (wallsOn_perm _ _).trans ?_
  rw [List.filter_map, List.map_map, events, eventsOn_append, List.map_append]
  exact (wallsOn_perm _ _).symm.append_right _

/-- The commit after an insertion changes nothing when every new time is read back as written. -/
theorem insertion_settles {zone : Zone} {employment : Employment} {months : List (Int × Nat)} {synced : Db}
    (inserted : insertEvents db employmentId times = some flushed)
    (written : syncEmploymentMetricMonths flushed employment months = .ok synced) (rested : Rested zone db)
    (settled : ∀ time ∈ times, zone.Settled time) :
    commit zone synced = synced ∧ Rested zone synced ∧ synced =
      { db with events := flushed.events, metrics := synced.metrics, nextEventId := flushed.nextEventId } := by
  obtain ⟨frame, -, fresh⟩ := insertEvents_ok inserted
  obtain ⟨-, frame', -⟩ := syncMonths_ok written
  have still : Rested zone synced := by
    intro event member
    rw [frame'] at member
    by_cases old : event ∈ db.events
    · exact rested event old
    · exact settled _ (fresh event member old).2
  refine ⟨commit_of_rested still, still, ?_⟩
  rw [frame', frame]

theorem eventsOf_inserted_other {other : Int} (inserted : insertEvents db employmentId times = some flushed) (different : other ≠ employmentId) :
    flushed.eventsOf other = db.eventsOf other := by
  obtain ⟨-, rows⟩ := insertEvents_rows inserted
  rw [Db.eventsOf, Table.select, rows, List.filter_append]
  have none : (times.mapIdx fun index time => (⟨db.nextEventId + index, employmentId, time⟩ : AttendanceEvent)).filter
      (·.employmentId = other) = [] := by
    rw [List.filter_eq_nil_iff]
    intro event member
    obtain ⟨index, bound, rfl⟩ := List.mem_mapIdx.mp member
    simpa using Ne.symm different
  rw [none, List.append_nil]
  rfl

end Insertion

section Single
variable (db : Db) (employmentId : Int) (time : Timestamp)

/-- The events of the day among which a new time finds its place. -/
def dayOrder : List AttendanceEvent :=
  orderedEvents (eventsOn (db.eventsOf employmentId) time.date ++ [⟨0, employmentId, time⟩])

/-- The place of the new time. -/
def dayIndex : Nat := (dayOrder db employmentId time).idxOf ⟨0, employmentId, time⟩

/-- The pairs from the new time on are short: it opens the first of them when an even number
of events precedes it, and otherwise the event after it does. -/
def LaterShort : Prop :=
  Short (((dayOrder db employmentId time).drop (dayIndex db employmentId time + dayIndex db employmentId time % 2)).map
    (·.occurredAt.wall))

instance : Decidable (LaterShort db employmentId time) := inferInstanceAs (Decidable (Short _))

/-- The wall times before and after the new one. -/
def earlierWalls : List Int :=
  ((dayOrder db employmentId time).take (dayIndex db employmentId time)).map (·.occurredAt.wall)

def laterWalls : List Int :=
  ((dayOrder db employmentId time).drop (dayIndex db employmentId time + 1)).map (·.occurredAt.wall)

theorem dayIndex_lt : dayIndex db employmentId time < (dayOrder db employmentId time).length := by
  apply List.idxOf_lt_length_of_mem
  simp [dayOrder]

theorem dayOrder_at : (dayOrder db employmentId time)[dayIndex db employmentId time]? = some ⟨0, employmentId, time⟩ :=
  List.getElem?_idxOf (by simp [dayOrder])

theorem drop_dayIndex : ((dayOrder db employmentId time).drop (dayIndex db employmentId time)).map (·.occurredAt.wall) =
    time.wall :: laterWalls db employmentId time := by
  have here := dayOrder_at db employmentId time
  rw [List.getElem?_eq_getElem (dayIndex_lt db employmentId time)] at here
  rw [List.drop_eq_getElem_cons (dayIndex_lt db employmentId time), List.map_cons, Option.some.inj here]
  rfl

theorem dayOrder_walls : (dayOrder db employmentId time).map (·.occurredAt.wall) =
    earlierWalls db employmentId time ++ time.wall :: laterWalls db employmentId time := by
  rw [← drop_dayIndex, earlierWalls, ← List.map_append, List.take_append_drop]

theorem dayWalls_sorted :
    (earlierWalls db employmentId time ++ time.wall :: laterWalls db employmentId time).Pairwise (· ≤ ·) := by
  rw [← dayOrder_walls, dayOrder, ordered_walls]
  exact List.pairwise_insertionSort _ _

theorem length_earlierWalls : (earlierWalls db employmentId time).length = dayIndex db employmentId time := by
  rw [earlierWalls, List.length_map, List.length_take, min_eq_left (dayIndex_lt db employmentId time).le]

/-- Without the new time these are the times of the day. -/
theorem wallsOn_around : wallsOn (db.eventsOf employmentId) time.date =
    earlierWalls db employmentId time ++ laterWalls db employmentId time := by
  apply insertionSort_eq_of_perm
  · have whole : (earlierWalls db employmentId time ++ time.wall :: laterWalls db employmentId time).Perm
        ((eventsOn (db.eventsOf employmentId) time.date).map (·.occurredAt.wall) ++ [time.wall]) := by
      rw [← dayOrder_walls, dayOrder, ordered_walls, List.map_append]
      exact List.perm_insertionSort _ _
    exact ((List.perm_middle.symm.trans whole).trans (List.perm_append_singleton _ _)).cons_inv
  · exact (dayWalls_sorted db employmentId time).sublist ((List.sublist_cons_self _ _).append_left _)

variable {db employmentId time}

/-- A time with an even number of events before it opens an interval and gets no pauses. -/
theorem previousEvent_even (even : dayIndex db employmentId time % 2 = 0) : previousEvent db employmentId time = none := by
  have odd : ¬ dayIndex db employmentId time % 2 = 1 := by omega
  exact if_neg odd

/-- A time with an odd number of events before it closes the interval of the last of them. -/
theorem previousEvent_odd (odd : dayIndex db employmentId time % 2 = 1) :
    ∃ front previous, previousEvent db employmentId time = some previous ∧
      earlierWalls db employmentId time = front ++ [previous.occurredAt.wall] := by
  obtain ⟨before, count⟩ : ∃ before, dayIndex db employmentId time = before + 1 := ⟨dayIndex db employmentId time - 1, by omega⟩
  have bound : before < (dayOrder db employmentId time).length := by
    have := dayIndex_lt db employmentId time
    omega
  have found : previousEvent db employmentId time = (dayOrder db employmentId time)[before]? := by
    have closes : previousEvent db employmentId time =
        (dayOrder db employmentId time)[dayIndex db employmentId time - 1]? := if_pos odd
    rw [closes, count, Nat.add_sub_cancel]
  refine ⟨((dayOrder db employmentId time).take before).map (·.occurredAt.wall), _,
    found.trans (List.getElem?_eq_getElem bound), ?_⟩
  rw [earlierWalls, count, List.take_succ_eq_append_getElem bound, List.map_append]
  rfl

/-- What a request adds when an odd number of events precedes its time, and it was short after it before. -/
theorem single_short {zone : Zone} {employment : Employment} (owner : employment.id = employmentId)
    (enabled : employment.profile.automaticBreaksEnabled = true)
    (short : Short (wallsOn (db.eventsOf employmentId) time.date))
    (aligned : ∀ wall ∈ wallsOn (db.eventsOf employmentId) time.date, wall % minute = 0) (whole : time.wall % minute = 0)
    (later : LaterShort db employmentId time) {walls : List Int} (sorted : walls.Pairwise (· ≤ ·))
    (perm : walls.Perm (wallsOn (db.eventsOf employmentId) time.date ++
      (addEventWithBreaks zone db employment time).map Timestamp.wall)) : Short walls := by
  have order := dayWalls_sorted db employmentId time
  have length := length_earlierWalls db employmentId time
  rw [wallsOn_around] at short aligned perm
  unfold LaterShort at later
  unfold addEventWithBreaks at perm
  rw [owner] at perm
  rcases Nat.mod_two_eq_zero_or_one (dayIndex db employmentId time) with even | odd
  · rw [previousEvent_even even] at perm
    rw [even, Nat.add_zero, drop_dayIndex] at later
    have same : walls = earlierWalls db employmentId time ++ time.wall :: laterWalls db employmentId time := by
      refine List.Perm.eq_of_pairwise (fun _ _ _ _ => le_antisymm) sorted order (perm.trans ?_)
      exact (List.perm_append_singleton _ _).trans List.perm_middle.symm
    rw [same, short_append (length ▸ even)]
    exact ⟨((short_append (length ▸ even)).mp short).1, later⟩
  · obtain ⟨front, previous, found, shape⟩ := previousEvent_odd odd
    rw [found] at perm
    simp only [enabled, if_true, List.map_cons, List.map_map] at perm
    have pauses : Timestamp.wall ∘ zone.attach = id := rfl
    rw [pauses, List.map_id] at perm
    rw [odd] at later
    rw [shape] at short aligned perm order length
    rw [List.length_append, List.length_singleton] at length
    refine short_closing order ?_ (by omega) short later sorted perm
    have := aligned previous.occurredAt.wall (by simp)
    simp only [minute] at this whole ⊢
    omega

end Single

section Steps
variable {zone : Zone} {clock : Clock} {db next : Db}

/-- The body of a create request. -/
def Request.creates : Request → Option AttendanceEventIn
  | .portalCreateEvent _ body => some body
  | .adminCreateEvent body => some body
  | .integrationCreateEvent _ payload => some payload
  | _ => none

/-- An event is created at full minutes, and no clock change moves what is written. -/
def CreatesOnMinutes (zone : Zone) (db : Db) (call : Call) : Prop :=
  ∃ body, Request.creates call.request = some body ∧ (∀ time ∈ bodyTimes zone body, time.wall % minute = 0) ∧
    WritesSettled zone db call

/-- What a request closes beside its own interval is short: for a single time the later pairs of its
day, for a closed pair the interval that the day had left open before it. -/
def ClosesShort (zone : Zone) (db : Db) (body : AttendanceEventIn) : Prop :=
  match body.pairedOccurredAt with
  | none => LaterShort db body.employmentId (pragueNow zone body.occurredAt)
  | some _ =>
    (wallsOn (db.eventsOf body.employmentId) (pragueNow zone body.occurredAt).date).length % 2 = 0 ∨
      ∀ last ∈ (wallsOn (db.eventsOf body.employmentId) (pragueNow zone body.occurredAt).date).getLast?,
        (pragueNow zone body.occurredAt).wall ≤ last + longestWork

/-- The work of an employment with automatic pauses is short on every day. -/
structure Paused (zone : Zone) (employment : Employment) (db : Db) : Prop where
  rested : Rested zone db
  stored : db.employments.get employment.id = some employment
  aligned : ∀ date, ∀ wall ∈ wallsOn (db.eventsOf employment.id) date, wall % minute = 0
  short : ∀ date, Short (wallsOn (db.eventsOf employment.id) date)

theorem creation_of_handle {request : Request} {body : AttendanceEventIn} (creates : Request.creates request = some body)
    (done : request.handle zone clock db = .ok next) :
    ∃ employment additions flushed synced, Creation zone clock db next body employment additions flushed synced := by
  cases request with
  | portalCreateEvent auth body =>
    cases creates
    exact portalCreate_ok (answered done).choose_spec
  | adminCreateEvent body =>
    cases creates
    exact adminCreate_ok (answered done).choose_spec
  | integrationCreateEvent client payload =>
    cases creates
    exact integrationCreate_ok (answered done).choose_spec
  | _ => cases creates

variable {body : AttendanceEventIn} {employment : Employment} {additions : List Timestamp} {flushed synced : Db}

theorem Creation.settles (creation : Creation zone clock db next body employment additions flushed synced)
    (rested : Rested zone db) (settled : ∀ time ∈ additions, zone.Settled time) :
    next.events = flushed.events ∧ next.employments = db.employments := by
  obtain ⟨still, -, frame⟩ := insertion_settles creation.inserted creation.written rested settled
  rw [← creation.committed, still, frame]
  exact ⟨rfl, rfl⟩

theorem breakTimes_aligned {segments : List Int} {cursor : Int} (aligned : cursor % minute = 0) :
    ∀ time ∈ breakTimes segments cursor, time % minute = 0 := by
  induction segments generalizing cursor with
  | nil => exact fun time member => by cases member
  | cons segment segments ih =>
    have pause : (cursor + segment * minute) % minute = 0 := by
      simp only [minute] at aligned ⊢
      omega
    have work : (cursor + segment * minute + 30 * minute) % minute = 0 := by
      simp only [minute] at pause ⊢
      omega
    intro time member
    simp only [breakTimes, List.mem_cons] at member
    rcases member with rfl | rfl | member
    · exact pause
    · exact work
    · exact ih work time member

theorem automaticBreakEvents_aligned {start finish : Int} (aligned : start % minute = 0) :
    ∀ time ∈ automaticBreakEvents start finish, time % minute = 0 := by
  simp only [automaticBreakEvents]
  split
  · exact fun time member => by cases member
  · exact breakTimes_aligned aligned

theorem additions_aligned {time : Timestamp} {paired : Option Timestamp}
    (aligned : ∀ wall ∈ wallsOn (db.eventsOf employment.id) time.date, wall % minute = 0) (first : time.wall % minute = 0)
    (second : ∀ finish ∈ paired, finish.wall % minute = 0)
    (added : eventAdditions zone db employment time paired = .ok additions) :
    ∀ addition ∈ additions, addition.wall % minute = 0 := by
  intro addition member
  rcases mem_eventAdditions added member with rfl | ⟨given, -⟩ | ⟨start, finish, closes, wall, inside, rfl⟩
  · exact first
  · exact second addition given
  · apply automaticBreakEvents_aligned _ wall inside
    cases closes with
    | pair given sameDay => exact first
    | single alone found =>
      rcases Nat.mod_two_eq_zero_or_one (dayIndex db employment.id time) with even | odd
      · rw [previousEvent_even even] at found
        cases found
      · obtain ⟨front, previous, found', shape⟩ := previousEvent_odd odd
        obtain rfl := Option.some.inj (found'.symm.trans found)
        apply aligned
        rw [wallsOn_around, shape]
        simp

/-- The additions of a request leave the work of its day short. -/
theorem additions_short {time : Timestamp} {paired : Option Timestamp}
    (enabled : employment.profile.automaticBreaksEnabled = true)
    (aligned : ∀ wall ∈ wallsOn (db.eventsOf employment.id) time.date, wall % minute = 0) (first : time.wall % minute = 0)
    (second : ∀ finish ∈ paired, finish.wall % minute = 0)
    (short : Short (wallsOn (db.eventsOf employment.id) time.date))
    (added : eventAdditions zone db employment time paired = .ok additions) {walls : List Int}
    (sorted : walls.Pairwise (· ≤ ·))
    (perm : walls.Perm (wallsOn (db.eventsOf employment.id) time.date ++ additions.map Timestamp.wall))
    (alone : paired = none → LaterShort db employment.id time)
    (closed : paired ≠ none → (wallsOn (db.eventsOf employment.id) time.date).length % 2 = 0 ∨
      ∀ last ∈ (wallsOn (db.eventsOf employment.id) time.date).getLast?, time.wall ≤ last + longestWork) : Short walls := by
  cases paired with
  | none =>
    simp only [eventAdditions, Except.ok.injEq] at added
    subst added
    exact single_short rfl enabled short aligned first (alone rfl) sorted perm
  | some finish =>
    simp only [eventAdditions, addClosedIntervalWithBreaks, bind_eq_ok, raiseIf_eq_ok, pure_eq_ok, not_not, not_le,
      enabled, if_true] at added
    obtain ⟨_, -, _, below, rfl⟩ := added
    have whole := second finish rfl
    refine short_pair (wallsOn_sorted _ _) below ?_ short (closed (by simp)) sorted ?_
    · simp only [minute] at first whole ⊢
      omega
    · have pauses : Timestamp.wall ∘ zone.attach = id := rfl
      rw [List.map_append, List.map_cons, List.map_map, pauses, List.map_id] at perm
      exact perm

/-- One accepted request about the employment itself. -/
theorem Creation.paused (creation : Creation zone clock db next body employment additions flushed synced)
    (enabled : employment.profile.automaticBreaksEnabled = true) (paused : Paused zone employment db)
    (whole : ∀ time ∈ bodyTimes zone body, time.wall % minute = 0) (settled : ∀ time ∈ additions, zone.Settled time)
    (closes : ClosesShort zone db body) : Paused zone employment next := by
  obtain ⟨events, staff⟩ := creation.settles paused.rested settled
  have owner := (employment_again creation.found).2.1
  have day := additions_date creation.added
  have inserted (date : Int) := wallsOn_inserted creation.inserted date
  have first : (pragueNow zone body.occurredAt).wall % minute = 0 := whole _ (by simp [bodyTimes])
  have second : ∀ finish ∈ body.pairedOccurredAt.map (pragueNow zone), finish.wall % minute = 0 := by
    intro finish given
    exact whole finish (List.mem_cons_of_mem _ (Option.mem_toList.mpr given))
  have added : ∀ addition ∈ additions, addition.wall % minute = 0 :=
    additions_aligned (paused.aligned _) first second creation.added
  have same : next.eventsOf employment.id = flushed.eventsOf employment.id := by rw [Db.eventsOf, events, Db.eventsOf]
  refine ⟨creation.committed ▸ commit_rested zone synced, staff ▸ paused.stored, ?_, ?_⟩
  · intro date wall member
    rw [same, (inserted date).mem_iff, List.mem_append] at member
    rcases member with old | new
    · exact paused.aligned date wall old
    · obtain ⟨addition, listed, rfl⟩ := List.mem_map.mp new
      exact added addition (List.mem_filter.mp listed).1
  · intro date
    rw [same]
    have perm := inserted date
    by_cases today : date = (pragueNow zone body.occurredAt).date
    · subst today
      have every : additions.filter (·.date = (pragueNow zone body.occurredAt).date) = additions :=
        List.filter_eq_self.mpr fun addition listed => decide_eq_true (day addition listed)
      rw [every] at perm
      unfold ClosesShort at closes
      rw [← owner] at closes
      refine additions_short enabled (paused.aligned _) first second (paused.short _) creation.added
        (wallsOn_sorted _ _) perm ?_ ?_
      · intro alone
        rw [Option.map_eq_none_iff] at alone
        rw [alone] at closes
        exact closes
      · intro given
        cases paired : body.pairedOccurredAt with
        | none => simp [paired] at given
        | some finish =>
          rw [paired] at closes
          exact closes
    · have none : additions.filter (·.date = date) = [] := by
        rw [List.filter_eq_nil_iff]
        intro addition listed
        rw [decide_eq_true_eq, day addition listed]
        exact Ne.symm today
      rw [none, List.map_nil, List.append_nil] at perm
      rw [List.Perm.eq_of_pairwise (fun _ _ _ _ => le_antisymm) (wallsOn_sorted _ _) (wallsOn_sorted _ _) perm]
      exact paused.short date

/-- A request about another employment leaves the work as it is. -/
theorem Creation.paused_other {other : Employment}
    (creation : Creation zone clock db next body other additions flushed synced) (different : employment.id ≠ other.id)
    (paused : Paused zone employment db) (settled : ∀ time ∈ additions, zone.Settled time) :
    Paused zone employment next := by
  obtain ⟨events, staff⟩ := creation.settles paused.rested settled
  have same : next.eventsOf employment.id = db.eventsOf employment.id := by
    rw [← eventsOf_inserted_other creation.inserted different, Db.eventsOf, events, Db.eventsOf]
  exact ⟨creation.committed ▸ commit_rested zone synced, staff ▸ paused.stored, same ▸ paused.aligned, same ▸ paused.short⟩

end Steps

section Runs

/-- After any create requests on full minutes, each of which closes nothing long beside its own
interval, no closed interval of an employment with automatic pauses is longer than six hours. -/
theorem run_intervals_short (zone : Zone) (db : Db) (rested : Rested zone db) (employment : Employment)
    (stored : db.employments.get employment.id = some employment)
    (enabled : employment.profile.automaticBreaksEnabled = true) (unworked : db.eventsOf employment.id = [])
    (calls : List Call)
    (meets : RunMeets zone (fun db call => CreatesOnMinutes zone db call ∧ ∀ body, Request.creates call.request = some body →
      body.employmentId = employment.id → ClosesShort zone db body) db calls) :
    ∀ interval ∈ pairEvents ((run zone db calls).eventsOf employment.id),
      interval.finish - interval.start ≤ 360 * minute := by
  have start : Paused zone employment db := by
    refine ⟨rested, stored, ?_, ?_⟩
    · intro date wall member
      rw [unworked] at member
      cases member
    · intro date pair member
      rw [unworked] at member
      cases member
  have paused : Paused zone employment (run zone db calls) := by
    refine run_keeps (Paused zone employment) start meets ?_
    intro db call next paused condition done
    obtain ⟨⟨body, creates, whole, settled⟩, closes⟩ := condition
    obtain ⟨other, additions, flushed, synced, creation⟩ := creation_of_handle creates done
    have written : Request.writes zone db call.request = additions := by
      rw [← creation.writes]
      cases request : call.request <;> rw [request] at creates <;> cases creates <;> rfl
    have settled := written ▸ settled next done
    by_cases same : employment.id = other.id
    · have owner := (employment_again creation.found).2.1
      obtain rfl : employment = other := by
        have found := (employment_again creation.found).1
        rw [← same] at found
        exact Option.some.inj (paused.stored.symm.trans found)
      exact creation.paused enabled paused whole settled (closes body creates owner.symm)
    · exact creation.paused_other same paused settled
  intro interval member
  exact paused.short _ _ (mem_pairEvents_iff.mp member).2

def pausedEmployment : Employment := ⟨1, 1, .dppDpc, { automaticBreaksEnabled := true }, ordinal 2026 1 1, none⟩

def pausedDb : Db := Db.blank sampleDb.users ⟨[pausedEmployment], by decide⟩ 2

/-- An event at a minute of 5 August 2026, counted in universal time. -/
def createAt (minutes : Int) : Call := ⟨sampleClock, .adminCreateEvent ⟨1, .aware (midnight 739833 + minutes * minute), none⟩⟩

theorem createAt_onMinutes (db : Db) (minutes : Int)
    (settled : ∀ time ∈ Request.writes sampleZone db (createAt minutes).request, sampleZone.Settled time)
    (whole : (sampleZone.toWall (midnight 739833 + minutes * minute)) % minute = 0) :
    CreatesOnMinutes sampleZone db (createAt minutes) := by
  refine ⟨_, rfl, ?_, fun _ _ => settled⟩
  intro time member
  rw [List.mem_singleton.mp member]
  exact whole

/-- From eight in the morning to four in the afternoon, in this order. -/
theorem sample_intervals_short : (pairEvents ((run sampleZone pausedDb [createAt 360, createAt 840]).eventsOf 1)).all
    fun interval => interval.finish - interval.start ≤ 360 * minute := by
  have rested : Rested sampleZone pausedDb := by
    intro event member
    cases member
  refine List.all_eq_true.mpr fun interval member => decide_eq_true (run_intervals_short sampleZone pausedDb rested pausedEmployment rfl rfl rfl [createAt 360, createAt 840]
    ⟨⟨createAt_onMinutes _ _ (by decide +kernel) (by decide +kernel), ?_⟩,
      ⟨createAt_onMinutes _ _ (by decide +kernel) (by decide +kernel), ?_⟩, trivial⟩ interval member)
  · intro body creates _
    cases creates
    have short : LaterShort pausedDb 1 (sampleZone.load (midnight 739833 + 360 * minute)) := by decide +kernel
    exact short
  · intro body creates _
    cases creates
    have short : LaterShort (run sampleZone pausedDb [createAt 360]) 1 (sampleZone.load (midnight 739833 + 840 * minute)) := by
      decide +kernel
    exact short

example : pairEvents ((run sampleZone pausedDb [createAt 360, createAt 840]).eventsOf 1) =
    [⟨midnight 739833 + 480 * minute, midnight 739833 + 840 * minute⟩,
      ⟨midnight 739833 + 870 * minute, midnight 739833 + 960 * minute⟩] := by decide +kernel

/-- The same two times in the other order leave eight hours without a pause. -/
theorem earlier_time_leaves_long_interval :
    RunMeets sampleZone (CreatesOnMinutes sampleZone) pausedDb [createAt 840, createAt 360] ∧
      ∃ interval ∈ pairEvents ((run sampleZone pausedDb [createAt 840, createAt 360]).eventsOf 1),
        360 * minute < interval.finish - interval.start := by
  refine ⟨⟨?_, ?_, trivial⟩, ?_⟩
  · exact createAt_onMinutes _ _ (by decide +kernel) (by decide +kernel)
  · exact createAt_onMinutes _ _ (by decide +kernel) (by decide +kernel)
  · decide +kernel

end Runs

end Dagmar.Proofs
