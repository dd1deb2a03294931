import Dagmar.TimeMetrics

/-! Pairing is local to a day: the pairs of a day are computed from the events of
that day alone, and every pair lies within one day. -/

namespace Dagmar.Proofs
open Library.Pairing

instance : IsTrans AttendanceEvent eventLe where
  trans first second third left right := by
    simp only [eventLe] at *
    omega

instance : Std.Total eventLe where
  total left right := by
    simp only [eventLe]
    omega

/-- The numbers of a list of events tell its events apart. -/
def Numbered (events : List AttendanceEvent) : Prop :=
  events.Nodup ∧ ∀ left ∈ events, ∀ right ∈ events, left.id = right.id → left = right

theorem Numbered.filter {events : List AttendanceEvent} (numbered : Numbered events) (p : AttendanceEvent → Bool) :
    Numbered (events.filter p) :=
  ⟨numbered.1.filter p, fun left inLeft right inRight =>
    numbered.2 left (List.mem_of_mem_filter inLeft) right (List.mem_of_mem_filter inRight)⟩

theorem numbered_eventsOf (db : Db) (employmentId : Int) : Numbered (db.eventsOf employmentId) := by
  refine ⟨db.events.select_nodup _, ?_⟩
  intro left inLeft right inRight same
  exact db.events.key_inj (Db.mem_eventsOf.mp inLeft).1 (Db.mem_eventsOf.mp inRight).1 same

/-- The events of one day. -/
def eventsOn (events : List AttendanceEvent) (date : Int) : List AttendanceEvent :=
  events.filter (·.occurredAt.date = date)

theorem Numbered.eventsOn {events : List AttendanceEvent} (numbered : Numbered events) (date : Int) :
    Numbered (eventsOn events date) := numbered.filter _

theorem mem_eventsOn {events : List AttendanceEvent} {date : Int} {event : AttendanceEvent} :
    event ∈ eventsOn events date ↔ event ∈ events ∧ event.occurredAt.date = date := by
  simp [eventsOn]

@[simp] theorem mem_orderedEvents {events : List AttendanceEvent} {event : AttendanceEvent} :
    event ∈ orderedEvents events ↔ event ∈ events := by
  simp [orderedEvents]

/-- The order of a day depends only on which events it has. -/
theorem orderedEvents_congr {first second : List AttendanceEvent} (numbered : Numbered first) (numbered' : Numbered second)
    (same : ∀ event, event ∈ first ↔ event ∈ second) : orderedEvents first = orderedEvents second := by
  apply insertionSort_congr eventLe numbered.1 numbered'.1 same
  intro left inLeft right inRight below above
  apply numbered.2 left inLeft right inRight
  simp only [eventLe] at below above
  omega

theorem orderedEvents_filter (events : List AttendanceEvent) (date : Int) :
    (orderedEvents events).filter (·.occurredAt.date = date) = orderedEvents (eventsOn events date) :=
  filter_insertionSort eventLe _ events

/-- The closed intervals of a day, from its events. -/
def dayWork (events : List AttendanceEvent) (date : Int) : List WorkInterval :=
  (dayPairs (orderedEvents (eventsOn events date))).map pairInterval

theorem mem_dayPairs {events : List AttendanceEvent} {pair : AttendanceEvent × AttendanceEvent}
    (member : pair ∈ dayPairs events) :
    pair.1 ∈ events ∧ pair.2 ∈ events ∧ pair.1.occurredAt.wall < pair.2.occurredAt.wall ∧
      pair.2.occurredAt.wall - pair.1.occurredAt.wall < day := by
  obtain ⟨inside, bounds⟩ := List.mem_filter.mp member
  obtain ⟨first, second⟩ := mem_of_mem_pairUp inside
  simp only [decide_eq_true_eq] at bounds
  exact ⟨first, second, by omega, bounds.2⟩

theorem ordered_today (events : List AttendanceEvent) (date : Int) :
    ∀ event ∈ orderedEvents (eventsOn events date), event.occurredAt.date = date :=
  fun _ member => (mem_eventsOn.mp (mem_orderedEvents.mp member)).2

/-- Two events of one day are never too far apart, so a pair of them counts when it goes forward. -/
theorem mem_dayPairs_iff {events : List AttendanceEvent} {date : Int} (today : ∀ event ∈ events, event.occurredAt.date = date)
    {pair : AttendanceEvent × AttendanceEvent} :
    pair ∈ dayPairs events ↔ pair ∈ pairUp events ∧ pair.1.occurredAt.wall < pair.2.occurredAt.wall := by
  rw [dayPairs, List.mem_filter, decide_eq_true_eq]
  refine and_congr_right fun member => ?_
  obtain ⟨first, second⟩ := mem_of_mem_pairUp member
  have one := today _ first
  have other := today _ second
  simp only [Timestamp.date, dateOf, day] at one other ⊢
  omega

/-- Events of one day at ascending times are paired in their order. -/
theorem dayPairs_ascending {events : List AttendanceEvent} {date : Int} (today : ∀ event ∈ events, event.occurredAt.date = date)
    (ascending : (events.map (·.occurredAt.wall)).Pairwise (· < ·)) : dayPairs events = pairUp events := by
  refine List.filter_eq_self.mpr fun pair member => ?_
  have walls : (pair.1.occurredAt.wall, pair.2.occurredAt.wall) ∈ pairUp (events.map (·.occurredAt.wall)) := by
    rw [pairUp_map]
    exact List.mem_map_of_mem member
  have counted := (mem_dayPairs_iff today).mpr ⟨member, pairUp_below ascending walls⟩
  exact (List.mem_filter.mp counted).2

theorem mem_pairEventRows {events : List AttendanceEvent} {pair : AttendanceEvent × AttendanceEvent} :
    pair ∈ pairEventRows events ↔ ∃ date, pair ∈ dayPairs (orderedEvents (eventsOn events date)) := by
  simp only [pairEventRows, List.mem_flatMap, List.mem_dedup, List.mem_map, mem_orderedEvents, orderedEvents_filter]
  constructor
  · intro found
    obtain ⟨date, -, member⟩ := found
    exact ⟨date, member⟩
  · intro found
    obtain ⟨date, member⟩ := found
    have first := mem_eventsOn.mp (mem_orderedEvents.mp (mem_dayPairs member).1)
    exact ⟨date, ⟨pair.1, first⟩, member⟩

/-- Both ends of a pair are events of the same day, one strictly after the other. -/
theorem pair_sameDay {events : List AttendanceEvent} {pair : AttendanceEvent × AttendanceEvent}
    (member : pair ∈ pairEventRows events) :
    pair.1 ∈ events ∧ pair.2 ∈ events ∧ pair.1.occurredAt.wall < pair.2.occurredAt.wall ∧
      pair.1.occurredAt.date = pair.2.occurredAt.date := by
  obtain ⟨date, inside⟩ := mem_pairEventRows.mp member
  obtain ⟨first, second, below, -⟩ := mem_dayPairs inside
  rw [mem_orderedEvents, mem_eventsOn] at first second
  exact ⟨first.1, second.1, below, first.2.trans second.2.symm⟩

theorem mem_dayWork {events : List AttendanceEvent} {date : Int} {interval : WorkInterval}
    (member : interval ∈ dayWork events date) :
    interval.start < interval.finish ∧ dateOf interval.start = date ∧ dateOf interval.finish = date := by
  obtain ⟨pair, inside, rfl⟩ := List.mem_map.mp member
  obtain ⟨first, second, below, -⟩ := mem_dayPairs inside
  rw [mem_orderedEvents, mem_eventsOn] at first second
  exact ⟨below, first.2, second.2⟩

theorem mem_pairEvents {events : List AttendanceEvent} {interval : WorkInterval} :
    interval ∈ pairEvents events ↔ interval ∈ dayWork events (dateOf interval.start) := by
  simp only [pairEvents, List.mem_map, mem_pairEventRows]
  constructor
  · intro found
    obtain ⟨pair, ⟨date, member⟩, rfl⟩ := found
    have first := mem_eventsOn.mp (mem_orderedEvents.mp (mem_dayPairs member).1)
    refine List.mem_map.mpr ⟨pair, ?_, rfl⟩
    rw [show dateOf (pairInterval pair).start = date from first.2]
    exact member
  · intro found
    obtain ⟨pair, member, same⟩ := List.mem_map.mp found
    exact ⟨pair, ⟨_, member⟩, same⟩

/-- An interval within one day is its own only part. -/
theorem splitByDay_sameDay {interval : WorkInterval} (below : interval.start < interval.finish)
    (same : dateOf interval.start = dateOf interval.finish) : splitByDay interval = [(dateOf interval.start, interval)] := by
  simp [splitByDay, same, splitFrom, below]

theorem pairEvents_sameDay {events : List AttendanceEvent} {interval : WorkInterval} (member : interval ∈ pairEvents events) :
    interval.start < interval.finish ∧ dateOf interval.start = dateOf interval.finish := by
  obtain ⟨below, first, second⟩ := mem_dayWork (mem_pairEvents.mp member)
  exact ⟨below, first.trans second.symm⟩

theorem dayWork_congr {first second : List AttendanceEvent} {date : Int} (numbered : Numbered first)
    (numbered' : Numbered second)
    (same : ∀ event : AttendanceEvent, event.occurredAt.date = date → (event ∈ first ↔ event ∈ second)) :
    dayWork first date = dayWork second date := by
  have order : orderedEvents (eventsOn first date) = orderedEvents (eventsOn second date) := by
    apply orderedEvents_congr (numbered.eventsOn date) (numbered'.eventsOn date)
    intro event
    rw [mem_eventsOn, mem_eventsOn]
    exact and_congr_left (same event)
  rw [dayWork, dayWork, order]

theorem flatMap_single {α : Type} {days : List Int} (distinct : days.Nodup) (date : Int) (f : Int → List α) :
    (days.flatMap fun other => if other = date then f date else []) = if date ∈ days then f date else [] := by
  induction days with
  | nil => rfl
  | cons first days ih =>
    obtain ⟨fresh, distinct⟩ := List.nodup_cons.mp distinct
    rw [List.flatMap_cons, ih distinct]
    by_cases same : first = date
    · subst same
      simp [fresh]
    · simp [same, Ne.symm same]

/-- The pairs of all events are those of each day with an event, one day after another. -/
theorem pairEvents_days (events : List AttendanceEvent) :
    pairEvents events = ((orderedEvents events).map (·.occurredAt.date)).dedup.flatMap (dayWork events) := by
  simp only [pairEvents, pairEventRows, orderedEvents_filter, List.map_flatMap]
  rfl

theorem eventsOn_nil {events : List AttendanceEvent} {date : Int}
    (absent : date ∉ ((orderedEvents events).map (·.occurredAt.date)).dedup) : eventsOn events date = [] := by
  apply List.eq_nil_iff_forall_not_mem.mpr
  intro event member
  obtain ⟨inside, same⟩ := mem_eventsOn.mp member
  apply absent
  rw [List.mem_dedup, List.mem_map]
  exact ⟨event, mem_orderedEvents.mpr inside, same⟩

/-- The paired rows of a day are the pairs of its events. -/
theorem pairEventRows_day (events : List AttendanceEvent) (date : Int) :
    (pairEventRows events).filter (·.1.occurredAt.date = date) = dayPairs (orderedEvents (eventsOn events date)) := by
  have each (other : Int) : (dayPairs (orderedEvents (eventsOn events other))).filter (·.1.occurredAt.date = date) =
      if other = date then dayPairs (orderedEvents (eventsOn events date)) else [] := by
    have today : ∀ pair ∈ dayPairs (orderedEvents (eventsOn events other)), pair.1.occurredAt.date = other := by
      intro pair member
      exact (mem_eventsOn.mp (mem_orderedEvents.mp (mem_dayPairs member).1)).2
    split
    next same =>
      subst same
      exact List.filter_eq_self.mpr fun pair member => decide_eq_true (today pair member)
    next different =>
      refine List.filter_eq_nil_iff.mpr fun pair member => ?_
      rw [today pair member]
      simpa using different
  simp only [pairEventRows, orderedEvents_filter, List.filter_flatMap, each]
  rw [flatMap_single (List.nodup_dedup _) date fun date => dayPairs (orderedEvents (eventsOn events date))]
  split
  · rfl
  next absent =>
    rw [eventsOn_nil absent]
    rfl

theorem pairEventRows_eventsOn (events : List AttendanceEvent) (date : Int) :
    pairEventRows (eventsOn events date) = dayPairs (orderedEvents (eventsOn events date)) := by
  have whole : eventsOn (eventsOn events date) date = eventsOn events date :=
    List.filter_eq_self.mpr fun event member => decide_eq_true (mem_eventsOn.mp member).2
  have rows := pairEventRows_day (eventsOn events date) date
  rw [whole] at rows
  rw [← rows]
  refine (List.filter_eq_self.mpr fun pair member => ?_).symm
  exact decide_eq_true (mem_eventsOn.mp (pair_sameDay member).1).2

/-- The parts of the paired intervals on a day are the pairs of that day. -/
theorem dayIntervals_pairEvents (events : List AttendanceEvent) (date : Int) :
    dayIntervals date (pairEvents events) = dayWork events date := by
  have local' (other : Int) : dayIntervals date (dayWork events other) = if other = date then dayWork events date else [] := by
    have each : ∀ interval ∈ dayWork events other,
        ((splitByDay interval).filter (·.1 = date)).map Prod.snd = if other = date then [interval] else [] := by
      intro interval member
      obtain ⟨below, first, second⟩ := mem_dayWork member
      rw [splitByDay_sameDay below (first.trans second.symm), first]
      by_cases same : other = date <;> simp [same]
    rw [dayIntervals, List.flatMap_congr each]
    by_cases same : other = date <;> simp [same]
  have parts : dayIntervals date (pairEvents events) = ((orderedEvents events).map (·.occurredAt.date)).dedup.flatMap
      fun other => dayIntervals date (dayWork events other) := by
    rw [pairEvents_days, dayIntervals, List.flatMap_assoc]
    rfl
  rw [parts]
  simp only [local']
  rw [flatMap_single (List.nodup_dedup _) date (dayWork events)]
  split
  · rfl
  next absent =>
    rw [dayWork, eventsOn_nil absent]
    rfl

end Dagmar.Proofs
