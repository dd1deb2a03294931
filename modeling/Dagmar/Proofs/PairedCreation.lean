import Dagmar.Proofs.Backfilling
import Dagmar.Proofs.BreakPieces

/-! Creating a closed interval. Its times are merged with those of the day, which are
paired anew, so the day gains the requested work exactly when the new times fall
between old intervals. -/

namespace Dagmar.Proofs
open Library Library.Calendar Library.Outcome Library.Pairing

section Requested

/-- The parts of an interval that pauses leave. -/
def workAround (finish : Int) : Int → List (Int × Int) → List WorkInterval
  | start, [] => [⟨start, finish⟩]
  | start, (pause, resume) :: pauses => ⟨start, pause⟩ :: workAround finish resume pauses

/-- The pauses that a new interval of an employment gets. -/
def insertedPauses (employment : Employment) (start finish : Int) : List (Int × Int) :=
  if employment.profile.automaticBreaksEnabled then pairUp (automaticBreakEvents start finish) else []

/-- The work that a request for a closed interval is about. -/
def requestedWork (employment : Employment) (start finish : Int) : List WorkInterval :=
  workAround finish start (insertedPauses employment start finish)

/-- The times that the request writes, in order. -/
def requestedTimes (employment : Employment) (start finish : Int) : List Int :=
  start :: pauseWalls (insertedPauses employment start finish) ++ [finish]

variable {employment : Employment} {start finish : Int}

theorem pauseWalls_pairUp {times : List Int} (even : times.length % 2 = 0) : pauseWalls (pairUp times) = times := by
  induction times using pairUp.induct with
  | case1 first second rest ih =>
    have shorter : rest.length % 2 = 0 := by
      simp only [List.length_cons] at even
      omega
    rw [pairUp_cons_cons, pauseWalls, List.flatMap_cons, ← pauseWalls, ih shorter]
    rfl
  | case2 times shape =>
    rcases times with - | ⟨first, - | ⟨second, rest⟩⟩
    · rfl
    · simp at even
    · exact absurd rfl (shape first second rest)

theorem automaticBreakEvents_ascending : (automaticBreakEvents start finish).Pairwise (· < ·) := by
  by_cases long : 360 < (finish - start) / minute
  · obtain ⟨front, last, same, each, piece, -⟩ := automaticBreakEvents_long long
    have positive : ∀ segment ∈ front ++ [last], 1 ≤ segment := by
      intro segment member
      rcases List.mem_append.mp member with member | member
      · exact (each segment member).1
      · exact List.mem_singleton.mp member ▸ piece.1
    have whole := List.isChain_iff_pairwise.mp (@breakTimes_ascending front last start positive)
    rw [same]
    rw [List.cons_append, List.pairwise_cons, List.pairwise_append] at whole
    exact whole.2.1
  · rw [automaticBreakEvents_short (not_lt.mp long)]
    exact List.Pairwise.nil

theorem pauses_half_hour {pause : Int × Int} (member : pause ∈ insertedPauses employment start finish) :
    pause.2 = pause.1 + 30 * minute := by
  have each (segments : List Int) (cursor : Int) : ∀ pause ∈ pairUp (breakTimes segments cursor), pause.2 = pause.1 + 30 * minute := by
    induction segments generalizing cursor with
    | nil => exact fun pause member => by cases member
    | cons segment segments ih =>
      simp only [breakTimes, pairUp_cons_cons, List.forall_mem_cons]
      exact ⟨trivial, ih _⟩
  unfold insertedPauses at member
  split at member
  · simp only [automaticBreakEvents] at member
    split at member
    · cases member
    · exact each _ _ pause member
  · cases member

theorem requestedTimes_eq : requestedTimes employment start finish =
    start :: (if employment.profile.automaticBreaksEnabled then automaticBreakEvents start finish else []) ++ [finish] := by
  rw [requestedTimes, insertedPauses]
  split
  · rw [pauseWalls_pairUp (automaticBreakEvents_even start finish)]
  · rfl

theorem requestedTimes_ascending (below : start < finish) : (requestedTimes employment start finish).Pairwise (· < ·) := by
  rw [requestedTimes_eq, List.cons_append, List.pairwise_cons, List.pairwise_append]
  have inside : ∀ time ∈ (if employment.profile.automaticBreaksEnabled then automaticBreakEvents start finish else []),
      start < time ∧ time < finish := by
    split
    · exact fun time => mem_automaticBreakEvents
    · exact fun time member => by cases member
  refine ⟨?_, ?_, List.pairwise_singleton _ _, ?_⟩
  · intro time member
    rcases List.mem_append.mp member with pause | last
    · exact (inside time pause).1
    · exact List.mem_singleton.mp last ▸ below
  · split
    · exact automaticBreakEvents_ascending
    · exact List.Pairwise.nil
  · intro time pause last member
    exact List.mem_singleton.mp member ▸ (inside time pause).2

theorem requestedTimes_even : (requestedTimes employment start finish).length % 2 = 0 := by
  have even : (if employment.profile.automaticBreaksEnabled then automaticBreakEvents start finish else []).length % 2 = 0 := by
    split
    · exact automaticBreakEvents_even start finish
    · rfl
  rw [requestedTimes_eq]
  simp only [List.length_append, List.length_cons, List.length_nil]
  omega

/-- The times in order are the ends of the requested work. -/
theorem requestedWork_eq : requestedWork employment start finish = (pairUp (requestedTimes employment start finish)).map asInterval := by
  have cut (pauses : List (Int × Int)) (cursor : Int) :
      workAround finish cursor pauses = (pairUp (cursor :: pauseWalls pauses ++ [finish])).map asInterval := by
    induction pauses generalizing cursor with
    | nil => rfl
    | cons pause pauses ih => exact congrArg (WorkInterval.mk cursor pause.1 :: ·) (ih pause.2)
  exact cut _ _

end Requested

section Merged
variable {before after : List AttendanceEvent} {date : Int} {times : List Int}

/-- The intervals gained some work, and are otherwise what they were. -/
def AddsExactly (before after : List AttendanceEvent) (work : List WorkInterval) : Prop :=
  ∀ interval, interval ∈ pairEvents after ↔ interval ∈ pairEvents before ∨ interval ∈ work

/-- No time of a day is inside the work, and an even number of them comes before each of its parts. -/
def FitsBetween (events : List AttendanceEvent) (date : Int) (work : List WorkInterval) : Prop :=
  ∀ piece ∈ work,
    (∀ event ∈ eventsOn events date, ¬ (piece.start < event.occurredAt.wall ∧ event.occurredAt.wall < piece.finish)) ∧
      (eventsOn events date).countP (fun event => event.occurredAt.wall < piece.start) % 2 = 0

instance (events : List AttendanceEvent) (date : Int) (work : List WorkInterval) : Decidable (FitsBetween events date work) :=
  inferInstanceAs (Decidable (∀ piece ∈ work, _))

theorem fitsBetween_iff : FitsBetween before date ((pairUp times).map asInterval) ↔ PairsFit (wallsOn before date) times := by
  have count (point : Int) : (wallsOn before date).countP (· < point) =
      (eventsOn before date).countP fun event => event.occurredAt.wall < point := by
    rw [(wallsOn_perm before date).countP_eq, List.countP_map]
    rfl
  have inside (pair : Int × Int) : (∀ wall ∈ wallsOn before date, ¬ (pair.1 < wall ∧ wall < pair.2)) ↔
      ∀ event ∈ eventsOn before date, ¬ (pair.1 < event.occurredAt.wall ∧ event.occurredAt.wall < pair.2) := by
    simp only [(wallsOn_perm before date).mem_iff, List.forall_mem_map]
  simp only [FitsBetween, PairsFit, List.forall_mem_map, asInterval, inside, count]
  exact Iff.rfl

/-- Times written to one day among those of the events. -/
structure Merged (before after : List AttendanceEvent) (date : Int) (times : List Int) : Prop where
  distinct : Distinct before
  distinct' : Distinct after
  ascending : times.Pairwise (· < ·)
  even : times.length % 2 = 0
  today : ∀ time ∈ times, dateOf time = date
  walls : (wallsOn after date).Perm (wallsOn before date ++ times)
  otherDays : ∀ other, other ≠ date → wallsOn after other = wallsOn before other

theorem Merged.adds_iff (merged : Merged before after date times) :
    AddsExactly before after ((pairUp times).map asInterval) ↔ FitsBetween before date ((pairUp times).map asInterval) := by
  have ascending := wallsOn_ascending merged.distinct' date
  have added (interval : WorkInterval) :
      interval ∈ (pairUp times).map asInterval ↔ (interval.start, interval.finish) ∈ pairUp times := by
    constructor
    · intro member
      obtain ⟨pair, listed, rfl⟩ := List.mem_map.mp member
      exact listed
    · exact fun member => List.mem_map.mpr ⟨_, member, rfl⟩
  rw [fitsBetween_iff, ← mem_pairUp_merged ascending merged.walls (wallsOn_ascending merged.distinct date) merged.ascending
    merged.even]
  constructor
  · intro exact' pair
    have same := exact' (asInterval pair)
    rw [mem_pairEvents_iff, mem_pairEvents_iff, added] at same
    simp only [asInterval] at same
    by_cases today : dateOf pair.1 = date
    · rw [today] at same
      constructor
      · intro listed
        exact (same.mp ⟨pairUp_below ascending listed, listed⟩).imp And.right id
      · rintro (old | new)
        · exact (same.mpr (.inl ⟨pairUp_below (wallsOn_ascending merged.distinct date) old, old⟩)).2
        · exact (same.mpr (.inr new)).2
    · refine iff_of_false ?_ ?_
      · exact fun listed => today (mem_wallsOn.mp (mem_of_mem_pairUp listed).1).1
      · rintro (old | new)
        · exact today (mem_wallsOn.mp (mem_of_mem_pairUp old).1).1
        · exact today (merged.today _ (mem_of_mem_pairUp new).1)
  · intro same interval
    rw [mem_pairEvents_iff, mem_pairEvents_iff, added]
    by_cases today : dateOf interval.start = date
    · rw [today, same]
      constructor
      · rintro ⟨below, old | new⟩
        · exact .inl ⟨below, old⟩
        · exact .inr new
      · rintro (⟨below, old⟩ | new)
        · exact ⟨below, .inl old⟩
        · exact ⟨pairUp_below merged.ascending new, .inr new⟩
    · rw [merged.otherDays _ today]
      refine (or_iff_left fun new => ?_).symm
      exact today (merged.today _ (mem_of_mem_pairUp new).1)

end Merged

section Creating
variable {zone : Zone} {clock : Clock} {db next flushed synced : Db} {employment : Employment} {additions : List Timestamp}
  {body : AttendanceEventIn} {finish : RequestTime}

/-- No change of the clock touches a day: its wall times and its instants determine each other. -/
structure PlainDay (zone : Zone) (date : Int) : Prop where
  steady : SteadyOn zone date
  single : ∀ utc, dateOf (zone.toWall utc) = date → zone.toUtc (zone.toWall utc) = utc

theorem PlainDay.instant {date : Int} (plain : PlainDay zone date) {time : Timestamp} (settled : zone.Settled time)
    (today : time.date = date) : time.utc = zone.toUtc time.wall := by
  rw [← settled]
  exact (plain.single time.utc (by rw [settled]; exact today)).symm

theorem PlainDay.settled {date : Int} (plain : PlainDay zone date) {time : Timestamp} (placed : Placed zone time)
    (today : time.date = date) : zone.Settled time := by
  rcases placed with settled | computed
  · exact settled
  · rw [Zone.Settled, computed]
    exact plain.steady time.wall today

/-- What a request for a closed interval writes. -/
theorem closedAdditions_ok (paired : body.pairedOccurredAt = some finish)
    (added : eventAdditions zone db employment (pragueNow zone body.occurredAt)
      (body.pairedOccurredAt.map (pragueNow zone)) = .ok additions) :
    (pragueNow zone finish).date = (pragueNow zone body.occurredAt).date ∧
      (pragueNow zone body.occurredAt).wall < (pragueNow zone finish).wall ∧
      additions.map Timestamp.wall =
        requestedTimes employment (pragueNow zone body.occurredAt).wall (pragueNow zone finish).wall := by
  simp only [paired, Option.map_some, eventAdditions, addClosedIntervalWithBreaks, bind_eq_ok, raiseIf_eq_ok, pure_eq_ok,
    not_not, not_le] at added
  obtain ⟨_, sameDay, _, below, rfl⟩ := added
  refine ⟨sameDay, below, ?_⟩
  rw [requestedTimes_eq, List.map_append, List.map_cons]
  congr 2
  split
  · rw [List.map_map]
    exact List.map_id _
  · rfl

theorem Creation.merged (creation : Creation zone clock db next body employment additions flushed synced)
    (rested : Rested zone db) (distinct : Distinct (db.eventsOf employment.id))
    (plain : PlainDay zone (pragueNow zone body.occurredAt).date) (paired : body.pairedOccurredAt = some finish) :
    Merged (db.eventsOf employment.id) (next.eventsOf employment.id) (pragueNow zone body.occurredAt).date
      (requestedTimes employment (pragueNow zone body.occurredAt).wall (pragueNow zone finish).wall) := by
  obtain ⟨sameDay, below, walls⟩ := closedAdditions_ok paired creation.added
  have today := additions_date creation.added
  have settled : ∀ time ∈ additions, zone.Settled time := by
    intro time member
    refine plain.settled ?_ (today time member)
    refine placed_additions (placed_pragueNow zone _) ?_ creation.added time member
    intro other given
    obtain ⟨time, -, rfl⟩ := Option.map_eq_some_iff.mp given
    exact placed_pragueNow zone time
  have events : next.eventsOf employment.id = flushed.eventsOf employment.id := by
    rw [Db.eventsOf, (creation.settles rested settled).1, Db.eventsOf]
  obtain ⟨added, stored, written⟩ := eventsOf_inserted creation.inserted
  have addedWalls : added.map (·.occurredAt.wall) =
      requestedTimes employment (pragueNow zone body.occurredAt).wall (pragueNow zone finish).wall := by
    rw [← walls, ← written, List.map_map]
    rfl
  have ascending := @requestedTimes_ascending employment _ _ below
  have times : ∀ time ∈ requestedTimes employment (pragueNow zone body.occurredAt).wall (pragueNow zone finish).wall,
      dateOf time = (pragueNow zone body.occurredAt).date := by
    intro time member
    rw [← walls] at member
    obtain ⟨addition, listed, rfl⟩ := List.mem_map.mp member
    exact today addition listed
  refine ⟨distinct, ?_, ascending, requestedTimes_even, times, ?_, ?_⟩
  · -- A new time at an old wall time would be at its instant too.
    rw [events, stored, Distinct, List.map_append, addedWalls, List.nodup_append]
    refine ⟨distinct, ascending.imp ne_of_lt, ?_⟩
    rintro wall old other new rfl
    have date := times wall new
    obtain ⟨event, member, rfl⟩ := List.mem_map.mp old
    rw [← addedWalls] at new
    obtain ⟨event', member', same⟩ := List.mem_map.mp new
    have timed : event'.occurredAt ∈ additions := written ▸ List.mem_map_of_mem member'
    have inOld := Db.mem_eventsOf.mp member
    have kept : event ∈ flushed.eventsOf employment.id := stored ▸ List.mem_append_left _ member
    have gained : event' ∈ flushed.eventsOf employment.id := stored ▸ List.mem_append_right _ member'
    have instant : event.occurredAt.utc = event'.occurredAt.utc := by
      rw [plain.instant (rested event inOld.1) date, plain.instant (settled _ timed) (today _ timed), same]
    have equal : event = event' := by
      refine List.inj_on_of_nodup_map (insertEvents_unique creation.inserted) (Db.mem_eventsOf.mp kept).1
        (Db.mem_eventsOf.mp gained).1 ?_
      rw [(Db.mem_eventsOf.mp kept).2, (Db.mem_eventsOf.mp gained).2, instant]
    have nodup : (db.eventsOf employment.id ++ added).Nodup := stored ▸ flushed.events.select_nodup _
    exact (List.nodup_append.mp nodup).2.2 event member event' member' equal
  · have every : additions.filter (·.date = (pragueNow zone body.occurredAt).date) = additions :=
      List.filter_eq_self.mpr fun addition listed => decide_eq_true (today addition listed)
    have perm := wallsOn_inserted creation.inserted (pragueNow zone body.occurredAt).date
    rw [every, walls] at perm
    exact events ▸ perm
  · intro other different
    have none : additions.filter (·.date = other) = [] := by
      rw [List.filter_eq_nil_iff]
      intro addition listed
      rw [decide_eq_true_eq, today addition listed]
      exact different.symm
    have perm := wallsOn_inserted creation.inserted other
    rw [none, List.map_nil, List.append_nil] at perm
    rw [events]
    exact List.Perm.eq_of_pairwise (fun _ _ _ _ => le_antisymm) (wallsOn_sorted _ _) (wallsOn_sorted _ _) perm

/-- An accepted request for a closed interval adds the requested work, and changes no other interval, exactly when no time
of the day is inside this work and an even number of them comes before each of its parts. -/
theorem paired_create_exact (zone : Zone) (clock : Clock) (db next : Db) (request : Request) (body : AttendanceEventIn)
    (finish : RequestTime) (rested : Rested zone db) (distinct : Distinct (db.eventsOf body.employmentId))
    (plain : PlainDay zone (pragueNow zone body.occurredAt).date) (creates : Request.creates request = some body)
    (paired : body.pairedOccurredAt = some finish) (done : request.handle zone clock db = .ok next) :
    ∃ employment, db.employments.get body.employmentId = some employment ∧
      (∀ pause ∈ insertedPauses employment (pragueNow zone body.occurredAt).wall (pragueNow zone finish).wall,
        pause.2 = pause.1 + 30 * minute) ∧
      (AddsExactly (db.eventsOf body.employmentId) (next.eventsOf body.employmentId)
          (requestedWork employment (pragueNow zone body.occurredAt).wall (pragueNow zone finish).wall) ↔
        FitsBetween (db.eventsOf body.employmentId) (pragueNow zone body.occurredAt).date
          (requestedWork employment (pragueNow zone body.occurredAt).wall (pragueNow zone finish).wall)) := by
  obtain ⟨employment, additions, flushed, synced, creation⟩ := creation_of_handle creates done
  obtain ⟨-, owner, -⟩ := employment_again creation.found
  refine ⟨employment, creation.found, fun _ => pauses_half_hour, ?_⟩
  rw [← owner] at distinct ⊢
  rw [requestedWork_eq]
  exact (creation.merged rested distinct plain paired).adds_iff

/-- A request for nine to ten in the morning of 5 August 2026. -/
def innerHour : AttendanceEventIn :=
  ⟨1, .aware (midnight 739833 + 420 * minute), some (.aware (midnight 739833 + 480 * minute))⟩

/-- A request for four to five in the afternoon. -/
def laterHour : AttendanceEventIn :=
  ⟨1, .aware (midnight 739833 + 840 * minute), some (.aware (midnight 739833 + 900 * minute))⟩

theorem sampleZone_plain : PlainDay sampleZone 739833 := by
  refine ⟨sampleZone_steady, fun utc today => ?_⟩
  have change : march2026 = 739704 * day + 60 * minute := by decide
  simp only [sampleZone, pragueSpring, springWall, springUtc, change, dateOf, minute, day] at today ⊢
  split_ifs at today ⊢ <;> omega

/-- After work from eight to three there is room for an hour from four on. -/
theorem sample_paired_create_exact : ∃ next employment,
    (Request.adminCreateEvent laterHour).handle sampleZone sampleClock shortDayDb = .ok next ∧
      AddsExactly (shortDayDb.eventsOf 1) (next.eventsOf 1)
        (requestedWork employment (midnight 739833 + 960 * minute) (midnight 739833 + 1020 * minute)) := by
  have accepted : (((Request.adminCreateEvent laterHour).handle sampleZone sampleClock shortDayDb).toOption.map
      fun next => pairEvents (next.eventsOf 1)).isSome = true := by decide +kernel
  obtain ⟨_, accepted⟩ := Option.isSome_iff_exists.mp accepted
  obtain ⟨next, done, -⟩ := Option.map_eq_some_iff.mp accepted
  have done := toOption_eq_some.mp done
  have rested : Rested sampleZone shortDayDb := fun event member => by revert event; decide +kernel
  have first : pragueNow sampleZone laterHour.occurredAt = ⟨midnight 739833 + 960 * minute, midnight 739833 + 840 * minute⟩ := by
    decide +kernel
  have second : pragueNow sampleZone (.aware (midnight 739833 + 900 * minute)) =
      ⟨midnight 739833 + 1020 * minute, midnight 739833 + 900 * minute⟩ := by decide +kernel
  have date : (⟨midnight 739833 + 960 * minute, midnight 739833 + 840 * minute⟩ : Timestamp).date = 739833 := by decide +kernel
  obtain ⟨employment, found, -, exact'⟩ := paired_create_exact sampleZone sampleClock shortDayDb next (.adminCreateEvent laterHour)
    laterHour (.aware (midnight 739833 + 900 * minute)) rested (by decide +kernel) (by rw [first, date]; exact sampleZone_plain)
    rfl rfl done
  refine ⟨next, employment, done, ?_⟩
  rw [first, second, date] at exact'
  refine exact'.mpr ?_
  obtain rfl : sampleEmployment = employment := by
    have stored : shortDayDb.employments.get 1 = some sampleEmployment := by decide
    exact Option.some.inj (stored.symm.trans found)
  decide +kernel

/-- An hour inside the work from eight to three is accepted, and cuts that work into other intervals. -/
theorem nested_interval_splits : ∃ next, (Request.adminCreateEvent innerHour).handle sampleZone sampleClock shortDayDb = .ok next ∧
    ¬ AddsExactly (shortDayDb.eventsOf 1) (next.eventsOf 1)
      (requestedWork sampleEmployment (midnight 739833 + 540 * minute) (midnight 739833 + 600 * minute)) := by
  have outcome : ((Request.adminCreateEvent innerHour).handle sampleZone sampleClock shortDayDb).toOption.map
      (fun next => pairEvents (next.eventsOf 1)) =
        some [⟨midnight 739833 + 480 * minute, midnight 739833 + 540 * minute⟩,
          ⟨midnight 739833 + 600 * minute, midnight 739833 + 900 * minute⟩] := by decide +kernel
  obtain ⟨next, done, work⟩ := Option.map_eq_some_iff.mp outcome
  refine ⟨next, toOption_eq_some.mp done, fun exact' => ?_⟩
  have lost := (exact' ⟨midnight 739833 + 480 * minute, midnight 739833 + 900 * minute⟩).mpr (.inl (by decide +kernel))
  rw [work] at lost
  revert lost
  decide

end Creating

end Dagmar.Proofs
