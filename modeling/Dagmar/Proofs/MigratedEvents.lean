import Dagmar.EventMigration
import Dagmar.Proofs.Pairs
import Dagmar.Proofs.Summaries

/-! What revision 0022 makes of a legacy row. The times that it accepts ascend, so
they become events in the order of the columns; pairing them gives the legacy
intervals back unless the first interval was left open in front of another one. -/

namespace Dagmar.Migration.Proofs
open Library.Pairing Library.Outcome Dagmar.Proofs

section Pairing

theorem chain_append {α : Type} {r : α → α → Prop} {front back : List α} {last : Option α} (isLast : front.getLast? = last)
    (first : front.IsChain r) (second : (last.toList ++ back).IsChain r) : (front ++ back).IsChain r := by
  subst isLast
  obtain ⟨-, rest, meet⟩ := List.isChain_append.mp second
  refine first.append rest fun left ends right opens => meet left ?_ right opens
  rw [Option.mem_def] at ends
  simp [ends]

theorem getLast?_append {α : Type} {front : List α} {last : Option α} (isLast : front.getLast? = last) (back : List α) :
    (front ++ back).getLast? = (last.toList ++ back).getLast? := by
  subst isLast
  rw [List.getLast?_append, List.getLast?_append]
  cases front.getLast? <;> rfl

/-- Events of one day at ascending times are paired in their order. -/
theorem pairEvents_ascending {events : List AttendanceEvent} {date : Int}
    (today : ∀ event ∈ events, event.occurredAt.date = date)
    (ascending : (events.map (·.occurredAt.wall)).Pairwise (· < ·)) :
    pairEvents events = (pairUp (events.map (·.occurredAt.wall))).map fun pair => ⟨pair.1, pair.2⟩ := by
  have sorted : orderedEvents events = events := by
    apply List.Pairwise.insertionSort_eq
    exact (List.pairwise_map.mp ascending).imp fun below => .inl below
  have whole : eventsOn events date = events := List.filter_eq_self.mpr fun event member => decide_eq_true (today event member)
  have rows := pairEventRows_eventsOn events date
  rw [whole, sorted] at rows
  rw [pairEvents, rows, dayPairs_ascending today ascending, pairUp_map, List.map_map]
  rfl

end Pairing

section Steps
variable {zone : Zone} {row : LegacyAttendance}

theorem refuse_ok {condition : Prop} [Decidable condition] {complaint : String} {done : Unit} :
    row.refuse condition complaint = .ok done ↔ ¬ condition := raiseIf_eq_ok

theorem insertEvent_ok {employmentId : Int} {occurredAt : Timestamp} {events after : List AttendanceEvent}
    (inserted : insertEvent zone employmentId occurredAt events = .ok after) :
    after = events ++ [⟨events.length + 1, employmentId, zone.load occurredAt.utc⟩] := by
  simp only [insertEvent, bind_eq_ok, pure_eq_ok] at inserted
  obtain ⟨_, -, rfl⟩ := inserted
  rfl

/-- The events of these times were inserted behind the others, and nothing else. -/
def Stores (zone : Zone) (row : LegacyAttendance) (times : List ClockTime) (before after : List AttendanceEvent) : Prop :=
  ∃ inserted, after = before ++ inserted ∧ (∀ event ∈ inserted, event.employmentId = row.employmentId) ∧
    inserted.map AttendanceEvent.occurredAt = times.map fun time => zone.load (legacyAt zone row.date time).utc

theorem Stores.refl (events : List AttendanceEvent) : Stores zone row [] events events :=
  ⟨[], (List.append_nil _).symm, by simp, rfl⟩

theorem Stores.trans {times later : List ClockTime} {before middle after : List AttendanceEvent}
    (first : Stores zone row times before middle) (second : Stores zone row later middle after) :
    Stores zone row (times ++ later) before after := by
  obtain ⟨inserted, rfl, owned, placed⟩ := first
  obtain ⟨added, rfl, owned', placed'⟩ := second
  refine ⟨inserted ++ added, List.append_assoc .., ?_, ?_⟩
  · exact fun event member => (List.mem_append.mp member).elim (owned event) (owned' event)
  · rw [List.map_append, List.map_append, placed, placed']

theorem stores_insert {time : ClockTime} {before after : List AttendanceEvent}
    (inserted : insertEvent zone row.employmentId (legacyAt zone row.date time) before = .ok after) :
    Stores zone row [time] before after := by
  obtain rfl := insertEvent_ok inserted
  exact ⟨_, rfl, by simp, rfl⟩

/-- What the loop over the intervals of a row keeps: the times it has read are stored and ascend from
the one before them, and no finish stands without a start. -/
structure Converts (zone : Zone) (row : LegacyAttendance) (intervals : List (Option ClockTime × Option ClockTime))
    (progress next : Progress) : Prop where
  stores : Stores zone row (intervals.flatMap intervalTimes) progress.events next.events
  ordered : List.IsChain (fun left right : Timestamp => left.wall < right.wall)
    (progress.previous.toList ++ (intervals.flatMap intervalTimes).map (legacyAt zone row.date))
  last : (progress.previous.toList ++ (intervals.flatMap intervalTimes).map (legacyAt zone row.date)).getLast? = next.previous
  started : ∀ interval ∈ intervals, interval.1 = none → interval.2 = none

theorem Converts.nothing {progress : Progress} {intervals : List (Option ClockTime × Option ClockTime)}
    (untimed : intervals.flatMap intervalTimes = []) : Converts zone row intervals progress progress := by
  refine ⟨untimed ▸ .refl _, ?_, ?_, ?_⟩
  · rw [untimed]
    cases progress.previous <;> simp
  · rw [untimed]
    cases progress.previous <;> simp
  · intro interval member _
    have empty := List.flatMap_eq_nil_iff.mp untimed interval member
    simpa using (List.append_eq_nil_iff.mp empty).2

theorem migrateInterval_converts {progress next : Progress} {interval : Option ClockTime × Option ClockTime}
    (converted : migrateInterval zone row progress interval = .ok next) : Converts zone row [interval] progress next := by
  obtain ⟨previous, events⟩ := progress
  obtain ⟨start, finish⟩ := interval
  cases start with
  | none =>
    cases finish with
    | none =>
      cases converted
      exact .nothing rfl
    | some finish =>
      simp only [migrateInterval, bind_eq_ok, refuse_ok, not_true_eq_false, false_and, exists_false] at converted
  | some start =>
    cases finish with
    | none =>
      simp only [migrateInterval, bind_eq_ok, refuse_ok, pure_eq_ok] at converted
      obtain ⟨_, later, after, stored, rfl⟩ := converted
      refine ⟨stores_insert stored, ?_, ?_, by simp⟩
      · cases previous with
        | none => simp [intervalTimes]
        | some previous => simpa [intervalTimes] using later
      · cases previous <;> rfl
    | some finish =>
      simp only [migrateInterval, bind_eq_ok, refuse_ok, pure_eq_ok] at converted
      obtain ⟨_, later, _, below, _, -, middle, stored, after, stored', rfl⟩ := converted
      have below := not_le.mp below
      refine ⟨(stores_insert stored).trans (stores_insert stored'), ?_, ?_, by simp⟩
      · cases previous with
        | none => simpa [intervalTimes] using below
        | some previous => simpa [intervalTimes, below] using later
      · cases previous <;> rfl

theorem Converts.append {first second : List (Option ClockTime × Option ClockTime)} {progress middle next : Progress}
    (front : Converts zone row first progress middle) (back : Converts zone row second middle next) :
    Converts zone row (first ++ second) progress next := by
  have stores := front.stores.trans back.stores
  have ordered := chain_append front.last front.ordered back.ordered
  have last := (getLast?_append front.last _).trans back.last
  rw [List.append_assoc, ← List.map_append] at ordered last
  rw [← List.flatMap_append] at stores ordered last
  exact ⟨stores, ordered, last, fun interval member => (List.mem_append.mp member).elim (front.started interval) (back.started interval)⟩

theorem intervals_convert {intervals : List (Option ClockTime × Option ClockTime)} {progress next : Progress}
    (converted : intervals.foldlM (migrateInterval zone row) progress = .ok next) : Converts zone row intervals progress next := by
  induction intervals generalizing progress with
  | nil =>
    cases converted
    exact .nothing rfl
  | cons interval intervals ih =>
    rw [List.foldlM_cons, bind_eq_ok] at converted
    obtain ⟨middle, turn, rest⟩ := converted
    exact (migrateInterval_converts turn).append (ih rest)

end Steps

section Rows
variable {zone : Zone} {row : LegacyAttendance}

def wallsOf (zone : Zone) (row : LegacyAttendance) : List Int := row.times.map fun time => (legacyAt zone row.date time).wall

theorem migrateRow_converts {before after : List AttendanceEvent} (converted : migrateRow zone before row = .ok after) :
    Stores zone row row.times before after ∧ (wallsOf zone row).Pairwise (· < ·) ∧
      ∀ interval ∈ row.intervals, interval.1 = none → interval.2 = none := by
  simp only [migrateRow, bind_eq_ok, pure_eq_ok] at converted
  obtain ⟨next, turns, rfl⟩ := converted
  have converts := intervals_convert turns
  refine ⟨converts.stores, ?_, converts.started⟩
  have chain : ((row.times.map (legacyAt zone row.date)).map Timestamp.wall).IsChain (· < ·) := by
    apply (List.isChain_map _).mpr
    exact converts.ordered
  rw [List.map_map] at chain
  exact List.isChain_iff_pairwise.mp chain

/-- The inserted events mean what the row meant: its closed intervals, and each time once. -/
def Preserved (zone : Zone) (row : LegacyAttendance) (inserted : List AttendanceEvent) : Prop :=
  pairEvents inserted = row.closed zone ∧
    ∀ time ∈ row.times, inserted.countP (fun event => event.occurredAt.wall = (legacyAt zone row.date time).wall) = 1

/-- The clock shows every time of the row on its day, and the first interval is not left open in front of a second one. -/
def Convertible (zone : Zone) (row : LegacyAttendance) : Prop :=
  (∀ time ∈ row.times, zone.Settled (legacyAt zone row.date time)) ∧
    ¬ (row.arrivalTime ≠ none ∧ row.departureTime = none ∧ row.arrivalTime2 ≠ none)

/-- A time that some event reads as is one that the clock shows. -/
theorem settled_of_counted {inserted : List AttendanceEvent} {times : List ClockTime} {time : ClockTime}
    (placed : inserted.map AttendanceEvent.occurredAt = times.map fun time => zone.load (legacyAt zone row.date time).utc)
    (counted : inserted.countP (fun event => event.occurredAt.wall = (legacyAt zone row.date time).wall) = 1) :
    zone.Settled (legacyAt zone row.date time) := by
  have some_event : 0 < inserted.countP (fun event => event.occurredAt.wall = (legacyAt zone row.date time).wall) := by omega
  obtain ⟨event, member, reads⟩ := List.countP_pos_iff.mp some_event
  have loaded : event.occurredAt ∈ times.map fun time => zone.load (legacyAt zone row.date time).utc :=
    placed ▸ List.mem_map_of_mem member
  obtain ⟨other, -, same⟩ := List.mem_map.mp loaded
  have shown := zone.shown (legacyAt zone row.date other).utc
  have reads : zone.toWall (legacyAt zone row.date other).utc = (legacyAt zone row.date time).wall := by
    rw [← of_decide_eq_true reads, ← same]
    rfl
  rw [reads] at shown
  exact shown

theorem legacyAt_date (time : ClockTime) : (legacyAt zone row.date time).date = row.date := by
  have bounds := clockTime_minutes time
  simp only [legacyAt, Zone.attach, Timestamp.date, dateOf, midnight, day, minute]
  omega

theorem walls_settled {inserted : List AttendanceEvent}
    (placed : inserted.map AttendanceEvent.occurredAt = row.times.map fun time => zone.load (legacyAt zone row.date time).utc)
    (settled : ∀ time ∈ row.times, zone.Settled (legacyAt zone row.date time)) :
    inserted.map (·.occurredAt.wall) = wallsOf zone row := by
  have walls := congrArg (List.map Timestamp.wall) placed
  rw [List.map_map, List.map_map] at walls
  exact walls.trans (List.map_congr_left settled)

theorem today_settled {inserted : List AttendanceEvent} (walls : inserted.map (·.occurredAt.wall) = wallsOf zone row) :
    ∀ event ∈ inserted, event.occurredAt.date = row.date := by
  intro event member
  have listed : event.occurredAt.wall ∈ wallsOf zone row := walls ▸ List.mem_map_of_mem member
  obtain ⟨time, -, same⟩ := List.mem_map.mp listed
  rw [Timestamp.date, ← same]
  exact legacyAt_date time

theorem counted_settled {inserted : List AttendanceEvent} (walls : inserted.map (·.occurredAt.wall) = wallsOf zone row)
    (ascending : (wallsOf zone row).Pairwise (· < ·)) {time : ClockTime} (listed : time ∈ row.times) :
    inserted.countP (fun event => event.occurredAt.wall = (legacyAt zone row.date time).wall) = 1 := by
  have distinct : (wallsOf zone row).Nodup := ascending.imp ne_of_lt
  have once := List.count_eq_one_of_mem distinct (List.mem_map_of_mem (f := fun time => (legacyAt zone row.date time).wall) listed)
  rw [← walls, List.count, List.countP_map] at once
  rw [← once]
  exact List.countP_congr fun event _ => by simp

/-- Paired in their order the times are the legacy intervals exactly if no open one is followed by another. -/
theorem pairs_closed (started : ∀ interval ∈ row.intervals, interval.1 = none → interval.2 = none)
    (ascending : (wallsOf zone row).Pairwise (· < ·)) :
    (pairUp (wallsOf zone row)).map (fun pair => (⟨pair.1, pair.2⟩ : WorkInterval)) = row.closed zone ↔
      ¬ (row.arrivalTime ≠ none ∧ row.departureTime = none ∧ row.arrivalTime2 ≠ none) := by
  obtain ⟨employmentId, date, arrival, departure, arrival2, departure2⟩ := row
  simp only [LegacyAttendance.intervals, List.forall_mem_cons] at started
  obtain ⟨first, second, -⟩ := started
  cases arrival with
  | none =>
    -- without a first interval the second one is paired as it stands
    obtain rfl := first rfl
    refine iff_of_true ?_ (by simp)
    cases arrival2 with
    | none =>
      obtain rfl := second rfl
      rfl
    | some arrival2 => cases departure2 <;> rfl
  | some arrival =>
    cases departure with
    | some departure =>
      refine iff_of_true ?_ (by simp)
      cases arrival2 with
      | none =>
        obtain rfl := second rfl
        rfl
      | some arrival2 => cases departure2 <;> rfl
    | none =>
      cases arrival2 with
      | none =>
        obtain rfl := second rfl
        exact iff_of_true rfl (by simp)
      | some arrival2 =>
        -- the open arrival is paired with the next one
        refine iff_of_false ?_ (by simp)
        cases departure2 with
        | none => exact List.cons_ne_nil _ _
        | some departure2 =>
          have below : (legacyAt zone date arrival).wall < (legacyAt zone date arrival2).wall :=
            (List.pairwise_cons.mp ascending).1 _ List.mem_cons_self
          intro same
          have starts := congrArg WorkInterval.start (List.cons.inj same).1
          exact absurd starts below.ne

/-- What one row inserts. -/
structure Inserts (zone : Zone) (row : LegacyAttendance) (before inserted : List AttendanceEvent) : Prop where
  converted : migrateRow zone before row = .ok (before ++ inserted)
  owned : ∀ event ∈ inserted, event.employmentId = row.employmentId
  number : inserted.length = row.times.length

theorem row_preserved {before after : List AttendanceEvent} (converted : migrateRow zone before row = .ok after) :
    ∃ inserted, after = before ++ inserted ∧ Inserts zone row before inserted ∧
      (Preserved zone row inserted ↔ Convertible zone row) := by
  obtain ⟨⟨inserted, rfl, owned, placed⟩, ascending, started⟩ := migrateRow_converts converted
  have number := congrArg List.length placed
  rw [List.length_map, List.length_map] at number
  refine ⟨inserted, rfl, ⟨converted, owned, number⟩, ?_⟩
  have pairs (settled : ∀ time ∈ row.times, zone.Settled (legacyAt zone row.date time)) :
      pairEvents inserted = row.closed zone ↔
        ¬ (row.arrivalTime ≠ none ∧ row.departureTime = none ∧ row.arrivalTime2 ≠ none) := by
    have walls := walls_settled placed settled
    rw [pairEvents_ascending (today_settled walls) (walls ▸ ascending), walls]
    exact pairs_closed started ascending
  constructor
  · rintro ⟨paired, counted⟩
    have settled : ∀ time ∈ row.times, zone.Settled (legacyAt zone row.date time) :=
      fun time listed => settled_of_counted placed (counted time listed)
    exact ⟨settled, (pairs settled).mp paired⟩
  · rintro ⟨settled, closing⟩
    exact ⟨(pairs settled).mpr closing, fun time listed => counted_settled (walls_settled placed settled) ascending listed⟩

theorem untimed_row (untimed : row.isTimed = false) (events : List AttendanceEvent) : migrateRow zone events row = .ok events := by
  obtain ⟨employmentId, date, arrival, departure, arrival2, departure2⟩ := row
  simp only [LegacyAttendance.isTimed, Bool.or_eq_false_iff, Option.isSome_eq_false_iff, Option.isNone_iff_eq_none] at untimed
  obtain ⟨⟨⟨rfl, rfl⟩, rfl⟩, rfl⟩ := untimed
  rfl

/-- In a run that succeeds each row inserts its times, and their meaning is kept exactly if the row is convertible. -/
theorem worked_time_preserved {rows : List LegacyAttendance} {events : List AttendanceEvent}
    (done : upgrade zone rows = .ok events) (listed : row ∈ rows) :
    ∃ before inserted, Inserts zone row before inserted ∧ before ++ inserted <+: events ∧
      (Preserved zone row inserted ↔ Convertible zone row) := by
  cases timed : row.isTimed with
  | false =>
    have converted : migrateRow zone [] row = .ok [] := untimed_row timed []
    obtain ⟨inserted, same, inserts, kept⟩ := row_preserved converted
    exact ⟨[], inserted, inserts, same ▸ List.nil_prefix, kept⟩
  | true =>
    obtain ⟨before, after, rest, converted, later⟩ := foldlM_turn done (List.mem_filter.mpr ⟨listed, timed⟩)
    obtain ⟨inserted, rfl, inserts, kept⟩ := row_preserved converted
    refine ⟨before, inserted, inserts, ?_, kept⟩
    refine foldlM_invariant (fun current => before ++ inserted <+: current) (List.prefix_refl _) ?_ later
    intro current other next _ grown turned
    obtain ⟨⟨added, rfl, -⟩, -⟩ := migrateRow_converts turned
    exact grown.trans (List.prefix_append _ _)

end Rows

section Samples

theorem at0800 : isValidHhmm "08:00" := by decide

theorem at1200 : isValidHhmm "12:00" := by decide

theorem at1230 : isValidHhmm "12:30" := by decide

theorem at1600 : isValidHhmm "16:00" := by decide

def summer2026 : Zone := pragueSpring march2026 march2026_evening

/-- The first row of the migration test. -/
def testRow : LegacyAttendance :=
  ⟨10, Library.Calendar.ordinal 2026 6 8, some ⟨"08:00", at0800⟩, some ⟨"12:00", at1200⟩, some ⟨"12:30", at1230⟩,
    some ⟨"16:00", at1600⟩⟩

/-- The same day without the first departure. -/
def openRow : LegacyAttendance := { testRow with departureTime := none }

def summerEvent (id : Int) (minutes : Int) : AttendanceEvent :=
  ⟨id, 10, summer2026.load (summer2026.toUtc (midnight 739775 + minutes * minute))⟩

example : openRow.closed summer2026 = [⟨midnight 739775 + 750 * minute, midnight 739775 + 960 * minute⟩] := by decide

theorem sample_preserved : ∃ before inserted, Inserts summer2026 testRow before inserted ∧ Preserved summer2026 testRow inserted := by
  have done : upgrade summer2026 [testRow] =
      .ok [summerEvent 1 480, summerEvent 2 720, summerEvent 3 750, summerEvent 4 960] := by rfl
  obtain ⟨before, inserted, inserts, -, kept⟩ := worked_time_preserved done List.mem_cons_self
  exact ⟨before, inserted, inserts, kept.mpr ⟨by decide, by decide⟩⟩

/-- The open arrival is paired with the arrival of the second interval. -/
theorem open_interval_paired :
    upgrade summer2026 [openRow] = .ok [summerEvent 1 480, summerEvent 2 750, summerEvent 3 960] ∧
      pairEvents [summerEvent 1 480, summerEvent 2 750, summerEvent 3 960] =
        [⟨midnight 739775 + 480 * minute, midnight 739775 + 750 * minute⟩] ∧
      ¬ Preserved summer2026 openRow [summerEvent 1 480, summerEvent 2 750, summerEvent 3 960] := by
  have paired : pairEvents [summerEvent 1 480, summerEvent 2 750, summerEvent 3 960] =
      [⟨midnight 739775 + 480 * minute, midnight 739775 + 750 * minute⟩] := by decide
  refine ⟨rfl, paired, ?_⟩
  rintro ⟨same, -⟩
  rw [paired] at same
  exact absurd same (by decide)

end Samples

end Dagmar.Migration.Proofs
