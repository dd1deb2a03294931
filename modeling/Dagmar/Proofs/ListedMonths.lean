import Dagmar.Proofs.ExportedFacts
import Dagmar.Proofs.Pagination

/-! The events of a month, as the portal shows them and as the integration interface lists
them. Both are the recorded times of the employment, in the order of their instants. -/

namespace Dagmar.Payloads.Proofs
open Library Library.Calendar Library.Outcome Integration Integration.Proofs Dagmar.Proofs

section Times
variable {zone : Zone} {db : Db} {employmentId first last : Int}

/-- The times of some days, day by day. -/
def datedTimes (db : Db) (employmentId first last : Int) : List AttendanceEvent :=
  (monthDays first (last + 1)).flatMap (dayTimes db employmentId)

theorem mem_dayTimes {date : Int} {event : AttendanceEvent} :
    event ∈ dayTimes db employmentId date ↔ event ∈ db.eventsOf employmentId ∧ event.occurredAt.date = date := by
  rw [dayTimes, List.mem_filter, List.mem_insertionSort, decide_eq_true_eq]

theorem date_iff (rested : Rested zone db) {event : AttendanceEvent} (stored : event ∈ db.eventsOf employmentId) (date : Int) :
    event.occurredAt.date = date ↔
      zone.toUtc (midnight date) ≤ event.occurredAt.utc ∧ event.occurredAt.utc < zone.toUtc (midnight (date + 1)) := by
  rw [Timestamp.date, ← rested event (Db.mem_eventsOf.mp stored).1]
  exact zone.days _ _

/-- Whole days are what lies between two midnights. -/
theorem mem_datedTimes (rested : Rested zone db) {event : AttendanceEvent} :
    event ∈ datedTimes db employmentId first last ↔ event ∈ db.eventsOf employmentId ∧
      zone.toUtc (midnight first) ≤ event.occurredAt.utc ∧ event.occurredAt.utc < zone.toUtc (midnight (last + 1)) := by
  rw [datedTimes, List.mem_flatMap]
  constructor
  · intro found
    obtain ⟨date, listed, timed⟩ := found
    obtain ⟨stored, today⟩ := mem_dayTimes.mp timed
    obtain ⟨from_, until_⟩ := mem_monthDays.mp listed
    have bounds := (date_iff rested stored date).mp today
    have opened := zone.midnights first date from_
    have closed := zone.midnights (date + 1) (last + 1) until_
    exact ⟨stored, opened.trans bounds.1, lt_of_lt_of_le bounds.2 closed⟩
  · intro found
    obtain ⟨stored, opened, closed⟩ := found
    have bounds := (date_iff rested stored _).mp rfl
    refine ⟨event.occurredAt.date, mem_monthDays.mpr ⟨?_, ?_⟩, mem_dayTimes.mpr ⟨stored, rfl⟩⟩
    · by_contra early
      have before := zone.midnights (event.occurredAt.date + 1) first (by omega)
      omega
    · by_contra late
      have after := zone.midnights (last + 1) event.occurredAt.date (by omega)
      omega

theorem dayTimes_ascending (date : Int) :
    (dayTimes db employmentId date).Pairwise fun first second => eventPosition first < eventPosition second := by
  have sorted : (db.eventsOf employmentId).insertionSort storedLe = ordered eventPosition (db.eventsOf employmentId) := by
    have same : storedLe = fun left right => eventPosition left ≤ eventPosition right := by
      funext left right
      rw [eventPosition, eventPosition, Prod.Lex.toLex_le_toLex]
      rfl
    rw [ordered]
    congr!
  have distinct : ((db.eventsOf employmentId).map eventPosition).Nodup := by
    apply List.Nodup.of_map fun position => (ofLex position).2
    rw [List.map_map]
    exact (List.Sublist.map _ List.filter_sublist).nodup db.events.unique
  rw [dayTimes, sorted]
  exact (ordered_strict distinct).filter _

theorem datedTimes_ascending (rested : Rested zone db) :
    (datedTimes db employmentId first last).Pairwise fun first second => eventPosition first < eventPosition second := by
  apply List.pairwise_flatMap.mpr
  refine ⟨fun date _ => dayTimes_ascending date, (monthDays_ascending _ _).imp ?_⟩
  intro early late ordered earlier inEarly later inLate
  obtain ⟨stored, today⟩ := mem_dayTimes.mp inEarly
  obtain ⟨stored', today'⟩ := mem_dayTimes.mp inLate
  have ends := ((date_iff rested stored early).mp today).2
  have starts := ((date_iff rested stored' late).mp today').1
  have between := zone.midnights (early + 1) late ordered
  exact Prod.Lex.toLex_lt_toLex.mpr (.inl (by omega))

end Times

section Listed
variable {zone : Zone} {client : IntegrationClient} {view : View} {employmentId first last : Int}

theorem isoDate_ne {date : Int} : String.ofList (isoDate date) ≠ "" := by
  intro empty
  have none := congrArg String.toList empty
  simp [isoDate] at none

theorem startFilter_date (inside : inCalendar first) :
    startFilter zone (some (String.ofList (isoDate first))) = .ok (some (zone.toUtc (midnight first))) := by
  rw [startFilter, if_neg isoDate_ne, parseIsoDate, dateFromIsoformat_isoDate inside]
  rfl

theorem endFilter_date (inside : inCalendar last) (next : inCalendar (last + 1)) :
    endFilter zone (some (String.ofList (isoDate last))) = .ok (some (zone.toUtc (midnight (last + 1)))) := by
  rw [endFilter, if_neg isoDate_ne, parseIsoDate, dateFromIsoformat_isoDate inside, require, ok_bind,
    raiseIf, if_neg (not_not_intro next)]
  rfl

theorem mem_matchingEvents (accessible : accessFilter zone view client (some employmentId) = .ok ()) {start finish : Int}
    {event : AttendanceEvent} :
    event ∈ matchingEvents zone client (some employmentId) (some start) (some finish) view ↔
      event ∈ view.db.eventsOf employmentId ∧ start ≤ event.occurredAt.utc ∧ event.occurredAt.utc < finish := by
  simp only [accessFilter, bind_eq_ok, requireEmploymentAccess, raiseIf_eq_ok, not_not] at accessible
  obtain ⟨-, -, visible⟩ := accessible
  rw [matchingEvents, Table.mem_select, Db.mem_eventsOf, eventMatches]
  simp only [Option.mem_def, Option.some.injEq, forall_eq']
  constructor
  · intro found
    obtain ⟨stored, -, own, bounds⟩ := found
    exact ⟨⟨stored, own⟩, bounds⟩
  · intro found
    obtain ⟨⟨stored, own⟩, bounds⟩ := found
    exact ⟨stored, own ▸ visible, own, bounds⟩

/-- The list of the times of one employment between two days. -/
theorem events_paged (readable : Readable zone view) (granted : scopeAttendance ∈ client.scopes)
    (accessible : accessFilter zone view client (some employmentId) = .ok ()) (begins : inCalendar first)
    (ends : inCalendar last) (next : inCalendar (last + 1)) (limits : Nat → Nat) (allowed : ∀ n, AllowedLimit (limits n)) :
    ∃ count pages, Walk (fetched (answering zone client (.attendanceEvents (some employmentId)
        (some (String.ofList (isoDate first))) (some (String.ofList (isoDate last)))))) none
        ((List.range count).map fun n => (view, limits n)) pages ∧
      pages.flatten = (ordered eventPosition (matchingEvents zone client (some employmentId)
        (some (zone.toUtc (midnight first))) (some (zone.toUtc (midnight (last + 1)))) view)).map (eventPayload zone view) := by
  have starts := @startFilter_date zone first begins
  have stops := @endFilter_date zone last ends next
  have serves (n : Nat) : Serves eventPosition (matchingEvents zone client (some employmentId)
      (some (zone.toUtc (midnight first))) (some (zone.toUtc (midnight (last + 1))))) (eventPayload zone) encodePosition
      (fun position => ValidPosition position ∧ (ofLex position).2 ≤ integerMax)
      (fetched (answering zone client (.attendanceEvents (some employmentId)
        (some (String.ofList (isoDate first))) (some (String.ofList (isoDate last)))))) view (limits n) := by
    refine ⟨(allowed n).1, matchingEvents_positions zone client _ _ _ view, ?_, ?_⟩
    · intro event member
      obtain ⟨number, inside, -⟩ := readable.events event (Table.mem_select.mp member).1
      exact ⟨⟨inside, number.1⟩, number.2⟩
    · intro position fits
      have answer := listAttendanceEvents_eq readable (allowed n) granted accessible starts stops fits
      simp only [fetched, answering, Listing.answer, answer, toOption_ok, Option.map_some]
  exact walk_complete serves

end Listed

section Shown
variable {zone : Zone} {view : View} {auth : PortalUserAuth} {employmentId first last : Int} {year : Int} {month : Nat}
  {payload : AttendanceMonthOut}

/-- What an event of the portal and an event of the integration interface have in common. -/
def shownEvent (event : AttendanceEventOut) : Option Int × Option Int × Option Json :=
  (some event.id, some event.employmentId, some (.text event.occurredAt))

def listedEvent (json : Json) : Option Int × Option Int × Option Json :=
  (numberField "id" json, numberField "employment_id" json, json.get "occurred_at")

theorem listedEvent_payload (partners : List (Int × Int)) (event : AttendanceEvent) :
    listedEvent (eventPayload zone view event) = shownEvent (attendanceEventOut zone partners event) := rfl

theorem month_inCalendar {start finish date : Int} (range : monthRange year month = some (start, finish)) (early : year ≤ 2100)
    (inside : start ≤ date ∧ date ≤ finish) : inCalendar date := by
  obtain ⟨⟨low, -, -, short, -⟩, rfl, rfl⟩ := monthRange_eq_some.mp range
  have begun := daysBeforeYear_mono (show 1 ≤ year from low)
  have counted := daysBeforeMonth_mono year (Nat.zero_le month)
  have closed := daysBeforeMonth_mono year (show month + 1 ≤ 13 from Nat.succ_le_succ short)
  have next := firstDay_thirteen year
  have final := daysBeforeYear_mono (show year + 1 ≤ 2101 by omega)
  have zero : daysBeforeYear 1 = 0 := by decide
  have far : daysBeforeYear 2101 + 1 ≤ ordinal 9999 12 31 := by decide
  have january (year : Int) : daysBeforeMonth year 0 = 0 ∧ daysBeforeMonth year 1 = 0 := ⟨rfl, rfl⟩
  have first' := january year
  have second' := january (year + 1)
  rw [inCalendar]
  simp only [firstDay, ordinal] at inside next far ⊢
  omega

theorem monthDays_within {start finish : Int} (from_ : start ≤ first) (until_ : last < finish) :
    ((monthDays start finish).filter fun date => first ≤ date ∧ date ≤ last) = monthDays first (last + 1) := by
  apply eq_of_strict ((monthDays_ascending _ _).filter _) (monthDays_ascending _ _)
  intro date
  rw [List.mem_filter, mem_monthDays, mem_monthDays, decide_eq_true_eq]
  omega

/-- The events of the days of a payload. -/
theorem payload_events (rested : Rested zone view.db) (shown : getMonthAttendance zone view auth employmentId year month = .ok payload)
    (firstShown : first ∈ payload.days.map AttendanceDayOut.date) (lastShown : last ∈ payload.days.map AttendanceDayOut.date) :
    ∃ partners, ((payload.days.filter fun day => first ≤ day.date ∧ day.date ≤ last).flatMap AttendanceDayOut.events) =
      (datedTimes view.db employmentId first last).map (attendanceEventOut zone partners) ∧
        inCalendar first ∧ inCalendar last ∧ inCalendar (last + 1) := by
  simp only [getMonthAttendance, bind_eq_ok, raiseIf_eq_ok, require_eq_ok, portalEmployment_eq_ok] at shown
  obtain ⟨-, valid, employment, ⟨found, -⟩, -, -, -, -, built⟩ := shown
  obtain rfl : employment.id = employmentId := (Table.get_eq_some_iff.mp found).2
  obtain ⟨start, finish, range, days, -⟩ := buildMonth_ok built
  have early : year ≤ 2100 := by omega
  have dated {date : Int} (listed : date ∈ payload.days.map AttendanceDayOut.date) : start ≤ date ∧ date < finish := by
    rw [days, List.map_map, List.mem_map] at listed
    obtain ⟨_, listed, rfl⟩ := listed
    exact mem_monthDays.mp listed
  obtain ⟨from_, before⟩ := dated firstShown
  obtain ⟨after, until_⟩ := dated lastShown
  have inside (date : Int) (bounds : start ≤ date ∧ date ≤ finish) := month_inCalendar range early bounds
  refine ⟨deletionPartners (dayEvents zone view.db employment.id start finish), ?_, inside _ (by omega), inside _ (by omega),
    inside _ (by omega)⟩
  rw [days, List.filter_map, List.flatMap_map, datedTimes, List.map_flatMap, ← monthDays_within from_ until_]
  apply List.flatMap_congr
  intro date listed
  have inMonth := mem_monthDays.mp (List.mem_of_mem_filter listed)
  exact congrArg (List.map _) (dayEvents_filter rested inMonth)

end Shown

/-- Between any two days of a month that the portal shows, a client that may read the employment is listed the same events
in the same order, on pages of any sizes. -/
theorem month_listed {zone : Zone} {client : IntegrationClient} {view : View} {auth : PortalUserAuth}
    {employmentId first last : Int} {year : Int} {month : Nat} {payload : AttendanceMonthOut} (readable : Readable zone view)
    (rested : Rested zone view.db) (granted : scopeAttendance ∈ client.scopes)
    (accessible : accessFilter zone view client (some employmentId) = .ok ())
    (shown : getMonthAttendance zone view auth employmentId year month = .ok payload)
    (firstShown : first ∈ payload.days.map AttendanceDayOut.date) (lastShown : last ∈ payload.days.map AttendanceDayOut.date)
    (limits : Nat → Nat) (allowed : ∀ n, AllowedLimit (limits n)) :
    ∃ count pages, Walk (fetched (answering zone client (.attendanceEvents (some employmentId)
        (some (String.ofList (isoDate first))) (some (String.ofList (isoDate last)))))) none
        ((List.range count).map fun n => (view, limits n)) pages ∧
      pages.flatten.map listedEvent =
        ((payload.days.filter fun day => first ≤ day.date ∧ day.date ≤ last).flatMap AttendanceDayOut.events).map shownEvent := by
  obtain ⟨partners, events, begins, ends, next⟩ := payload_events rested shown firstShown lastShown
  obtain ⟨count, pages, walk, whole⟩ := events_paged readable granted accessible begins ends next limits allowed
  have same : ordered eventPosition (matchingEvents zone client (some employmentId) (some (zone.toUtc (midnight first)))
      (some (zone.toUtc (midnight (last + 1)))) view) = datedTimes view.db employmentId first last := by
    apply eq_of_strict (ordered_strict (matchingEvents_positions zone client _ _ _ view)) (datedTimes_ascending rested)
    intro event
    rw [mem_datedTimes rested, ← mem_matchingEvents accessible]
    exact (List.perm_insertionSort _ _).mem_iff
  refine ⟨count, pages, walk, ?_⟩
  rw [whole, same, events, List.map_map, List.map_map]
  rfl

/-- The six times of a day of August 2026, one at a time. -/
theorem sample_month_listed : ∃ payload,
    getMonthAttendance sampleZone (exportView threeShiftsDb) ⟨1, "portal"⟩ 1 2026 8 = .ok payload ∧ ∃ count pages,
      Walk (fetched (answering sampleZone readingClient (.attendanceEvents (some 1) (some (String.ofList (isoDate 739833)))
        (some (String.ofList (isoDate 739833)))))) none ((List.range count).map fun _ => (exportView threeShiftsDb, 1)) pages ∧
      pages.flatten.map listedEvent =
        ((payload.days.filter fun day => 739833 ≤ day.date ∧ day.date ≤ 739833).flatMap AttendanceDayOut.events).map shownEvent := by
  have answered : (getMonthAttendance sampleZone (exportView threeShiftsDb) ⟨1, "portal"⟩ 1 2026 8).toOption.any
      fun payload => 739833 ∈ payload.days.map AttendanceDayOut.date := by decide +kernel
  obtain ⟨payload, shown, listed⟩ := (Option.any_eq_true _ _).mp answered
  rw [toOption_eq_some] at shown
  have readable : Readable sampleZone (exportView threeShiftsDb) := ⟨by decide +kernel, by decide +kernel⟩
  have rested : Rested sampleZone threeShiftsDb := fun event member => by revert event; decide +kernel
  have day := of_decide_eq_true listed
  exact ⟨payload, shown, month_listed readable rested (by decide) rfl shown day day (fun _ => 1) fun _ => ⟨by decide, by decide⟩⟩

end Dagmar.Payloads.Proofs
