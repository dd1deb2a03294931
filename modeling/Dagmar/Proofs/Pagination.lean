import Dagmar.IntegrationLists
import Dagmar.Proofs.PlanUpserts

/-! Following the cursors of an integration list. Each list is a paged list of its
rows in scope, ordered by a key, and its cursors hold that key. -/

namespace Dagmar.Integration.Proofs
open Library Library.Outcome

section Cursors

theorem decode_issued (resource : String) (key : Json) :
    decodeResourceCursor (some (encodeResourceCursor resource key)) resource = .ok key := by
  simp [decodeResourceCursor, encodeResourceCursor, encodeCursor, decodeCursor, resourceKey, Json.get, Json.isOne,
    Json.isText, require, bind, Except.bind, pure, Except.pure]

/-- A cursor of another list is refused. -/
theorem decode_foreign {resource other : String} (different : resource ≠ other) (key : Json) :
    decodeResourceCursor (some (encodeResourceCursor resource key)) other = .error cursorForeign := by
  simp [decodeResourceCursor, encodeResourceCursor, encodeCursor, decodeCursor, resourceKey, Json.get, Json.isOne,
    Json.isText, different, bind, Except.bind, pure, Except.pure]

def encodeId (resource : String) (id : Int) : Cursor := encodeResourceCursor resource (.number id)

def encodePosition (position : EventPosition) : Cursor :=
  encodeResourceCursor "attendance-events" (.list [.text (utcCursorValue (ofLex position).1), .number (ofLex position).2])

/-- A position that a cursor can hold. -/
def ValidPosition (position : EventPosition) : Prop := inCalendar (dateOf (ofLex position).1) ∧ 1 ≤ (ofLex position).2

/-- The numbers of a row. -/
def RowNumber (id : Int) : Prop := 1 ≤ id ∧ id ≤ integerMax

instance (id : Int) : Decidable (RowNumber id) := inferInstanceAs (Decidable (_ ∧ _))

theorem bindInteger_ok {value : Option Int} (numbers : ∀ id ∈ value, RowNumber id) : bindInteger value = .ok () := by
  apply if_neg
  rintro ⟨id, member, below | above⟩
  · have positive := (numbers id member).1
    simp only [integerMax] at below
    omega
  · exact absurd (numbers id member).2 (not_le.mpr above)

theorem integerCursor_issued {resource : String} {position : Option Int} (valid : ∀ id ∈ position, 1 ≤ id) :
    integerCursor (position.map (encodeId resource)) resource = .ok position := by
  cases position with
  | none => rfl
  | some id =>
    have large : ¬ id < 1 := not_lt.mpr (valid id rfl)
    rw [Option.map_some, integerCursor, encodeId, decode_issued, ok_bind]
    exact if_neg large

theorem attendanceCursor_issued {position : Option EventPosition} (valid : ∀ start ∈ position, ValidPosition start) :
    attendanceCursor (position.map encodePosition) = .ok position := by
  cases position with
  | none => rfl
  | some position =>
    obtain ⟨inside, large⟩ := valid position rfl
    rw [Option.map_some, attendanceCursor, encodePosition, decode_issued, ok_bind]
    rw [attendanceKey, if_neg (not_lt.mpr large), utcCursorValue, datetimeFromIsoformat_isoformat inside,
      attendancePosition, if_pos inside]
    rfl

end Cursors

section Responses
variable {ρ κ : Type} [LinearOrder κ] {key : ρ → κ} {rows : List ρ} {limit : Nat} {position : Option κ}

theorem lastOfPage_map {α β : Type} (f : α → β) (limit : Nat) (items : List α) :
    lastOfPage limit (items.map f) = (lastOfPage limit items).map f := by
  simp [lastOfPage]

theorem lastOfPage_take (positive : 0 < limit) {found : List ρ} (longer : limit < found.length) :
    lastOfPage limit found = (found.take limit).getLast? := by
  rw [lastOfPage, Nat.min_eq_left longer.le, List.getLast?_eq_getElem?, List.length_take, Nat.min_eq_left longer.le,
    List.getElem?_take_of_lt (by omega)]

/-- The answer holds one page, and a cursor when another follows. -/
theorem respond_page (positive : 0 < limit) (render : ρ → Json) (encode : κ → Cursor) {resource : String}
    {cursorKey : Option Json}
    (keyed : ∀ last, lastOfPage limit ((remaining key rows position).take (limit + 1)) = some last →
      encodeResourceCursor resource (cursorKey.getD .null) = encode (key last)) :
    respond (((remaining key rows position).take (limit + 1)).map render) limit resource cursorKey =
      ⟨(page key rows limit position).rows.map render, limit, (page key rows limit position).next.map encode,
        (page key rows limit position).next.isSome⟩ := by
  simp only [page]
  generalize (remaining key rows position).take (limit + 1) = found at keyed ⊢
  simp only [respond, List.length_map, ← List.map_take]
  by_cases longer : limit < found.length
  · have last := lastOfPage_take positive longer
    have filled : found.take limit ≠ [] := by
      rw [Ne, List.take_eq_nil_iff]
      rintro (none | empty)
      · omega
      · rw [empty] at longer
        exact absurd longer (Nat.not_lt_zero _)
    obtain ⟨row, ends⟩ := Option.ne_none_iff_exists'.mp (List.getLast?_eq_none_iff.not.mpr filled)
    have known := keyed row (last.trans ends)
    rw [Ne, List.take_eq_nil_iff, not_or] at filled
    simpa [longer, ends, known] using filled
  · simp [longer]

end Responses

section Lists
variable (zone : Zone) (client : IntegrationClient)

/-- The rows are numbered from 1 as far as their columns go, and every instant is one that the driver returns and
Prague shows. -/
structure Readable (view : View) : Prop where
  employments : ∀ employment ∈ view.db.employments, RowNumber employment.id
  events : ∀ event ∈ view.db.events, RowNumber event.id ∧ inCalendar (dateOf event.occurredAt.utc) ∧
    inCalendar (dateOf (zone.toWall event.occurredAt.utc))

variable {zone client} {view : View} {limit : Nat}

theorem limitField_ok (allowed : 1 ≤ limit ∧ limit ≤ 500) : limitField limit = .ok () :=
  if_neg (by omega)

theorem requireScope_ok {scope : Scope} (granted : scope ∈ client.scopes) : requireScope client scope = .ok () :=
  if_neg (not_not.mpr granted)

theorem listEmployments_eq (allowed : 1 ≤ limit ∧ limit ≤ 500) (granted : scopeEmployments ∈ client.scopes)
    {position : Option Int} (valid : ∀ id ∈ position, RowNumber id) :
    listEmployments zone view client limit (position.map (encodeId "employments")) =
      .ok ⟨(page Employment.id (view.employmentsInScope zone client) limit position).rows.map (employmentPayload zone view),
        limit, (page Employment.id (view.employmentsInScope zone client) limit position).next.map (encodeId "employments"),
        (page Employment.id (view.employmentsInScope zone client) limit position).next.isSome⟩ := by
  rw [listEmployments, limitField_ok allowed, ok_bind, requireScope_ok granted, ok_bind,
    integerCursor_issued fun id member => (valid id member).1, ok_bind, bindInteger_ok valid, ok_bind]
  refine congrArg Except.ok (respond_page allowed.1 _ _ ?_)
  intro last ends
  rw [lastOfPage_map, ends]
  rfl

theorem listLocks_eq (allowed : 1 ≤ limit ∧ limit ≤ 500) (granted : scopeLocks ∈ client.scopes) (year month : Int)
    {position : Option Int} (valid : ∀ id ∈ position, RowNumber id) :
    listLocks zone view client limit (position.map (encodeId "locks")) year month =
      .ok ⟨(page Employment.id (view.employmentsInScope zone client) limit position).rows.map (lockPayload view year month),
        limit, (page Employment.id (view.employmentsInScope zone client) limit position).next.map (encodeId "locks"),
        (page Employment.id (view.employmentsInScope zone client) limit position).next.isSome⟩ := by
  rw [listLocks, limitField_ok allowed, ok_bind, requireScope_ok granted, ok_bind,
    integerCursor_issued fun id member => (valid id member).1, ok_bind, bindInteger_ok valid, ok_bind]
  refine congrArg Except.ok (respond_page allowed.1 _ _ ?_)
  intro last ends
  rw [lastOfPage_map, ends]
  rfl

/-- The events that a list with its filters is about. -/
def matchingEvents (zone : Zone) (client : IntegrationClient) (employmentId start finish : Option Int) (view : View) :
    List AttendanceEvent := view.db.events.select (eventMatches zone view client employmentId start finish)

theorem readEvents_ok (readable : Readable zone view) {events : List AttendanceEvent}
    (members : ∀ event ∈ events, event ∈ view.db.events) :
    readEvents zone view events = .ok (events.map (eventPayload zone view)) := by
  have stored : ¬ ∃ event ∈ events, ¬ inCalendar (dateOf event.occurredAt.utc) := by
    rintro ⟨event, member, outside⟩
    exact outside (readable.events event (members event member)).2.1
  have shown : ¬ ∃ event ∈ events, ¬ inCalendar (dateOf (zone.toWall event.occurredAt.utc)) := by
    rintro ⟨event, member, outside⟩
    exact outside (readable.events event (members event member)).2.2
  rw [readEvents, raiseIf, if_neg stored, ok_bind, raiseIf, if_neg shown, ok_bind]
  rfl

theorem listAttendanceEvents_eq (readable : Readable zone view) (allowed : 1 ≤ limit ∧ limit ≤ 500)
    (granted : scopeAttendance ∈ client.scopes) {employmentId start finish : Option Int} {dateFrom dateTo : Option String}
    (accessible : accessFilter zone view client employmentId = .ok ()) (starts : startFilter zone dateFrom = .ok start)
    (ends : endFilter zone dateTo = .ok finish) {position : Option EventPosition}
    (valid : ∀ start ∈ position, ValidPosition start ∧ (ofLex start).2 ≤ integerMax) :
    listAttendanceEvents zone view client limit (position.map encodePosition) employmentId dateFrom dateTo =
      .ok ⟨(page eventPosition (matchingEvents zone client employmentId start finish view) limit position).rows.map
          (eventPayload zone view),
        limit,
        (page eventPosition (matchingEvents zone client employmentId start finish view) limit position).next.map encodePosition,
        (page eventPosition (matchingEvents zone client employmentId start finish view) limit position).next.isSome⟩ := by
  have members : ∀ event ∈ (remaining eventPosition (matchingEvents zone client employmentId start finish view)
      position).take (limit + 1), event ∈ view.db.events := by
    intro event member
    exact (Table.mem_select.mp (mem_remaining.mp (List.mem_of_mem_take member)).1).1
  have numbers : ∀ id ∈ position.map fun start => (ofLex start).2, RowNumber id := by
    intro id member
    obtain ⟨start, given, rfl⟩ := Option.map_eq_some_iff.mp member
    exact ⟨(valid start given).1.2, (valid start given).2⟩
  rw [listAttendanceEvents, limitField_ok allowed, ok_bind, requireScope_ok granted, ok_bind,
    attendanceCursor_issued fun start given => (valid start given).1, ok_bind, accessible, ok_bind, starts, ok_bind, ends,
    ok_bind, bindInteger_ok numbers, ok_bind]
  simp only [matchingEvents] at members ⊢
  rw [readEvents_ok readable members, ok_bind]
  refine congrArg Except.ok (respond_page allowed.1 _ _ ?_)
  intro last found
  rw [found]
  rfl

end Lists

section Pages
variable {ρ κ : Type} [LinearOrder κ]

/-- What following the cursors sees of an answer. -/
def fetched (answer : View → Nat → Option Cursor → Api ListResponse) (call : View × Nat) (cursor : Option Cursor) :
    Option (List Json × Option Cursor) :=
  (answer call.1 call.2 cursor).toOption.map fun response => (response.data, response.pagination.nextCursor)

def numberField (field : String) (json : Json) : Option Int :=
  match json.get field with
  | some (.number id) => some id
  | _ => none

def AllowedLimit (limit : Nat) : Prop := 1 ≤ limit ∧ limit ≤ 500

/-- A list of rows that is answered in pages: nothing is lost or repeated, also while other rows change. -/
structure Pages (key : ρ → κ) (ident : ρ → Int) (field : String) (rowsOf : View → List ρ) (render : View → ρ → Json)
    (encode : κ → Cursor) (ready : View → Prop) (answer : View → Nat → Option Cursor → Api ListResponse) : Prop where
  complete : ∀ view (limits : Nat → Nat), ready view → (∀ n, AllowedLimit (limits n)) → ∃ count pages,
    Walk (fetched answer) none ((List.range count).map fun n => (view, limits n)) pages ∧
      pages.flatten = (ordered key (rowsOf view)).map (render view)
  hasMore : ∀ view limit position response, ready view → AllowedLimit limit →
    (∀ start ∈ position, ∃ earlier row, ready earlier ∧ row ∈ rowsOf earlier ∧ key row = start) →
    answer view limit (position.map encode) = .ok response →
    (response.pagination.hasMore = true ↔ response.pagination.nextCursor.isSome) ∧
      (response.pagination.hasMore = true ↔ ∃ row ∈ rowsOf view, After key position row ∧ render view row ∉ response.data)
  stable : ∀ calls pages row, Walk (fetched answer) none calls pages →
    (∀ call ∈ calls, ready call.1 ∧ AllowedLimit call.2 ∧ row ∈ rowsOf call.1) →
    pages.flatten.countP (fun json => numberField field json = some (ident row)) = 1

variable {key : ρ → κ} {ident : ρ → Int} {field : String} {rowsOf : View → List ρ} {render : View → ρ → Json}
  {encode : κ → Cursor} {ready : View → Prop} {answer : View → Nat → Option Cursor → Api ListResponse}

theorem pages_of_answers (valid : κ → Prop) (distinct : ∀ view, ((rowsOf view).map key).Nodup)
    (numbered : ∀ view, ((rowsOf view).map ident).Nodup)
    (named : ∀ view row, numberField field (render view row) = some (ident row))
    (keys : ∀ view, ready view → ∀ row ∈ rowsOf view, valid (key row))
    (answers : ∀ view limit position, ready view → AllowedLimit limit → (∀ start ∈ position, valid start) →
      answer view limit (position.map encode) = .ok ⟨(page key (rowsOf view) limit position).rows.map (render view), limit,
        (page key (rowsOf view) limit position).next.map encode, (page key (rowsOf view) limit position).next.isSome⟩) :
    Pages key ident field rowsOf render encode ready answer := by
  have serves : ∀ view limit, ready view → AllowedLimit limit →
      Serves key rowsOf render encode valid (fetched answer) view limit := by
    intro view limit ready allowed
    refine ⟨allowed.1, distinct view, keys view ready, ?_⟩
    intro position fits
    simp only [fetched, answers view limit position ready allowed fits, toOption_ok, Option.map_some]
  have single : ∀ view row other, row ∈ rowsOf view → other ∈ rowsOf view → ident other = ident row → other = row := by
    intro view row other inside within same
    exact List.inj_on_of_nodup_map (numbered view) within inside same
  refine ⟨?_, ?_, ?_⟩
  · intro view limits ready allowed
    exact walk_complete fun n => serves view (limits n) ready (allowed n)
  · intro view limit position response ready allowed issued answered
    have fits : ∀ start ∈ position, valid start := by
      intro start given
      obtain ⟨earlier, row, before, inside, rfl⟩ := issued start given
      exact keys earlier before row inside
    rw [answers view limit position ready allowed fits] at answered
    cases answered
    refine ⟨by simp, ?_⟩
    change (page key (rowsOf view) limit position).next.isSome = true ↔ _
    rw [page_next_isSome (distinct view) allowed.1]
    refine exists_congr fun row => and_congr_right fun inside => and_congr_right fun _ => not_congr ?_
    rw [List.mem_map]
    constructor
    · exact fun member => ⟨row, member, rfl⟩
    · rintro ⟨other, member, same⟩
      have equal : some (ident other) = some (ident row) := by rw [← named view other, ← named view row, same]
      exact single view row other inside (mem_of_mem_page member).1 (Option.some.inj equal) ▸ member
  · intro calls pages row walk shown
    have shows : ∀ call ∈ calls, Shows key rowsOf render encode valid (fetched answer) (fun row => some (ident row)) row call := by
      intro call member
      obtain ⟨ready, allowed, inside⟩ := shown call member
      exact ⟨serves call.1 call.2 ready allowed, inside, fun other within same =>
        single call.1 row other inside within (Option.some.inj same)⟩
    exact walk_stable named walk shows

end Pages

section Theorem
variable (zone : Zone) (client : IntegrationClient)

def answering (listing : Listing) (view : View) (limit : Nat) (cursor : Option Cursor) : Api ListResponse :=
  listing.answer zone view client limit cursor

theorem employmentsInScope_ids (view : View) : ((view.employmentsInScope zone client).map Employment.id).Nodup :=
  (List.Sublist.map _ List.filter_sublist).nodup view.db.employments.unique

theorem matchingEvents_ids (employmentId start finish : Option Int) (view : View) :
    ((matchingEvents zone client employmentId start finish view).map AttendanceEvent.id).Nodup :=
  (List.Sublist.map _ List.filter_sublist).nodup view.db.events.unique

theorem matchingEvents_positions (employmentId start finish : Option Int) (view : View) :
    ((matchingEvents zone client employmentId start finish view).map eventPosition).Nodup := by
  refine List.Nodup.of_map (fun position => (ofLex position).2) ?_
  rw [List.map_map]
  exact matchingEvents_ids zone client employmentId start finish view

/-- A list does not read the cursor of another one. -/
theorem foreign_refused (listing : Listing) (view : View) (limit : Nat) {resource : String}
    (different : resource ≠ listing.resource) (key : Json) :
    (listing.answer zone view client limit (some (encodeResourceCursor resource key))).toOption = none := by
  have refused := decode_foreign different key
  cases listing with
  | employments =>
    simp only [Listing.resource] at refused
    simp [Listing.answer, listEmployments, integerCursor, refused]
  | attendanceEvents employmentId dateFrom dateTo =>
    simp only [Listing.resource] at refused
    simp [Listing.answer, listAttendanceEvents, attendanceCursor, refused]
  | locks year month =>
    simp only [Listing.resource] at refused
    simp [Listing.answer, listLocks, integerCursor, refused]

/-- The three lists are paged without loss or repetition, and their cursors are their own. -/
theorem lists_are_paged :
    Pages Employment.id Employment.id "id" (View.employmentsInScope zone · client) (employmentPayload zone)
        (encodeId "employments") (fun view => Readable zone view ∧ scopeEmployments ∈ client.scopes)
        (answering zone client .employments) ∧
      (∀ employmentId dateFrom dateTo start finish, startFilter zone dateFrom = .ok start →
        endFilter zone dateTo = .ok finish →
        Pages eventPosition AttendanceEvent.id "id" (matchingEvents zone client employmentId start finish) (eventPayload zone)
          encodePosition (fun view => Readable zone view ∧ scopeAttendance ∈ client.scopes ∧
            accessFilter zone view client employmentId = .ok ())
          (answering zone client (.attendanceEvents employmentId dateFrom dateTo))) ∧
      (∀ year month, Pages Employment.id Employment.id "employment_id" (View.employmentsInScope zone · client)
        (fun view => lockPayload view year month) (encodeId "locks")
        (fun view => Readable zone view ∧ scopeLocks ∈ client.scopes) (answering zone client (.locks year month))) ∧
      (∀ resource position, 1 ≤ position → integerCursor (some (encodeId resource position)) resource = .ok (some position)) ∧
      (∀ position, ValidPosition position → attendanceCursor (some (encodePosition position)) = .ok (some position)) ∧
      ∀ (listing : Listing) view limit resource key, resource ≠ listing.resource →
        (listing.answer zone view client limit (some (encodeResourceCursor resource key))).toOption = none := by
  have numbered : ∀ view : View, Readable zone view → ∀ employment ∈ view.employmentsInScope zone client,
      RowNumber employment.id :=
    fun view readable employment member => readable.employments employment (Table.mem_select.mp member).1
  refine ⟨?_, ?_, ?_, ?_, ?_, ?_⟩
  · refine pages_of_answers RowNumber (employmentsInScope_ids zone client) (employmentsInScope_ids zone client) ?_ ?_ ?_
    · exact fun _ _ => rfl
    · exact fun view ready => numbered view ready.1
    · exact fun view limit position ready allowed fits => listEmployments_eq allowed ready.2 fits
  · intro employmentId dateFrom dateTo start finish starts ends
    refine pages_of_answers (fun start => ValidPosition start ∧ (ofLex start).2 ≤ integerMax) (matchingEvents_positions zone client employmentId start finish)
      (matchingEvents_ids zone client employmentId start finish) ?_ ?_ ?_
    · exact fun _ _ => rfl
    · intro view ready event member
      obtain ⟨positive, inside, -⟩ := ready.1.events event (Table.mem_select.mp member).1
      exact ⟨⟨inside, positive.1⟩, positive.2⟩
    · intro view limit position ready allowed fits
      exact listAttendanceEvents_eq ready.1 allowed ready.2.1 ready.2.2 starts ends fits
  · intro year month
    refine pages_of_answers RowNumber (employmentsInScope_ids zone client) (employmentsInScope_ids zone client) ?_ ?_ ?_
    · exact fun _ _ => rfl
    · exact fun view ready => numbered view ready.1
    · exact fun view limit position ready allowed fits => listLocks_eq allowed ready.2 year month fits
  · intro resource position positive
    have fits : ∀ id ∈ some position, 1 ≤ id := by
      rintro id ⟨⟩
      exact positive
    exact integerCursor_issued fits
  · intro position valid
    have fits : ∀ start ∈ some position, ValidPosition start := by
      rintro start ⟨⟩
      exact valid
    exact attendanceCursor_issued fits
  · exact fun listing view limit resource key different => foreign_refused zone client listing view limit different key

end Theorem

/-- Three employments, for a client that may read them all. -/
def threeEmployments : View where
  clock := Dagmar.Proofs.sampleClock
  db := Db.blank Dagmar.Proofs.sampleDb.users ⟨[3, 1, 2].map fun id => { Dagmar.Proofs.sampleEmployment with id := id }, by decide⟩ 4
  columns := ⟨fun _ => "Recepce", fun _ => "Jana", fun _ => 0⟩

def readingClient : IntegrationClient :=
  ⟨[scopeEmployments, scopeAttendance, scopeLocks], .allEmployments, [], [], false⟩

theorem threeEmployments_readable : Readable Dagmar.Proofs.sampleZone threeEmployments where
  employments := by decide
  events := nofun

/-- Read two at a time, the three employments come in the order of their numbers. -/
theorem three_employments_by_two : ∃ count pages,
    Walk (fetched (answering Dagmar.Proofs.sampleZone readingClient .employments)) none
      ((List.range count).map fun _ => (threeEmployments, 2)) pages ∧
      pages.flatten.map (numberField "id") = [some 1, some 2, some 3] := by
  obtain ⟨count, pages, walk, whole⟩ := (lists_are_paged Dagmar.Proofs.sampleZone readingClient).1.complete threeEmployments
    (fun _ => 2) ⟨threeEmployments_readable, by decide⟩ fun _ => ⟨by decide, by decide⟩
  refine ⟨count, pages, walk, ?_⟩
  rw [whole]
  rfl

end Dagmar.Integration.Proofs
