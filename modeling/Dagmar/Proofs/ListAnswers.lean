import Dagmar.CursorTexts
import Dagmar.Proofs.Pagination

/-! Which requests for a page are answered, with rows or with a refusal. A request is
followed stage by stage: a stage that refuses ends it well, and what is left are the
stages at which nobody handles what Python or the driver raises. -/

namespace Dagmar.Integration.Proofs
open Library Library.Outcome

section Statement

/-- An `IntegrationError` that blames the client. -/
def IsRefusal (error : ApiError) : Prop :=
  ∃ status code message params, error = .api status code message params ∧ 400 ≤ status ∧ status < 500

def Answered {α : Type} (outcome : Api α) : Prop := ∀ error, outcome = .error error → IsRefusal error

/-- The number fits the column it is compared with. -/
def Bindable (value : Int) : Prop := -integerMax - 1 ≤ value ∧ value ≤ integerMax

/-- The instant of a cursor of events lies in the calendar. -/
def InstantInside (cursor : Option Cursor) : Prop :=
  ∀ occurredAt id utc, decodeResourceCursor cursor "attendance-events" = .ok (.list [.text occurredAt, .number id]) → 1 ≤ id →
    datetimeFromIsoformat occurredAt = some (.aware utc) → inCalendar (dateOf utc)

/-- The day after the last day asked for lies in the calendar. -/
def DayFollows (dateTo : Option String) : Prop :=
  ∀ text ∈ dateTo, ∀ last, dateFromIsoformat text = some last → inCalendar (last + 1)

/-- The instant of an event is one that the driver returns and Prague shows. -/
def Shown (zone : Zone) (event : AttendanceEvent) : Prop :=
  inCalendar (dateOf event.occurredAt.utc) ∧ inCalendar (dateOf (zone.toWall event.occurredAt.utc))

/-- The events of a page and the one after them. -/
def pageEvents (zone : Zone) (view : View) (client : IntegrationClient) (limit : Nat) (employmentId start finish : Option Int)
    (position : Option EventPosition) : List AttendanceEvent :=
  (remaining eventPosition (view.db.events.select (eventMatches zone view client employmentId start finish)) position).take
    (limit + 1)

/-- A cursor of numbers does not end the stack of the loader, and its number fits. -/
structure NumbersFit (cursor : Option Cursor) (resource : String) : Prop where
  loads : cursor ≠ some .nested
  number : ∀ id, integerCursor cursor resource = .ok (some id) → Bindable id

/-- The filters and the events of a page behind a cursor that was read. -/
structure EventsFit (zone : Zone) (view : View) (client : IntegrationClient) (limit : Nat) (position : Option EventPosition)
    (employmentId : Option Int) (dateFrom dateTo : Option String) : Prop where
  employment : ∀ id ∈ employmentId, Bindable id
  day : accessFilter zone view client employmentId = .ok () → (∃ start, startFilter zone dateFrom = .ok start) → DayFollows dateTo
  page : accessFilter zone view client employmentId = .ok () → ∀ start finish, startFilter zone dateFrom = .ok start →
    endFilter zone dateTo = .ok finish → (∀ point ∈ position, Bindable (ofLex point).2) ∧
      ∀ event ∈ pageEvents zone view client limit employmentId start finish position, Shown zone event

/-- What a request of a client that has the scope must meet. -/
def Fits (zone : Zone) (view : View) (client : IntegrationClient) (limit : Nat) (cursor : Option Cursor) : Listing → Prop
  | .employments => scopeEmployments ∈ client.scopes → NumbersFit cursor "employments"
  | .locks _ _ => scopeLocks ∈ client.scopes → NumbersFit cursor "locks"
  | .attendanceEvents employmentId dateFrom dateTo => scopeAttendance ∈ client.scopes →
    cursor ≠ some .nested ∧ InstantInside cursor ∧
      ∀ position, attendanceCursor cursor = .ok position → EventsFit zone view client limit position employmentId dateFrom dateTo

end Statement

section Stages
variable {α β : Type}

theorem answered_ok (value : α) : Answered (.ok value : Api α) := by
  intro error impossible
  cases impossible

theorem answered_bind {first : Api α} {next : α → Api β} :
    Answered (first >>= next) ↔ Answered first ∧ ∀ value, first = .ok value → Answered (next value) := by
  constructor
  · intro answered
    exact ⟨fun error raised => answered error (bind_eq_error.mpr (.inl raised)),
      fun value found error raised => answered error (bind_eq_error.mpr (.inr ⟨value, found, raised⟩))⟩
  · intro ⟨before, after⟩ error raised
    rcases bind_eq_error.mp raised with early | ⟨value, found, late⟩
    · exact before error early
    · exact after value found error late

theorem answered_raiseIf {condition : Prop} [Decidable condition] {error : ApiError} :
    Answered (raiseIf condition error) ↔ (condition → IsRefusal error) := by
  simp only [Answered, raiseIf_eq_error]
  constructor
  · exact fun answered holds => answered error ⟨holds, rfl⟩
  · rintro refusal _ ⟨holds, rfl⟩
    exact refusal holds

theorem not_refusal_uncaught (exception : String) : ¬ IsRefusal (.uncaught exception) := by
  rintro ⟨_, _, _, _, same, _⟩
  cases same

theorem refusal_cursorInvalid : IsRefusal cursorInvalid := ⟨_, _, _, _, rfl, by decide, by decide⟩

theorem refusal_cursorForeign : IsRefusal cursorForeign := ⟨_, _, _, _, rfl, by decide, by decide⟩

/-- What nobody handles must not come up. -/
theorem answered_uncaught {condition : Prop} [Decidable condition] {exception : String} :
    Answered (raiseIf condition (.uncaught exception)) ↔ ¬ condition := by
  rw [answered_raiseIf]
  exact ⟨fun refusal holds => not_refusal_uncaught exception (refusal holds), fun fails holds => absurd holds fails⟩

theorem answered_requireScope (client : IntegrationClient) (scope : Scope) : Answered (requireScope client scope) :=
  answered_raiseIf.mpr fun _ => ⟨_, _, _, _, rfl, by decide, by decide⟩

theorem answered_bindInteger {value : Option Int} : Answered (bindInteger value) ↔ ∀ number ∈ value, Bindable number := by
  rw [bindInteger, answered_uncaught]
  simp only [Bindable, not_exists, not_and, not_or, not_lt]

theorem answered_parseIsoDate (text fieldName : String) : Answered (parseIsoDate text fieldName) := by
  intro error raised
  obtain ⟨_, rfl⟩ := require_eq_error.mp raised
  exact ⟨_, _, _, _, rfl, by decide, by decide⟩

end Stages

section Cursors
variable {cursor : Option Cursor}

theorem answered_decode (resource : String) : Answered (decodeResourceCursor cursor resource) ↔ cursor ≠ some .nested := by
  have keys (payload : Option Json) : Answered (resourceKey resource payload) := by
    cases payload with
    | none => exact answered_ok _
    | some payload =>
      rw [resourceKey]
      split
      · intro error raised
        obtain ⟨_, rfl⟩ := require_eq_error.mp raised
        exact refusal_cursorForeign
      · rintro _ ⟨⟩
        exact refusal_cursorForeign
  rw [decodeResourceCursor, answered_bind]
  simp only [keys, implies_true, and_true]
  constructor
  · rintro answered rfl
    exact not_refusal_uncaught _ (answered _ rfl)
  · intro loaded error raised
    unfold decodeCursor at raised
    split at raised
    · cases raised
    · cases raised
      exact refusal_cursorInvalid
    · cases raised
    · cases raised
      exact refusal_cursorInvalid
    · exact absurd rfl loaded

theorem answered_integerCursor (resource : String) : Answered (integerCursor cursor resource) ↔ cursor ≠ some .nested := by
  rw [integerCursor, answered_bind, answered_decode, and_iff_left]
  intro key _ error raised
  unfold integerKey at raised
  split at raised
  · cases raised
  · split at raised
    · cases raised
      exact refusal_cursorInvalid
    · cases raised
  · cases raised
    exact refusal_cursorInvalid

theorem answered_attendancePosition {time : Option RequestTime} {id : Int} :
    Answered (attendancePosition time id) ↔ ∀ utc, time = some (.aware utc) → inCalendar (dateOf utc) := by
  unfold attendancePosition
  split
  next utc =>
    split
    next inside =>
      refine iff_of_true (answered_ok _) ?_
      rintro _ ⟨⟩
      exact inside
    next outside =>
      refine iff_of_false ?_ fun inside => outside (inside utc rfl)
      exact fun answered => not_refusal_uncaught _ (answered _ rfl)
  next other =>
    refine iff_of_true ?_ fun utc same => absurd same (other utc)
    rintro _ ⟨⟩
    exact refusal_cursorInvalid

theorem answered_attendanceCursor : Answered (attendanceCursor cursor) ↔ cursor ≠ some .nested ∧ InstantInside cursor := by
  rw [attendanceCursor, answered_bind, answered_decode]
  refine and_congr_right fun _ => ?_
  constructor
  · intro answered occurredAt id utc decoded positive read
    have stage := answered _ decoded
    rw [attendanceKey, if_neg (not_lt.mpr positive)] at stage
    exact answered_attendancePosition.mp stage utc read
  · intro inside key decoded
    unfold attendanceKey
    split
    · exact answered_ok _
    next occurredAt id =>
      split
      · rintro _ ⟨⟩
        exact refusal_cursorInvalid
      next positive => exact answered_attendancePosition.mpr fun utc read => inside occurredAt id utc decoded (not_lt.mp positive) read
    · rintro _ ⟨⟩
      exact refusal_cursorInvalid

end Cursors

section Lists
variable {zone : Zone} {view : View} {client : IntegrationClient} {limit : Nat} {cursor : Option Cursor}

/-- The two lists of employments end in the same stages. -/
theorem answered_numbers {resource : String} {rest : Option Int → Api ListResponse}
    (answers : ∀ position, ∃ page, rest position = .ok page) :
    Answered (integerCursor cursor resource >>= fun position => bindInteger position >>= fun _ => rest position) ↔
      NumbersFit cursor resource := by
  have ends (position : Option Int) : Answered (rest position) := by
    obtain ⟨page, same⟩ := answers position
    rw [same]
    exact answered_ok page
  rw [answered_bind, answered_integerCursor]
  constructor
  · intro ⟨loads, stages⟩
    refine ⟨loads, ?_⟩
    intro id found
    exact answered_bindInteger.mp (answered_bind.mp (stages _ found)).1 id rfl
  · intro fits
    refine ⟨fits.loads, ?_⟩
    intro position found
    refine answered_bind.mpr ⟨answered_bindInteger.mpr ?_, fun _ _ => ends position⟩
    rintro id given
    rw [Option.mem_def.mp given] at found
    exact fits.number id found

theorem granted_iff {scope : Scope} {done : Unit} : requireScope client scope = .ok done ↔ scope ∈ client.scopes := by
  rw [requireScope, raiseIf_eq_ok, not_not]

theorem answered_employments (allowed : AllowedLimit limit) : Answered (listEmployments zone view client limit cursor) ↔
    (scopeEmployments ∈ client.scopes → NumbersFit cursor "employments") := by
  rw [listEmployments, limitField_ok allowed, ok_bind, answered_bind, and_iff_right (answered_requireScope client _)]
  simp only [granted_iff, forall_const]
  exact forall_congr' fun _ => answered_numbers fun position => ⟨_, rfl⟩

theorem answered_locks (allowed : AllowedLimit limit) (year month : Int) :
    Answered (listLocks zone view client limit cursor year month) ↔
      (scopeLocks ∈ client.scopes → NumbersFit cursor "locks") := by
  rw [listLocks, limitField_ok allowed, ok_bind, answered_bind, and_iff_right (answered_requireScope client _)]
  simp only [granted_iff, forall_const]
  exact forall_congr' fun _ => answered_numbers fun position => ⟨_, rfl⟩

theorem answered_accessFilter {employmentId : Option Int} : Answered (accessFilter zone view client employmentId) ↔
    ∀ id ∈ employmentId, Bindable id := by
  cases employmentId with
  | none => exact iff_of_true (answered_ok _) (by simp)
  | some employmentId =>
    rw [accessFilter, answered_bind, answered_bindInteger, and_iff_left]
    intro _ _
    exact answered_raiseIf.mpr fun _ => ⟨_, _, _, _, rfl, by decide, by decide⟩

theorem answered_startFilter (dateFrom : Option String) : Answered (startFilter zone dateFrom) := by
  cases dateFrom with
  | none => exact answered_ok _
  | some text =>
    rw [startFilter]
    split
    · exact answered_ok _
    · exact answered_bind.mpr ⟨answered_parseIsoDate text _, fun _ _ => answered_ok _⟩

theorem answered_endFilter {dateTo : Option String} : Answered (endFilter zone dateTo) ↔ DayFollows dateTo := by
  cases dateTo with
  | none => exact iff_of_true (answered_ok _) (by simp [DayFollows])
  | some text =>
    rw [endFilter]
    split
    next empty =>
      refine iff_of_true (answered_ok _) ?_
      rintro _ ⟨⟩ last read
      rw [empty] at read
      cases read
    next filled =>
      rw [answered_bind, and_iff_right (answered_parseIsoDate text _)]
      constructor
      · rintro answered _ ⟨⟩ last read
        have stage := answered last (require_eq_ok.mpr read)
        exact not_not.mp (answered_uncaught.mp (answered_bind.mp stage).1)
      · intro follows last read
        have inside := follows text rfl last (require_eq_ok.mp read)
        exact answered_bind.mpr ⟨answered_uncaught.mpr (not_not.mpr inside), fun _ _ => answered_ok _⟩

theorem answered_readEvents {events : List AttendanceEvent} :
    Answered (readEvents zone view events) ↔ ∀ event ∈ events, Shown zone event := by
  rw [readEvents, answered_bind, answered_uncaught]
  constructor
  · intro answered event member
    obtain ⟨stored, stage⟩ := answered
    have shown := answered_uncaught.mp (answered_bind.mp (stage () (raiseIf_eq_ok.mpr stored))).1
    push Not at stored shown
    exact ⟨stored event member, shown event member⟩
  · intro shown
    refine ⟨?_, fun _ _ => answered_bind.mpr ⟨answered_uncaught.mpr ?_, fun _ _ => answered_ok _⟩⟩
    · rintro ⟨event, member, outside⟩
      exact outside (shown event member).1
    · rintro ⟨event, member, outside⟩
      exact outside (shown event member).2

/-- The last stages of a list of events: its number is bound, and its events are read. -/
theorem answered_page {position : Option EventPosition} {events : List AttendanceEvent} {answer : List Json → ListResponse} :
    Answered (bindInteger (position.map fun start => (ofLex start).2) >>= fun _ =>
        readEvents zone view events >>= fun rows => return answer rows) ↔
      (∀ point ∈ position, Bindable (ofLex point).2) ∧ ∀ event ∈ events, Shown zone event := by
  have bound : (∀ number ∈ position.map fun start => (ofLex start).2, Bindable number) ↔
      ∀ point ∈ position, Bindable (ofLex point).2 := by
    cases position <;> simp
  rw [answered_bind, answered_bindInteger, bound]
  refine and_congr_right fun fits => ?_
  constructor
  · intro answered
    have done : bindInteger (position.map fun start => (ofLex start).2) = .ok () := by
      rw [bindInteger, raiseIf_eq_ok]
      rintro ⟨number, given, outside⟩
      have inside := bound.mpr fits number given
      simp only [Bindable] at inside
      omega
    exact answered_readEvents.mp (answered_bind.mp (answered () done)).1
  · exact fun shown _ _ => answered_bind.mpr ⟨answered_readEvents.mpr shown, fun _ _ => answered_ok _⟩

theorem answered_events (allowed : AllowedLimit limit) (employmentId : Option Int) (dateFrom dateTo : Option String) :
    Answered (listAttendanceEvents zone view client limit cursor employmentId dateFrom dateTo) ↔
      (scopeAttendance ∈ client.scopes → cursor ≠ some .nested ∧ InstantInside cursor ∧
        ∀ position, attendanceCursor cursor = .ok position →
          EventsFit zone view client limit position employmentId dateFrom dateTo) := by
  rw [listAttendanceEvents, limitField_ok allowed, ok_bind, answered_bind, and_iff_right (answered_requireScope client _)]
  simp only [granted_iff, forall_const]
  refine forall_congr' fun _ => ?_
  rw [answered_bind, answered_attendanceCursor, and_assoc]
  refine and_congr_right fun _ => and_congr_right fun _ => forall_congr' fun position => forall_congr' fun _ => ?_
  rw [answered_bind, answered_accessFilter]
  constructor
  · intro answered
    obtain ⟨employment, filters⟩ := answered
    refine ⟨employment, ?_, ?_⟩
    · intro access parsed
      obtain ⟨start, starts⟩ := parsed
      exact answered_endFilter.mp (answered_bind.mp ((answered_bind.mp (filters () access)).2 start starts)).1
    · intro access start finish starts ends
      exact answered_page.mp ((answered_bind.mp ((answered_bind.mp (filters () access)).2 start starts)).2 finish ends)
  · intro fits
    refine ⟨fits.employment, fun _ access => answered_bind.mpr ⟨answered_startFilter dateFrom, fun start starts => ?_⟩⟩
    refine answered_bind.mpr ⟨answered_endFilter.mpr (fits.day access ⟨start, starts⟩), fun finish ends => ?_⟩
    exact answered_page.mpr (fits.page access start finish starts ends)

end Lists

section Main

end Main

section Examples

/-- A loader whose stack never ends. -/
def sampleLoader : Loader where
  loads text := match JsonText.loads text with
    | some value => .ok value
    | none => .error .value
  agrees text value found read loaded := by
    rw [read] at loaded
    exact (Except.ok.inj loaded).symm

end Examples

end Dagmar.Integration.Proofs
