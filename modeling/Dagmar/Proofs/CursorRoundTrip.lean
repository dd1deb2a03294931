import Dagmar.CursorTexts
import Dagmar.Proofs.Pagination

/-! The cursors of the lists as texts: what a list issues is read back as what it stands
for, so a client that sends it gets the page that follows. -/

namespace Dagmar.Integration.Proofs
open Library Library.Outcome JsonText Base64

section Texts
variable {float : ℚ → List Char} {loader : Loader}

/-- The loader does not run out of its stack on values as shallow as a cursor. -/
def ReadsShallow (loader : Loader) : Prop :=
  ∀ text value, JsonText.loads text = some value → depth value ≤ 2 → ∃ found, loader.loads text = .ok found

theorem cursorBytes_text (payload : Json) :
    cursorBytes (encodeCursorText float payload) = some (String.ofList (dumps float payload)).toUTF8.data.toList := by
  rw [cursorBytes, encodeCursorText, String.toList_ofList, String.length_ofList]
  exact urlsafeB64decode_padded _

theorem fromUTF8_toUTF8 (text : String) : String.fromUTF8? ⟨text.toUTF8.data.toList.toArray⟩ = some text := by
  have valid : ByteArray.IsValidUTF8 ⟨text.toUTF8.data.toList.toArray⟩ := by
    rw [Array.toArray_toList]
    exact text.isValidUTF8
  rw [String.fromUTF8?, dif_pos valid]
  rfl

theorem encodeCursorText_ne {payload : Json} (writable : Writable float payload) : encodeCursorText float payload ≠ "" := by
  intro empty
  have bytes : cursorBytes (encodeCursorText float payload) = some _ := cursorBytes_text payload
  have none : cursorBytes "" = some [] := rfl
  rw [empty, none] at bytes
  have text := fromUTF8_toUTF8 (String.ofList (dumps float payload))
  rw [← Option.some.inj bytes] at text
  obtain ⟨c, more, opens, -⟩ := (reads_dumps writable).opens
  have blank : String.fromUTF8? ⟨[].toArray⟩ = some "" := rfl
  rw [opens, blank] at text
  have letters : (String.ofList (c :: more)).toList = [] := by
    rw [← Option.some.inj text]
    rfl
  rw [String.toList_ofList] at letters
  exact List.cons_ne_nil c more letters

/-- The text of a payload reads as the payload. -/
theorem readCursor_text (shallow : ReadsShallow loader) {payload : Json} (writable : Writable float payload)
    (flat : depth payload ≤ 2) : readCursor loader (some (encodeCursorText float payload)) = some (.json payload) := by
  have loaded := loads_dumps_value writable
  obtain ⟨found, read⟩ := shallow _ _ loaded flat
  have same := loader.agrees _ _ _ loaded read
  subst same
  have given : (some (encodeCursorText float found)).filter (· ≠ "") = some (encodeCursorText float found) := by
    simp [encodeCursorText_ne writable]
  rw [readCursor, given, Option.map_some, cursorBytes_text, Option.bind_some, fromUTF8_toUTF8]
  simp only [read]

/-- Different payloads have different texts. -/
theorem encodeCursorText_injective {first second : Json} (one : Writable float first) (two : Writable float second)
    (same : encodeCursorText float first = encodeCursorText float second) : first = second := by
  have bytes : some _ = some _ := (cursorBytes_text first).symm.trans ((congrArg cursorBytes same).trans (cursorBytes_text second))
  have text := fromUTF8_toUTF8 (String.ofList (dumps float first))
  rw [Option.some.inj bytes, fromUTF8_toUTF8] at text
  exact dumps_injective one two (String.ofList_injective (Option.some.inj text)).symm

end Texts

section Lists
variable {float : ℚ → List Char} {loader : Loader} {zone : Zone} {view : View} {client : IntegrationClient} {limit : Nat}

/-- The payloads of the cursors that the lists issue. -/
def Issued (float : ℚ → List Char) (payload : Json) : Prop := Writable float payload ∧ depth payload ≤ 2

theorem issued_resource {resource : String} {key : Json} (writable : Writable float key) (flat : depth key ≤ 1) :
    Issued float (.object [("v", .number 1), ("resource", .text resource), ("key", key)]) := by
  refine ⟨.object (by simp) ?_, ?_⟩
  · simp only [List.forall_mem_cons, List.not_mem_nil, false_imp_iff, implies_true, and_true]
    exact ⟨.number 1, .text resource, writable⟩
  · simp only [depth, depthFields]
    omega

theorem issued_respond {rows : List Json} {resource : String} {cursorKey : Option Json} {next : Cursor}
    (keys : ∀ key ∈ cursorKey, Writable float key ∧ depth key ≤ 1)
    (issued : next ∈ (respond rows limit resource cursorKey).pagination.nextCursor) :
    ∃ payload, next = .json payload ∧ Issued float payload := by
  simp only [respond, Option.mem_def, Option.ite_none_right_eq_some, Option.some.injEq] at issued
  obtain ⟨-, rfl⟩ := issued
  refine ⟨_, rfl, ?_⟩
  cases key : cursorKey with
  | none => exact issued_resource .null (by decide)
  | some value =>
    obtain ⟨writable, flat⟩ := keys value key
    exact issued_resource writable flat

/-- The number that a row shows. -/
theorem issued_number {α : Type} {rows : List α} {render : α → Json} {field : String} {ident : α → Int}
    (named : ∀ row, (render row).get field = some (.number (ident row))) (key : Json)
    (found : key ∈ (lastOfPage limit (rows.map render)).bind (Json.get field)) : Writable float key ∧ depth key ≤ 1 := by
  obtain ⟨row, last, got⟩ := Option.bind_eq_some_iff.mp found
  have inside := List.mem_of_getElem? last
  obtain ⟨source, -, rfl⟩ := List.mem_map.mp inside
  rw [named] at got
  cases got
  exact ⟨.number _, Nat.zero_le 1⟩

theorem issued_position {events : List AttendanceEvent} (key : Json)
    (found : key ∈ (lastOfPage limit events).map fun last =>
      Json.list [.text (utcCursorValue last.occurredAt.utc), .number last.id]) : Writable float key ∧ depth key ≤ 1 := by
  obtain ⟨event, -, rfl⟩ := Option.map_eq_some_iff.mp found
  refine ⟨.list ?_, ?_⟩
  · simp only [List.forall_mem_cons, List.not_mem_nil, false_imp_iff, implies_true, and_true]
    exact ⟨.text _, .number _⟩
  · simp only [depth, depthItems]
    omega

theorem issued_of_answer {listing : Listing} {cursor : Option Cursor} {response : ListResponse} {next : Cursor}
    (answered : listing.answer zone view client limit cursor = .ok response)
    (issued : next ∈ response.pagination.nextCursor) : ∃ payload, next = .json payload ∧ Issued float payload := by
  cases listing with
  | employments =>
    simp only [Listing.answer, listEmployments, bind_eq_ok, pure_eq_ok] at answered
    obtain ⟨-, -, -, -, position, -, -, -, rfl⟩ := answered
    exact issued_respond (issued_number fun employment => rfl) issued
  | attendanceEvents employmentId dateFrom dateTo =>
    simp only [Listing.answer, listAttendanceEvents, bind_eq_ok, pure_eq_ok] at answered
    obtain ⟨-, -, -, -, position, -, -, -, start, -, finish, -, -, -, rows, -, rfl⟩ := answered
    exact issued_respond issued_position issued
  | locks year month =>
    simp only [Listing.answer, listLocks, bind_eq_ok, pure_eq_ok] at answered
    obtain ⟨-, -, -, -, position, -, -, -, rfl⟩ := answered
    exact issued_respond (issued_number fun employment => rfl) issued

/-- The text of every cursor that a list issues is not empty, and a request that sends it is answered
as one that sends the cursor itself; other cursors have other texts. -/
theorem next_cursor_reads (float : ℚ → List Char) (loader : Loader) (shallow : ReadsShallow loader) {listing : Listing}
    {cursor : Option Cursor} {response : ListResponse} (answered : listing.answer zone view client limit cursor = .ok response)
    {next : Cursor} (issued : next ∈ response.pagination.nextCursor) :
    ∃ text, next.text? float = some text ∧ text ≠ "" ∧ readCursor loader (some text) = some next ∧
      (∀ other later reader size, Listing.request loader zone later reader size (some text) other =
        Listing.answer zone later reader size (some next) other) ∧
      ∀ payload, Writable float payload → encodeCursorText float payload = text → next = .json payload := by
  obtain ⟨payload, rfl, writable, flat⟩ := issued_of_answer answered issued
  have read := readCursor_text shallow writable flat
  refine ⟨encodeCursorText float payload, rfl, encodeCursorText_ne writable, read, ?_, ?_⟩
  · intro other later reader size
    rw [Listing.request, read]
  · intro second known same
    rw [encodeCursorText_injective known writable same]

theorem loaded_agrees {text : String} {value found : Json} (read : JsonText.loads text = some value)
    (loaded : (match JsonText.loads text with
      | some value => .ok value
      | none => .error .value : Except Cml.LoadError Json) = .ok found) : found = value := by
  rw [read] at loaded
  exact (Except.ok.inj loaded).symm

def plainLoader : Loader where
  loads text := match JsonText.loads text with
    | some value => .ok value
    | none => .error .value
  agrees _ _ _ := loaded_agrees

theorem plainLoader_shallow : ReadsShallow plainLoader := by
  intro text value read _
  exact ⟨value, by simp only [plainLoader, read]⟩

/-- The first page of two of three employments, and the cursor that it ends with. -/
theorem sample_next_cursor : ∃ response text,
    Listing.answer Dagmar.Proofs.sampleZone threeEmployments readingClient 2 none .employments = .ok response ∧
      readCursor plainLoader (some text) = response.pagination.nextCursor ∧ text ≠ "" := by
  obtain ⟨response, answered, next, issued⟩ : ∃ response,
      Listing.answer Dagmar.Proofs.sampleZone threeEmployments readingClient 2 none .employments = .ok response ∧
        ∃ next, next ∈ response.pagination.nextCursor := ⟨_, rfl, _, rfl⟩
  obtain ⟨text, -, given, read, -⟩ := next_cursor_reads (fun _ => []) plainLoader plainLoader_shallow answered issued
  exact ⟨response, text, answered, read.trans issued.symm, given⟩

end Lists

end Dagmar.Integration.Proofs
