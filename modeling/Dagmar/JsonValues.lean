import Dagmar.JsonText

/-! `json.dumps` of whole values, lists and objects within each other, and the way back.
How a float is written is a parameter. -/

namespace Dagmar.JsonText

section Writing
variable (float : ℚ → List Char)

mutual
def dumps : Json → List Char
  | .null => ['n', 'u', 'l', 'l']
  | .flag true => ['t', 'r', 'u', 'e']
  | .flag false => ['f', 'a', 'l', 's', 'e']
  | .number value => dumpsNumber value
  | .float value => float value
  | .infinite true => minusInfinity
  | .infinite false => ['I', 'n', 'f', 'i', 'n', 'i', 't', 'y']
  | .nan => ['N', 'a', 'N']
  | .text value => dumpsText value
  | .list items => '[' :: dumpsItems items ++ [']']
  | .object fields => '\x7b' :: dumpsFields fields ++ ['\x7d']

def dumpsItems : List Json → List Char
  | [] => []
  | item :: items => dumps item ++ dumpsMoreItems items

def dumpsMoreItems : List Json → List Char
  | [] => []
  | item :: items => ',' :: dumps item ++ dumpsMoreItems items

def dumpsFields : List (String × Json) → List Char
  | [] => []
  | (name, value) :: fields => dumpsText name ++ ':' :: dumps value ++ dumpsMoreFields fields

def dumpsMoreFields : List (String × Json) → List Char
  | [] => []
  | (name, value) :: fields => ',' :: dumpsText name ++ ':' :: dumps value ++ dumpsMoreFields fields
end

mutual
/-- How deep lists and objects stand within each other. -/
def depth : Json → Nat
  | .list items => 1 + depthItems items
  | .object fields => 1 + depthFields fields
  | _ => 0

def depthItems : List Json → Nat
  | [] => 0
  | item :: items => max (depth item) (depthItems items)

def depthFields : List (String × Json) → Nat
  | [] => 0
  | (_, value) :: fields => max (depth value) (depthFields fields)
end

/-- What is written for a value is no blank first and reads as the value, whatever may follow a value. -/
structure Reads (written : List Char) (value : Json) : Prop where
  opens : ∃ c more, written = c :: more ∧ isBlank c = false ∧ c ≠ ']'
  read : ∀ fuel rest, written.length ≤ fuel → EndsNumber rest → readValue fuel (written ++ rest) = some (value, rest)

/-- Values whose objects have distinct names and whose floats read back. -/
inductive Writable : Json → Prop where
  | null : Writable .null
  | flag (value : Bool) : Writable (.flag value)
  | number (value : Int) : Writable (.number value)
  | float {value : ℚ} (reads : Reads (float value) (.float value)) : Writable (.float value)
  | infinite (negative : Bool) : Writable (.infinite negative)
  | nan : Writable .nan
  | text (value : String) : Writable (.text value)
  | list {items : List Json} (each : ∀ item ∈ items, Writable item) : Writable (.list items)
  | object {fields : List (String × Json)} (distinct : (fields.map Prod.fst).Nodup)
      (each : ∀ field ∈ fields, Writable field.2) : Writable (.object fields)

end Writing

section Reading
variable {float : ℚ → List Char}

/-- The marks between values and after the last one. -/
theorem endsNumber_mark {c : Char} (mark : c = ',' ∨ c = ']' ∨ c = '\x7d') (rest : List Char) : EndsNumber (c :: rest) := by
  rcases mark with rfl | rfl | rfl <;> exact endsNumber_cons (by decide) rest

theorem Reads.of_readsAs {written : List Char} {value : Json} (reads : ReadsAs written value)
    (other : ∀ c ∈ written.head?, c ≠ ']') : Reads written value := by
  obtain ⟨plain, inhabited, read⟩ := reads
  cases written with
  | nil => exact absurd rfl inhabited
  | cons c more =>
    refine ⟨⟨c, more, rfl, plain c rfl, other c rfl⟩, ?_⟩
    intro fuel rest enough ends
    obtain ⟨less, rfl⟩ : ∃ less, fuel = less + 1 := ⟨fuel - 1, by rw [List.length_cons] at enough; omega⟩
    exact read less rest ends

/-- A word that begins with a letter. -/
theorem Reads.word {c : Char} {more : List Char} {value : Json}
    (letter : isBlank c = false ∧ c ≠ ']' ∧ c ≠ '-' ∧ c.isDigit = false)
    (read : ∀ fuel rest, readValue (fuel + 1) (c :: more ++ rest) = some (value, rest)) : Reads (c :: more) value := by
  refine ⟨⟨c, more, rfl, letter.1, letter.2.1⟩, ?_⟩
  intro fuel rest enough _
  obtain ⟨less, rfl⟩ : ∃ less, fuel = less + 1 := ⟨fuel - 1, by rw [List.length_cons] at enough; omega⟩
  exact read less rest

theorem skipBlanks_reads {written : List Char} {value : Json} (reads : Reads written value) (rest : List Char) :
    skipBlanks (written ++ rest) = written ++ rest := by
  obtain ⟨c, more, rfl, plain, -⟩ := reads.opens
  apply skipBlanks_of_head
  intro other same
  cases same
  exact plain

theorem after_reads {written : List Char} {value : Json} (reads : Reads written value) (rest : List Char) :
    after ']' (written ++ rest) = none := by
  rw [after, skipBlanks_reads reads]
  obtain ⟨c, more, rfl, -, other⟩ := reads.opens
  exact if_neg other

theorem readItems_dumps {item : Json} {items : List Json} (reads : Reads (dumps float item) item)
    (others : ∀ other ∈ items, Reads (dumps float other) other) {fuel : Nat}
    (enough : (dumps float item ++ dumpsMoreItems float items).length < fuel) (rest : List Char) :
    readItems fuel (dumps float item ++ dumpsMoreItems float items ++ ']' :: rest) = some (item :: items, rest) := by
  induction items generalizing item fuel with
  | nil =>
    obtain ⟨less, rfl⟩ : ∃ less, fuel = less + 1 := ⟨fuel - 1, by omega⟩
    rw [dumpsMoreItems, List.append_nil] at enough ⊢
    have first := reads.read less (']' :: rest) (by omega) (endsNumber_mark (by simp) rest)
    simp only [readItems, skipBlanks_reads reads, first, Option.bind_eq_bind, Option.bind_some]
    rw [after_self (by decide)]
    rfl
  | cons next items ih =>
    obtain ⟨less, rfl⟩ : ∃ less, fuel = less + 1 := ⟨fuel - 1, by omega⟩
    obtain ⟨second, more⟩ := List.forall_mem_cons.mp others
    have shape : dumps float item ++ dumpsMoreItems float (next :: items) ++ ']' :: rest =
        dumps float item ++ ',' :: (dumps float next ++ dumpsMoreItems float items ++ ']' :: rest) := by
      simp [dumpsMoreItems]
    rw [dumpsMoreItems, List.length_append, List.length_append, List.length_cons] at enough
    have first := reads.read less (',' :: (dumps float next ++ dumpsMoreItems float items ++ ']' :: rest)) (by omega)
      (endsNumber_mark (by simp) _)
    have tail := ih second more (by rw [List.length_append]; omega : _ < less)
    rw [shape]
    simp only [readItems, skipBlanks_reads reads, first, Option.bind_eq_bind, Option.bind_some]
    rw [after_self (by decide)]
    simp only [tail, Option.map_some]

/-- A name, a colon and a value are read, and then what follows them. -/
theorem readMembers_step {name : String} {written : List Char} {value : Json} (reads : Reads written value) {fuel : Nat}
    (enough : written.length ≤ fuel) {rest : List Char} (ends : EndsNumber rest) :
    readMembers (fuel + 1) (dumpsText name ++ ':' :: written ++ rest) =
      match after ',' rest with
      | some rest => (readMembers fuel rest).map fun (fields, rest) => ((name, value) :: fields, rest)
      | none => (after '\x7d' rest).map fun rest => ([(name, value)], rest) := by
  have shape : dumpsText name ++ ':' :: written ++ rest =
      '"' :: (name.toList.flatMap escape ++ '"' :: ':' :: (written ++ rest)) := by simp [dumpsText]
  rw [shape, readMembers, after_self (by decide)]
  simp only [Option.bind_eq_bind, Option.bind_some, readText_dumps]
  rw [after_self (by decide)]
  rw [Option.bind_some, skipBlanks_reads reads, reads.read fuel rest enough ends]
  rfl

theorem readFields_dumps (name : String) {value : Json} {fields : List (String × Json)}
    (reads : Reads (dumps float value) value) (others : ∀ field ∈ fields, Reads (dumps float field.2) field.2) {fuel : Nat}
    (enough : (dumpsFields float ((name, value) :: fields)).length < fuel) (rest : List Char) :
    readMembers fuel (dumpsFields float ((name, value) :: fields) ++ '\x7d' :: rest) = some ((name, value) :: fields, rest) := by
  induction fields generalizing name value fuel with
  | nil =>
    obtain ⟨less, rfl⟩ : ∃ less, fuel = less + 1 := ⟨fuel - 1, by omega⟩
    simp only [dumpsFields, dumpsMoreFields, List.append_nil, List.length_append, List.length_cons] at enough ⊢
    rw [readMembers_step reads (by omega) (endsNumber_mark (by simp) rest), after_self (by decide)]
    rfl
  | cons next fields ih =>
    obtain ⟨less, rfl⟩ : ∃ less, fuel = less + 1 := ⟨fuel - 1, by omega⟩
    obtain ⟨other, following⟩ := next
    obtain ⟨second, more⟩ := List.forall_mem_cons.mp others
    change Reads (dumps float following) following at second
    have shape : dumpsFields float ((name, value) :: (other, following) :: fields) ++ '\x7d' :: rest =
        dumpsText name ++ ':' :: dumps float value ++
          ',' :: (dumpsFields float ((other, following) :: fields) ++ '\x7d' :: rest) := by
      simp [dumpsFields, dumpsMoreFields]
    have length : (dumpsFields float ((name, value) :: (other, following) :: fields)).length =
        (dumpsText name).length + 1 + (dumps float value).length + 1 +
          (dumpsFields float ((other, following) :: fields)).length := by
      simp only [dumpsFields, dumpsMoreFields, List.length_append, List.length_cons]
      omega
    have tail := ih other second more (by omega : _ < less)
    rw [shape, readMembers_step reads (by omega) (endsNumber_mark (by simp) _), after_self (by decide)]
    simp only [tail, Option.map_some]

/-- Fields of distinct names stay as they are. -/
theorem foldl_putField {fields done : List (String × Json)} (distinct : ((done ++ fields).map Prod.fst).Nodup) :
    fields.foldl putField done = done ++ fields := by
  induction fields generalizing done with
  | nil => simp
  | cons field fields ih =>
    have fresh : done.any (fun other => other.1 = field.1) = false := by
      rw [List.any_eq_false]
      intro other member same
      rw [List.map_append, List.map_cons, List.nodup_append] at distinct
      exact distinct.2.2 other.1 (List.mem_map_of_mem member) field.1 List.mem_cons_self (of_decide_eq_true same)
    have put : putField done field = done ++ [field] := by simp [putField, fresh]
    rw [List.foldl_cons, put, ih (by simpa using distinct)]
    simp

theorem exists_less {size fuel : Nat} (enough : size + 1 ≤ fuel) : ∃ less, fuel = less + 1 ∧ size ≤ less :=
  ⟨fuel - 1, by omega, by omega⟩

theorem reads_number (value : Int) : Reads (dumpsNumber value) (.number value) := by
  apply Reads.of_readsAs (readsAs_number value)
  obtain ⟨c, first, kind, -⟩ := head?_dumpsNumber value
  intro other same
  cases first.symm.trans same
  rintro rfl
  rcases kind with impossible | impossible <;> cases impossible

theorem reads_text (value : String) : Reads (dumpsText value) (.text value) := by
  apply Reads.of_readsAs (readsAs_text value)
  intro c same
  cases same
  decide

theorem reads_minusInfinity : Reads minusInfinity (.infinite true) := by
  refine ⟨⟨'-', _, rfl, by decide, by decide⟩, ?_⟩
  intro fuel rest enough _
  obtain ⟨less, rfl, -⟩ := exists_less enough
  unfold readValue
  rw [if_pos (List.prefix_append minusInfinity rest), List.drop_left]

theorem reads_list {items : List Json} (each : ∀ item ∈ items, Reads (dumps float item) item) :
    Reads (dumps float (.list items)) (.list items) := by
  refine ⟨⟨'[', _, rfl, by decide, by decide⟩, ?_⟩
  intro fuel rest enough _
  have shape : dumps float (.list items) ++ rest = '[' :: (dumpsItems float items ++ ']' :: rest) := by simp [dumps]
  rw [dumps, List.length_append, List.length_cons, List.length_singleton] at enough
  obtain ⟨less, rfl, fits⟩ := exists_less enough
  rw [shape, readValue, if_neg (not_minusInfinity_cons (by decide)), if_neg (by simp)]
  cases items with
  | nil => rfl
  | cons item items =>
    obtain ⟨first, others⟩ := List.forall_mem_cons.mp each
    have unclosed : after ']' (dumpsItems float (item :: items) ++ ']' :: rest) = none := by
      rw [dumpsItems, List.append_assoc]
      exact after_reads first _
    have read := readItems_dumps first others fits rest
    simp only [unclosed]
    rw [dumpsItems, read]
    rfl

theorem reads_object {fields : List (String × Json)} (distinct : (fields.map Prod.fst).Nodup)
    (each : ∀ field ∈ fields, Reads (dumps float field.2) field.2) : Reads (dumps float (.object fields)) (.object fields) := by
  refine ⟨⟨'\x7b', _, rfl, by decide, by decide⟩, ?_⟩
  intro fuel rest enough _
  have shape : dumps float (.object fields) ++ rest = '\x7b' :: (dumpsFields float fields ++ '\x7d' :: rest) := by
    simp [dumps]
  rw [dumps, List.length_append, List.length_cons, List.length_singleton] at enough
  obtain ⟨less, rfl, fits⟩ := exists_less enough
  rw [shape, readValue, if_neg (not_minusInfinity_cons (by decide)), if_neg (by simp)]
  cases fields with
  | nil => rfl
  | cons field fields =>
    obtain ⟨name, value⟩ := field
    obtain ⟨first, others⟩ := List.forall_mem_cons.mp each
    have read := readFields_dumps name first others fits rest
    have put : ((name, value) :: fields).foldl putField [] = [] ++ (name, value) :: fields := foldl_putField distinct
    have unclosed : after '\x7d' (dumpsFields float ((name, value) :: fields) ++ '\x7d' :: rest) = none := by
      rw [dumpsFields, dumpsText]
      rfl
    simp only [unclosed, read, Option.map_some, put, List.nil_append]

theorem reads_words : Reads ['n', 'u', 'l', 'l'] .null ∧ Reads ['t', 'r', 'u', 'e'] (.flag true) ∧
    Reads ['f', 'a', 'l', 's', 'e'] (.flag false) ∧ Reads ['I', 'n', 'f', 'i', 'n', 'i', 't', 'y'] (.infinite false) ∧
    Reads ['N', 'a', 'N'] .nan := by
  refine ⟨.word (by decide) ?_, .word (by decide) ?_, .word (by decide) ?_, .word (by decide) ?_, .word (by decide) ?_⟩
  all_goals
    intro fuel rest
    simp only [List.cons_append, List.nil_append]
    rw [readValue, if_neg (not_minusInfinity_cons (by decide)), if_neg (by simp)]

theorem reads_dumps {value : Json} (writable : Writable float value) : Reads (dumps float value) value := by
  obtain ⟨null, true', false', infinity, nan⟩ := reads_words
  induction writable with
  | null => exact null
  | flag value =>
    cases value with
    | true => exact true'
    | false => exact false'
  | number value => exact reads_number value
  | float reads => exact reads
  | infinite negative =>
    cases negative with
    | true => exact reads_minusInfinity
    | false => exact infinity
  | nan => exact nan
  | text value => exact reads_text value
  | list each reads => exact reads_list reads
  | object distinct each reads => exact reads_object distinct reads

/-- `json.loads` reads what `json.dumps` has written. -/
theorem loads_dumps_value {value : Json} (writable : Writable float value) :
    loads (String.ofList (dumps float value)) = some value := by
  have reads := reads_dumps writable
  have blanks := skipBlanks_reads reads []
  rw [List.append_nil] at blanks
  have read := reads.read ((dumps float value).length + 1) [] (by omega) (fun c none => nomatch none)
  rw [List.append_nil] at read
  rw [loads, String.toList_ofList, String.length_ofList, blanks, read]
  rfl

/-- Different values are written differently. -/
theorem dumps_injective {first second : Json} (one : Writable float first) (two : Writable float second)
    (same : dumps float first = dumps float second) : first = second := by
  have read := loads_dumps_value one
  rw [same, loads_dumps_value two] at read
  exact (Option.some.inj read).symm

end Reading

end Dagmar.JsonText
