import Mathlib.Data.List.Basic

/-! Delimited text. A field that contains a mark of the dialect is quoted, with its
quotes doubled; reading the written records gives them back. -/

namespace Dagmar.Library.Csv

variable {α : Type}

/-- The four marks of a dialect; a record ends with the last two. -/
structure Dialect (α : Type) where
  delimiter : α
  quote : α
  carriage : α
  feed : α
  distinct : [delimiter, quote, carriage, feed].Nodup

namespace Dialect

section Marks
variable {dialect : Dialect α}

theorem delimiter_ne_quote : dialect.delimiter ≠ dialect.quote := by
  have distinct := dialect.distinct
  simp only [List.nodup_cons, List.mem_cons, not_or] at distinct
  exact distinct.1.1

theorem carriage_ne_quote : dialect.carriage ≠ dialect.quote := by
  have distinct := dialect.distinct
  simp only [List.nodup_cons, List.mem_cons, not_or] at distinct
  exact Ne.symm distinct.2.1.1

theorem carriage_ne_delimiter : dialect.carriage ≠ dialect.delimiter := by
  have distinct := dialect.distinct
  simp only [List.nodup_cons, List.mem_cons, not_or] at distinct
  exact Ne.symm distinct.1.2.1

end Marks

variable [DecidableEq α] (dialect : Dialect α)

def special (c : α) : Prop :=
  c = dialect.delimiter ∨ c = dialect.quote ∨ c = dialect.carriage ∨ c = dialect.feed

instance (c : α) : Decidable (dialect.special c) := inferInstanceAs (Decidable (_ ∨ _))

section Writing

def doubled (field : List α) : List α :=
  field.flatMap fun c => if c = dialect.quote then [dialect.quote, dialect.quote] else [c]

def writeField (field : List α) : List α :=
  if ∃ c ∈ field, dialect.special c then dialect.quote :: dialect.doubled field ++ [dialect.quote] else field

def writeFields : List (List α) → List α
  | [] => []
  | [field] => dialect.writeField field
  | field :: fields => dialect.writeField field ++ dialect.delimiter :: writeFields fields

def writeRecord (fields : List (List α)) : List α := dialect.writeFields fields ++ [dialect.carriage, dialect.feed]

def write (records : List (List (List α))) : List α := records.flatMap dialect.writeRecord

end Writing

section Reading

/-- Where a reader stands: at the start of a field, in a plain or a quoted one, after a quote inside
a quoted one, or between the two marks that end a record. -/
inductive Place where
  | start
  | plain
  | quoted
  | closing
  | ending
deriving DecidableEq

/-- The records of a text, from a place with the characters of the field and the fields of the record
that were read before. -/
def readFrom : Place → List α → List (List α) → List α → Option (List (List (List α)))
  | place, field, fields, [] => if place = .start ∧ field = [] ∧ fields = [] then some [] else none
  | .quoted, field, fields, c :: text =>
    if c = dialect.quote then readFrom .closing field fields text else readFrom .quoted (field ++ [c]) fields text
  | .ending, _, fields, c :: text =>
    if c = dialect.feed then (readFrom .start [] [] text).map (fields :: ·) else none
  | place, field, fields, c :: text =>
    if c = dialect.delimiter then readFrom .start [] (fields ++ [field]) text
    else if c = dialect.carriage then readFrom .ending [] (fields ++ [field]) text
    else if c = dialect.quote ∧ place = .start then readFrom .quoted field fields text
    else if c = dialect.quote ∧ place = .closing then readFrom .quoted (field ++ [c]) fields text
    else if dialect.special c ∨ place = .closing then none
    else readFrom .plain (field ++ [c]) fields text

def read (text : List α) : Option (List (List (List α))) := dialect.readFrom .start [] [] text

end Reading

section RoundTrip
variable {dialect}

/-- A field ends here, before the delimiter or the end of the record. -/
def Ends (dialect : Dialect α) (text : List α) : Prop :=
  ∃ c rest, text = c :: rest ∧ (c = dialect.delimiter ∨ c = dialect.carriage)

/-- In front of the end of a field it does not matter how the field was read. -/
theorem readFrom_ends {text : List α} (ends : Ends dialect text) {place : Place} (unquoted : place ≠ .quoted ∧ place ≠ .ending)
    (field : List α) (fields : List (List α)) :
    dialect.readFrom place field fields text = dialect.readFrom .closing field fields text := by
  obtain ⟨c, rest, rfl, mark⟩ := ends
  have cases' : c = dialect.delimiter ∨ c ≠ dialect.delimiter ∧ c = dialect.carriage := by
    rcases mark with rfl | rfl
    · exact .inl rfl
    · exact .inr ⟨carriage_ne_delimiter, rfl⟩
  cases place with
  | quoted => exact absurd rfl unquoted.1
  | ending => exact absurd rfl unquoted.2
  | _ => rcases cases' with same | ⟨different, same⟩ <;> simp [readFrom, same, carriage_ne_delimiter]

theorem readFrom_plain {field : List α} (plain : ¬ ∃ c ∈ field, dialect.special c) (front : List α) (fields : List (List α))
    {text : List α} (ends : Ends dialect text) {place : Place} (begun : place = .start ∨ place = .plain) :
    dialect.readFrom place front fields (field ++ text) = dialect.readFrom .closing (front ++ field) fields text := by
  induction field generalizing front place with
  | nil =>
    rw [List.append_nil, List.nil_append]
    exact readFrom_ends ends (by rcases begun with rfl | rfl <;> decide) front fields
  | cons c field ih =>
    have unmarked : ¬ dialect.special c := fun special => plain ⟨c, List.mem_cons_self, special⟩
    have rest := ih (fun ⟨other, member, special⟩ => plain ⟨other, List.mem_cons_of_mem _ member, special⟩) (front ++ [c])
      (.inr rfl)
    obtain ⟨first, second, third, -⟩ : c ≠ dialect.delimiter ∧ c ≠ dialect.quote ∧ c ≠ dialect.carriage ∧ c ≠ dialect.feed := by
      simpa only [special, not_or] using unmarked
    rw [List.append_assoc, List.singleton_append] at rest
    rw [← rest, List.cons_append]
    rcases begun with rfl | rfl <;> simp [readFrom, first, second, third, unmarked]

theorem readFrom_doubled (field front : List α) (fields : List (List α)) (text : List α) :
    dialect.readFrom .quoted front fields (dialect.doubled field ++ dialect.quote :: text) =
      dialect.readFrom .closing (front ++ field) fields text := by
  induction field generalizing front with
  | nil => simp [doubled, readFrom]
  | cons c field ih =>
    have rest := ih (front ++ [c])
    rw [List.append_assoc, List.singleton_append] at rest
    rw [← rest, doubled, List.flatMap_cons, List.append_assoc]
    split
    next same =>
      subst same
      have first : dialect.quote ≠ dialect.delimiter := Ne.symm delimiter_ne_quote
      have third : dialect.quote ≠ dialect.carriage := Ne.symm carriage_ne_quote
      simp [readFrom, first, third, doubled]
    next different => simp [readFrom, different, doubled]

/-- A written field is read up to its end. -/
theorem readFrom_field (field : List α) (fields : List (List α)) {text : List α} (ends : Ends dialect text) :
    dialect.readFrom .start [] fields (dialect.writeField field ++ text) = dialect.readFrom .closing field fields text := by
  unfold writeField
  split
  next marked =>
    have first : dialect.quote ≠ dialect.delimiter := Ne.symm delimiter_ne_quote
    have third : dialect.quote ≠ dialect.carriage := Ne.symm carriage_ne_quote
    have inside := @readFrom_doubled α _ dialect field [] fields text
    rw [List.nil_append] at inside
    rw [← inside]
    simp [readFrom, first, third]
  next plain => exact readFrom_plain plain [] fields ends (.inl rfl)

theorem readFrom_record {record : List (List α)} (filled : record ≠ []) (fields : List (List α)) (text : List α) :
    dialect.readFrom .start [] fields (dialect.writeRecord record ++ text) =
      (dialect.readFrom .start [] [] text).map ((fields ++ record) :: ·) := by
  induction record generalizing fields with
  | nil => exact absurd rfl filled
  | cons field record ih =>
    cases record with
    | nil =>
      have ends : Ends dialect (dialect.carriage :: dialect.feed :: text) := ⟨_, _, rfl, .inr rfl⟩
      have shape : dialect.writeRecord [field] ++ text = dialect.writeField field ++ dialect.carriage :: dialect.feed :: text := by
        simp [writeRecord, writeFields]
      rw [shape, readFrom_field field fields ends]
      simp [readFrom, carriage_ne_delimiter]
    | cons next record =>
      have ends : Ends dialect (dialect.delimiter :: (dialect.writeRecord (next :: record) ++ text)) := ⟨_, _, rfl, .inl rfl⟩
      have shape : dialect.writeRecord (field :: next :: record) ++ text =
          dialect.writeField field ++ dialect.delimiter :: (dialect.writeRecord (next :: record) ++ text) := by
        simp [writeRecord, writeFields]
      have rest := ih (by simp) (fields ++ [field])
      rw [List.append_assoc, List.singleton_append] at rest
      rw [shape, readFrom_field field fields ends, ← rest]
      simp [readFrom]

/-- Records of at least one field are read as they were written. -/
theorem read_write {records : List (List (List α))} (filled : ∀ record ∈ records, record ≠ []) :
    dialect.read (dialect.write records) = some records := by
  induction records with
  | nil => rfl
  | cons record records ih =>
    obtain ⟨first, others⟩ := List.forall_mem_cons.mp filled
    have rest : dialect.readFrom .start [] [] (dialect.write records) = some records := ih others
    rw [read, write, List.flatMap_cons, readFrom_record first, ← write, rest]
    rfl

end RoundTrip

end Dialect

end Dagmar.Library.Csv
