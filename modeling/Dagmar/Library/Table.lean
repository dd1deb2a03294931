import Mathlib.Data.List.Nodup

/-! A database table with a primary key. The rows stand in a list, but the key
is unique by construction, so a table is read as the set of its rows: every
operation is described by which rows are members afterwards. -/

namespace Dagmar.Library

universe u v

structure Table (ρ : Type u) {κ : Type v} (key : ρ → κ) where
  rows : List ρ
  unique : (rows.map key).Nodup

namespace Table
variable {ρ : Type u} {κ : Type v} {key : ρ → κ}

instance : Membership ρ (Table ρ key) := ⟨fun table row => row ∈ table.rows⟩

instance [DecidableEq ρ] (row : ρ) (table : Table ρ key) : Decidable (row ∈ table) :=
  inferInstanceAs (Decidable (row ∈ table.rows))

theorem mem_def {table : Table ρ key} {row : ρ} : row ∈ table ↔ row ∈ table.rows := Iff.rfl

@[ext] theorem ext {first second : Table ρ key} (same : first.rows = second.rows) : first = second := by
  cases first
  cases second
  cases same
  rfl

def empty : Table ρ key := ⟨[], List.nodup_nil⟩

instance : EmptyCollection (Table ρ key) := ⟨empty⟩
instance : Inhabited (Table ρ key) := ⟨empty⟩

@[simp] theorem not_mem_empty (row : ρ) : row ∉ (∅ : Table ρ key) := by
  intro member
  cases member

theorem nodup (table : Table ρ key) : table.rows.Nodup := table.unique.of_map

/-- Two rows with the same key are the same row. -/
theorem key_inj (table : Table ρ key) {first second : ρ} (left : first ∈ table) (right : second ∈ table)
    (same : key first = key second) : first = second :=
  List.inj_on_of_nodup_map table.unique left right same

/-- `DELETE ... WHERE`. -/
def deleteWhere (table : Table ρ key) (p : ρ → Prop) [DecidablePred p] : Table ρ key :=
  ⟨table.rows.filter (fun row => ¬ p row), (List.Sublist.map key List.filter_sublist).nodup table.unique⟩

@[simp] theorem mem_deleteWhere {table : Table ρ key} {p : ρ → Prop} [DecidablePred p] {row : ρ} :
    row ∈ table.deleteWhere p ↔ row ∈ table ∧ ¬ p row := by
  simp [deleteWhere, mem_def]

/-- Deleting rows that are not there does nothing. -/
theorem deleteWhere_none {table : Table ρ key} {p : ρ → Prop} [DecidablePred p] (none : ∀ row ∈ table, ¬ p row) :
    table.deleteWhere p = table := by
  ext1
  exact List.filter_eq_self.mpr fun row member => decide_eq_true (none row member)

/-- `SELECT ... WHERE`, in table order. -/
def select (table : Table ρ key) (p : ρ → Prop) [DecidablePred p] : List ρ := table.rows.filter (fun row => p row)

@[simp] theorem mem_select {table : Table ρ key} {p : ρ → Prop} [DecidablePred p] {row : ρ} :
    row ∈ table.select p ↔ row ∈ table ∧ p row := by
  simp [select, mem_def]

theorem select_nodup (table : Table ρ key) (p : ρ → Prop) [DecidablePred p] : (table.select p).Nodup :=
  List.Nodup.filter _ table.nodup

/-- Rewrite rows in place without touching their key. -/
def mapRows (table : Table ρ key) (f : ρ → ρ) (same : ∀ row, key (f row) = key row) : Table ρ key :=
  ⟨table.rows.map f, by simpa only [List.map_map, Function.comp_def, same] using table.unique⟩

theorem mem_mapRows {table : Table ρ key} {f : ρ → ρ} {same : ∀ row, key (f row) = key row} {row : ρ} :
    row ∈ table.mapRows f same ↔ ∃ old ∈ table, f old = row := by
  simp [mapRows, mem_def]

/-- Rewriting with a function that fixes every row of the table does nothing. -/
theorem mapRows_id {table : Table ρ key} {f : ρ → ρ} {same : ∀ row, key (f row) = key row}
    (fixed : ∀ row ∈ table, f row = row) : table.mapRows f same = table := by
  ext1
  exact (List.map_congr_left fixed).trans (List.map_id _)

theorem mapRows_mapRows (table : Table ρ key) (f g : ρ → ρ) (first : ∀ row, key (f row) = key row)
    (second : ∀ row, key (g row) = key row) :
    (table.mapRows f first).mapRows g second =
      table.mapRows (fun row => g (f row)) (fun row => (second (f row)).trans (first row)) := by
  ext1
  exact List.map_map

/-- `INSERT` of several rows; `none` is a primary key violation. -/
def insertAll [DecidableEq κ] (table : Table ρ key) (added : List ρ) : Option (Table ρ key) :=
  if unique : ((table.rows ++ added).map key).Nodup then some ⟨table.rows ++ added, unique⟩ else none

theorem mem_insertAll [DecidableEq κ] {table result : Table ρ key} {added : List ρ}
    (inserted : table.insertAll added = some result) (row : ρ) : row ∈ result ↔ row ∈ table ∨ row ∈ added := by
  simp only [insertAll] at inserted
  split at inserted
  · cases inserted
    simp [mem_def]
  · cases inserted

theorem fresh_of_insertAll [DecidableEq κ] {table result : Table ρ key} {added : List ρ}
    (inserted : table.insertAll added = some result) {row other : ρ} (member : row ∈ table) (new : other ∈ added) :
    key row ≠ key other := by
  simp only [insertAll] at inserted
  split at inserted
  · next unique =>
    rw [List.map_append, List.nodup_append] at unique
    exact unique.2.2 _ (List.mem_map_of_mem member) _ (List.mem_map_of_mem new)
  · cases inserted

theorem insertAll_isSome [DecidableEq κ] {table : Table ρ key} {added : List ρ}
    (distinct : (added.map key).Nodup) (fresh : ∀ row ∈ table, ∀ other ∈ added, key row ≠ key other) :
    ∃ result, table.insertAll added = some result := by
  have unique : ((table.rows ++ added).map key).Nodup := by
    rw [List.map_append, List.nodup_append]
    refine ⟨table.unique, distinct, ?_⟩
    intro first left second right
    obtain ⟨row, member, rfl⟩ := List.mem_map.mp left
    obtain ⟨other, inside, rfl⟩ := List.mem_map.mp right
    exact fresh row member other inside
  exact ⟨_, dif_pos unique⟩

/-- The rows under some of the keys are read anew. -/
def refresh (table fresh : Table ρ key) (p : κ → Prop) [DecidablePred p] : Table ρ key :=
  ⟨(table.deleteWhere (fun row => p (key row))).rows ++ fresh.select (fun row => p (key row)), by
    rw [List.map_append, List.nodup_append]
    refine ⟨(table.deleteWhere _).unique, (List.Sublist.map key List.filter_sublist).nodup fresh.unique, ?_⟩
    intro first left second right same
    obtain ⟨old, kept, rfl⟩ := List.mem_map.mp left
    obtain ⟨new, chosen, rfl⟩ := List.mem_map.mp right
    have unread := (mem_deleteWhere.mp kept).2
    rw [same] at unread
    exact unread (mem_select.mp chosen).2⟩

theorem mem_refresh {table fresh : Table ρ key} {p : κ → Prop} [DecidablePred p] {row : ρ} :
    row ∈ table.refresh fresh p ↔ row ∈ table ∧ ¬ p (key row) ∨ row ∈ fresh ∧ p (key row) := by
  simp only [mem_def, refresh, deleteWhere, select, List.mem_append, List.mem_filter, decide_eq_true_eq]

/-- The rows a transaction inserted or rewrote, and the keys of those it rewrote or
deleted, between what it read and what it leaves. -/
def written [DecidableEq ρ] (before after : Table ρ key) : List ρ := after.select (· ∉ before)

def overwritten [DecidableEq ρ] (before after : Table ρ key) : List κ := (before.select (· ∉ after)).map key

theorem mem_overwritten [DecidableEq ρ] {before after : Table ρ key} {k : κ} :
    k ∈ overwritten before after ↔ ∃ row ∈ before, row ∉ after ∧ key row = k := by
  simp [overwritten, and_assoc]

variable [DecidableEq κ]

/-- The row with a key, if there is one. -/
def get (table : Table ρ key) (k : κ) : Option ρ := table.rows.find? (fun row => key row = k)

theorem get_eq_some_iff {table : Table ρ key} {k : κ} {row : ρ} :
    table.get k = some row ↔ row ∈ table ∧ key row = k := by
  constructor
  · intro found
    exact ⟨List.mem_of_find?_eq_some found, by simpa using List.find?_some found⟩
  · rintro ⟨member, rfl⟩
    cases found : table.get (key row) with
    | none =>
      have := List.find?_eq_none.mp found row member
      simp at this
    | some other =>
      have same : key other = key row := by simpa using List.find?_some found
      rw [table.key_inj (List.mem_of_find?_eq_some found) member same]

theorem get_eq_none_iff {table : Table ρ key} {k : κ} : table.get k = none ↔ ∀ row ∈ table, key row ≠ k := by
  simp [get, mem_def]

theorem get_of_mem {table : Table ρ key} {row : ρ} (member : row ∈ table) : table.get (key row) = some row :=
  get_eq_some_iff.mpr ⟨member, rfl⟩

/-- Tables with the same rows under a key return the same row for it. -/
theorem get_congr {first second : Table ρ key} {k : κ}
    (same : ∀ row, key row = k → (row ∈ first ↔ row ∈ second)) : first.get k = second.get k := by
  cases found : second.get k with
  | none =>
    rw [get_eq_none_iff] at found ⊢
    intro row member equal
    exact found row ((same row equal).mp member) equal
  | some row =>
    rw [get_eq_some_iff] at found ⊢
    exact ⟨(same row found.2).mpr found.1, found.2⟩

theorem get_refresh (table fresh : Table ρ key) (p : κ → Prop) [DecidablePred p] (k : κ) :
    (table.refresh fresh p).get k = if p k then fresh.get k else table.get k := by
  split
  next chosen =>
    apply get_congr
    rintro row rfl
    simp only [mem_refresh, chosen, not_true, and_false, and_true, false_or]
  next unread =>
    apply get_congr
    rintro row rfl
    simp only [mem_refresh, unread, not_false_iff, and_false, and_true, or_false]

/-- Collecting from the selected rows reads one row when every other row contributes nothing. -/
theorem flatMap_select {β : Type*} (table : Table ρ key) (p : ρ → Prop) [DecidablePred p] (k : κ) (f : ρ → List β)
    (chosen : ∀ row, key row = k → p row) (silent : ∀ row, p row → key row ≠ k → f row = []) :
    (table.select p).flatMap f = (table.get k).toList.flatMap f := by
  have unique := table.unique
  rw [select, get]
  generalize table.rows = rows at unique
  induction rows with
  | nil => rfl
  | cons row rows ih =>
    obtain ⟨fresh, unique⟩ := List.nodup_cons.mp unique
    by_cases same : key row = k
    · subst same
      have rest : (rows.filter (fun other => p other)).flatMap f = [] := by
        apply List.flatMap_eq_nil_iff.mpr
        intro other member
        obtain ⟨inside, selected⟩ := List.mem_filter.mp member
        apply silent other (of_decide_eq_true selected)
        intro equal
        exact fresh (equal ▸ List.mem_map_of_mem inside)
      simp [chosen row rfl, rest]
    · by_cases selected : p row
      · simp [selected, same, silent row selected same, ih unique]
      · simp [selected, same, ih unique]

/-- Write a row over the one with its key, or add it. -/
def put (table : Table ρ key) (row : ρ) : Table ρ key :=
  ⟨(table.deleteWhere (fun other => key other = key row)).rows ++ [row], by
    rw [List.map_append, List.nodup_append]
    refine ⟨(table.deleteWhere _).unique, by simp, ?_⟩
    intro first left second right
    obtain ⟨other, member, rfl⟩ := List.mem_map.mp left
    have different := (mem_deleteWhere.mp member).2
    simp only [List.map_cons, List.map_nil, List.mem_singleton] at right
    exact right ▸ different⟩

@[simp] theorem mem_put {table : Table ρ key} {row other : ρ} :
    other ∈ table.put row ↔ other = row ∨ other ∈ table ∧ key other ≠ key row := by
  simp only [put, mem_def, List.mem_append, List.mem_singleton]
  rw [← mem_def, mem_deleteWhere, or_comm, mem_def]

theorem get_put (table : Table ρ key) (row : ρ) (k : κ) :
    (table.put row).get k = if key row = k then some row else table.get k := by
  split
  next same => exact get_eq_some_iff.mpr ⟨mem_put.mpr (.inl rfl), same⟩
  next different =>
    apply get_congr
    intro other same
    rw [mem_put]
    constructor
    · intro either
      rcases either with rfl | kept
      · exact absurd same different
      · exact kept.1
    · exact fun member => .inr ⟨member, fun equal => different (equal ▸ same)⟩

/-- What a write leaves of a row as it was is found as before. -/
theorem map_get_put {β : Type*} {f : ρ → β} {table : Table ρ key} {row old : ρ} (stored : table.get (key row) = some old)
    (same : f row = f old) (k : κ) : ((table.put row).get k).map f = (table.get k).map f := by
  rw [get_put]
  split
  next equal => rw [← equal, stored, Option.map_some, Option.map_some, same]
  next different => rfl

theorem get_put_self (table : Table ρ key) {row : ρ} {k : κ} (same : key row = k) : (table.put row).get k = some row := by
  rw [get_put, if_pos same]

/-- A row that is inserted is found under its own key, which was free. -/
theorem get_insertAll {table result : Table ρ key} {row : ρ} (inserted : table.insertAll [row] = some result) :
    table.get (key row) = none ∧ ∀ k, result.get k = if key row = k then some row else table.get k := by
  have fresh : table.get (key row) = none :=
    get_eq_none_iff.mpr fun other member => fresh_of_insertAll inserted member (List.mem_singleton_self row)
  refine ⟨fresh, ?_⟩
  intro k
  split
  next same =>
    apply get_eq_some_iff.mpr
    exact ⟨(mem_insertAll inserted row).mpr (.inr (List.mem_singleton_self row)), same⟩
  next different =>
    apply get_congr
    intro other same
    rw [mem_insertAll inserted, List.mem_singleton, or_iff_left]
    rintro rfl
    exact different same

theorem mem_put_of_ne {table : Table ρ key} {row other : ρ} {k : κ} (same : key row = k) (different : key other ≠ k) :
    other ∈ table.put row ↔ other ∈ table := by
  rw [mem_put, same, and_iff_left different]
  exact or_iff_right fun equal => different (equal ▸ same)

theorem get_deleteKey (table : Table ρ key) (k k' : κ) :
    (table.deleteWhere (fun row => key row = k)).get k' = if k = k' then none else table.get k' := by
  split
  next same =>
    rw [get_eq_none_iff]
    intro row member equal
    exact (mem_deleteWhere.mp member).2 (equal.trans same.symm)
  next different =>
    apply get_congr
    intro row same
    rw [mem_deleteWhere, and_iff_left]
    exact fun equal => different (equal.symm.trans same)

/-- Write the changes of a transaction into the table as it stands; `none` is a
duplicate key, or an update of a row that is gone. -/
def patch [DecidableEq ρ] (table before after : Table ρ key) : Option (Table ρ key) :=
  if ∀ row ∈ written before after, before.get (key row) ≠ none → table.get (key row) ≠ none then
    (table.deleteWhere (fun row => key row ∈ overwritten before after)).insertAll (written before after)
  else none

theorem mem_patch [DecidableEq ρ] {table before after result : Table ρ key} (patched : table.patch before after = some result)
    {row : ρ} : row ∈ result ↔ row ∈ table ∧ key row ∉ overwritten before after ∨ row ∈ after ∧ row ∉ before := by
  unfold patch at patched
  split at patched
  · rw [mem_insertAll patched, mem_deleteWhere, written, mem_select]
  · cases patched

/-- A row on which the transaction and the table agreed is in the result as the transaction left it. -/
theorem mem_patch_of_agreed [DecidableEq ρ] {table before after result : Table ρ key}
    (patched : table.patch before after = some result) {row : ρ} (agreed : row ∈ before ↔ row ∈ table) :
    row ∈ result ↔ row ∈ after := by
  have touched (inside : row ∈ before) : key row ∈ overwritten before after ↔ row ∉ after := by
    rw [mem_overwritten]
    constructor
    · rintro ⟨old, present, missing, same⟩
      rwa [← before.key_inj present inside same]
    · exact fun missing => ⟨row, inside, missing, rfl⟩
  rw [mem_patch patched, ← agreed]
  by_cases inside : row ∈ before
  · simp only [inside, touched inside, true_and, not_true, and_false, or_false, not_not]
  · simp only [inside, false_and, false_or, not_false_iff, and_true]

/-- A row that the transaction did not touch is in the result as it was in the table. -/
theorem mem_patch_of_untouched [DecidableEq ρ] {table before after result : Table ρ key}
    (patched : table.patch before after = some result) {row : ρ} (unwritten : row ∈ after → row ∈ before)
    (untouched : row ∈ table → key row ∉ overwritten before after) : row ∈ result ↔ row ∈ table := by
  rw [mem_patch patched]
  constructor
  · rintro (kept | new)
    · exact kept.1
    · exact absurd (unwritten new.1) new.2
  · exact fun member => .inl ⟨member, untouched member⟩

/-- A key that the transaction neither inserts nor deletes has a row in the result when it had one in the table. -/
theorem get_patch_ne_none [DecidableEq ρ] {table before after result : Table ρ key}
    (patched : table.patch before after = some result) {k : κ}
    (same : before.get k = none ↔ after.get k = none) : result.get k ≠ none ↔ table.get k ≠ none := by
  have updates : ∀ row ∈ written before after, before.get (key row) ≠ none → table.get (key row) ≠ none := by
    unfold patch at patched
    split at patched
    next present => exact present
    · cases patched
  have present {rows : Table ρ key} {row : ρ} (member : row ∈ rows) : rows.get (key row) ≠ none := by
    rw [get_of_mem member]
    exact Option.some_ne_none row
  constructor
  · intro found
    obtain ⟨row, stored⟩ := Option.ne_none_iff_exists'.mp found
    obtain ⟨member, rfl⟩ := get_eq_some_iff.mp stored
    rcases (mem_patch patched).mp member with kept | new
    · exact present kept.1
    · exact updates row (mem_select.mpr new) fun absent => present new.1 (same.mp absent)
  · intro found
    obtain ⟨row, stored⟩ := Option.ne_none_iff_exists'.mp found
    obtain ⟨member, rfl⟩ := get_eq_some_iff.mp stored
    by_cases touched : key row ∈ overwritten before after
    · obtain ⟨old, held, gone, equal⟩ := mem_overwritten.mp touched
      have stays : after.get (key row) ≠ none := fun absent => present held (equal ▸ same.mpr absent)
      obtain ⟨new, stored⟩ := Option.ne_none_iff_exists'.mp stays
      obtain ⟨inside, equal'⟩ := get_eq_some_iff.mp stored
      have fresh : new ∉ before := by
        intro kept
        rw [before.key_inj kept held (equal'.trans equal.symm)] at inside
        exact gone inside
      rw [← equal']
      exact present ((mem_patch patched).mpr (.inr ⟨inside, fresh⟩))
    · exact present ((mem_patch patched).mpr (.inl ⟨member, touched⟩))

end Table
end Dagmar.Library
