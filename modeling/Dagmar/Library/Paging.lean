import Mathlib.Data.List.Sort
import Mathlib.Data.List.TakeDrop

/-! Pages of a list that is ordered by a key. A page begins after a position and holds
as many rows as asked for; one more row is looked up to tell whether another page
follows, and the position of the next page is the key of the last row. -/

namespace Dagmar.Library

universe u v w

section Pages
variable {ρ : Type u} {κ : Type v} [LinearOrder κ] (key : ρ → κ)

def ordered (rows : List ρ) : List ρ := rows.insertionSort fun first second => key first ≤ key second

/-- The row comes after the position, if there is one. -/
def After (position : Option κ) (row : ρ) : Prop := ∀ last ∈ position, last < key row

instance (position : Option κ) (row : ρ) : Decidable (After key position row) :=
  inferInstanceAs (Decidable (∀ last ∈ position, _))

@[simp] theorem after_none (row : ρ) : After key none row := nofun

/-- The rows that remain after a position, in order. -/
def remaining (rows : List ρ) (position : Option κ) : List ρ := ordered key (rows.filter (After key position ·))

structure Page (ρ : Type u) (κ : Type v) where
  rows : List ρ
  next : Option κ

def page (rows : List ρ) (limit : Nat) (position : Option κ) : Page ρ κ :=
  let found := (remaining key rows position).take (limit + 1)
  ⟨found.take limit, if limit < found.length then (found.take limit).getLast?.map key else none⟩

variable {key} {rows : List ρ} {position : Option κ} {limit : Nat}

theorem mem_remaining {row : ρ} : row ∈ remaining key rows position ↔ row ∈ rows ∧ After key position row := by
  simp [remaining, ordered]

theorem ordered_strict (distinct : (rows.map key).Nodup) :
    (ordered key rows).Pairwise fun first second => key first < key second := by
  have sorted : (ordered key rows).Pairwise fun first second => key first ≤ key second := List.pairwise_insertionSort _ rows
  have unequal : (ordered key rows).Pairwise fun first second => key first ≠ key second := by
    have shuffled : ((ordered key rows).map key).Nodup :=
      ((List.perm_insertionSort _ rows).map key).nodup_iff.mpr distinct
    exact List.pairwise_map.mp shuffled
  exact (sorted.and unequal).imp fun both => lt_of_le_of_ne both.1 both.2

theorem remaining_strict (distinct : (rows.map key).Nodup) (position : Option κ) :
    (remaining key rows position).Pairwise fun first second => key first < key second :=
  ordered_strict ((List.filter_sublist.map key).nodup distinct)

/-- Lists that are ordered by distinct keys are told apart by their members. -/
theorem eq_of_strict {first second : List ρ} (left : first.Pairwise fun one two => key one < key two)
    (right : second.Pairwise fun one two => key one < key two) (same : ∀ row, row ∈ first ↔ row ∈ second) :
    first = second := by
  have : Std.Irrefl fun one two : ρ => key one < key two := ⟨fun row => lt_irrefl (key row)⟩
  have : IsTrans ρ fun one two => key one < key two := ⟨fun _ _ _ => lt_trans⟩
  exact left.eq_of_mem_iff right same

theorem remaining_congr {first second : List ρ} (left : (first.map key).Nodup) (right : (second.map key).Nodup)
    (same : ∀ row, row ∈ first ↔ row ∈ second) (position : Option κ) :
    remaining key first position = remaining key second position := by
  refine eq_of_strict (remaining_strict left position) (remaining_strict right position) ?_
  intro row
  rw [mem_remaining, mem_remaining, same]

@[simp] theorem page_rows : (page key rows limit position).rows = (remaining key rows position).take limit := by
  simp [page, List.take_take]

theorem page_next : (page key rows limit position).next =
    if limit < (remaining key rows position).length then ((remaining key rows position).take limit).getLast?.map key
    else none := by
  simp only [page, List.take_take, List.length_take]
  rw [Nat.min_eq_left (Nat.le_succ limit)]
  refine if_congr ?_ rfl rfl
  omega

/-- The position of the next page is the key of the last row, and parts the rows. -/
theorem page_split (distinct : (rows.map key).Nodup) {next : κ}
    (more : (page key rows limit position).next = some next) :
    (∃ last ∈ (page key rows limit position).rows, key last = next) ∧
      (∀ row ∈ (page key rows limit position).rows, key row ≤ next) ∧
      ∀ row ∈ (remaining key rows position).drop limit, next < key row := by
  rw [page_next] at more
  split at more
  next longer =>
    rw [page_rows]
    have strict := remaining_strict distinct position
    generalize remaining key rows position = found at *
    obtain ⟨last, ends, rfl⟩ := Option.map_eq_some_iff.mp more
    obtain ⟨before, shape⟩ := List.getLast?_eq_some_iff.mp ends
    have whole : before ++ [last] ++ found.drop limit = found := by rw [← shape, List.take_append_drop]
    rw [← whole, List.pairwise_append, List.pairwise_append] at strict
    obtain ⟨⟨-, -, below⟩, -, above⟩ := strict
    rw [shape]
    refine ⟨⟨last, by simp, rfl⟩, ?_, ?_⟩
    · intro row member
      rcases List.mem_append.mp member with earlier | same
      · exact (below row earlier last List.mem_cons_self).le
      · rw [List.mem_singleton.mp same]
    · intro row member
      exact above last (by simp) row member
  next => cases more

theorem mem_page_or_drop {row : ρ} (member : row ∈ rows) (after : After key position row) :
    row ∈ (page key rows limit position).rows ∨ row ∈ (remaining key rows position).drop limit := by
  rw [page_rows, ← List.mem_append, List.take_append_drop]
  exact mem_remaining.mpr ⟨member, after⟩

theorem mem_of_mem_page {row : ρ} (member : row ∈ (page key rows limit position).rows) :
    row ∈ rows ∧ After key position row := by
  rw [page_rows] at member
  exact mem_remaining.mp (List.mem_of_mem_take member)

theorem page_last (last : (page key rows limit position).next = none) (positive : 0 < limit) :
    (page key rows limit position).rows = remaining key rows position := by
  rw [page_next] at last
  split at last
  next longer =>
    rw [Option.map_eq_none_iff, List.getLast?_eq_none_iff, List.take_eq_nil_iff] at last
    rcases last with none | empty
    · omega
    · rw [empty] at longer
      exact absurd longer (Nat.not_lt_zero _)
  next enough => rw [page_rows, List.take_of_length_le (Nat.le_of_not_lt enough)]

/-- What remains after a page is what the next position finds. -/
theorem remaining_next (distinct : (rows.map key).Nodup) {next : κ}
    (more : (page key rows limit position).next = some next) :
    remaining key rows (some next) = (remaining key rows position).drop limit := by
  obtain ⟨⟨last, inside, rfl⟩, below, above⟩ := page_split distinct more
  have reached := (mem_of_mem_page inside).2
  refine eq_of_strict (remaining_strict distinct _) ((remaining_strict distinct position).sublist (List.drop_sublist _ _)) ?_
  intro row
  constructor
  · intro member
    obtain ⟨inRows, after⟩ := mem_remaining.mp member
    have later : key last < key row := after _ rfl
    have within : After key position row := fun start given => (reached start given).trans later
    rcases mem_page_or_drop inRows within with early | late
    · exact absurd (below row early) (not_le_of_gt later)
    · exact late
  · intro member
    refine mem_remaining.mpr ⟨(mem_remaining.mp (List.mem_of_mem_drop member)).1, ?_⟩
    rintro start ⟨⟩
    exact above row member

/-- Another page follows exactly when rows are left over. -/
theorem page_next_isSome (distinct : (rows.map key).Nodup) (positive : 0 < limit) :
    (page key rows limit position).next.isSome ↔
      ∃ row ∈ rows, After key position row ∧ row ∉ (page key rows limit position).rows := by
  cases given : (page key rows limit position).next with
  | none =>
    simp only [Option.isSome_none, Bool.false_eq_true, false_iff]
    rintro ⟨row, member, after, missing⟩
    rw [page_last given positive] at missing
    exact missing (mem_remaining.mpr ⟨member, after⟩)
  | some next =>
    simp only [Option.isSome_some, true_iff]
    obtain ⟨-, below, above⟩ := page_split distinct given
    have longer : limit < (remaining key rows position).length := by
      by_contra enough
      rw [page_next, if_neg enough] at given
      cases given
    obtain ⟨row, left⟩ := List.exists_mem_of_ne_nil _ (List.drop_eq_nil_iff.not.mpr (Nat.not_le.mpr longer))
    obtain ⟨member, after⟩ := mem_remaining.mp (List.mem_of_mem_drop left)
    exact ⟨row, member, after, fun early => absurd (below row early) (not_le_of_gt (above row left))⟩

end Pages

section Walks

/-- Pages are fetched one after another, each from the position the last one gave, to the end. -/
inductive Walk {σ : Type u} {γ : Type v} {β : Type w} (fetch : σ → Option γ → Option (List β × Option γ)) :
    Option γ → List σ → List (List β) → Prop where
  | last {call : σ} {cursor : Option γ} {rows : List β} (fetched : fetch call cursor = some (rows, none)) :
      Walk fetch cursor [call] [rows]
  | more {call : σ} {cursor : Option γ} {rows : List β} {next : γ} {calls : List σ} {pages : List (List β)}
      (fetched : fetch call cursor = some (rows, some next)) (rest : Walk fetch (some next) calls pages) :
      Walk fetch cursor (call :: calls) (rows :: pages)

variable {τ : Type u} {ρ : Type u} {κ : Type v} {γ : Type v} {β : Type w} [LinearOrder κ] {key : ρ → κ}
  {rowsOf : τ → List ρ} {render : τ → ρ → β} {encode : κ → γ} {valid : κ → Prop}
  {fetch : τ × Nat → Option γ → Option (List β × Option γ)}

/-- A fetch that answers with pages of the rows of a view, from any valid position. -/
structure Serves (key : ρ → κ) (rowsOf : τ → List ρ) (render : τ → ρ → β) (encode : κ → γ) (valid : κ → Prop)
    (fetch : τ × Nat → Option γ → Option (List β × Option γ)) (view : τ) (limit : Nat) : Prop where
  positive : 0 < limit
  distinct : ((rowsOf view).map key).Nodup
  keys : ∀ row ∈ rowsOf view, valid (key row)
  answers : ∀ position, (∀ start ∈ position, valid start) → fetch (view, limit) (position.map encode) =
    some ((page key (rowsOf view) limit position).rows.map (render view),
      (page key (rowsOf view) limit position).next.map encode)

theorem Serves.next_valid {view : τ} {limit : Nat} (serves : Serves key rowsOf render encode valid fetch view limit)
    {position : Option κ} {next : κ} (given : (page key (rowsOf view) limit position).next = some next) : valid next := by
  obtain ⟨⟨last, inside, rfl⟩, -, -⟩ := page_split serves.distinct given
  exact serves.keys last (mem_of_mem_page inside).1

section Complete
variable {view : τ} {limits : Nat → Nat}

theorem walk_from (serves : ∀ n, Serves key rowsOf render encode valid fetch view (limits n)) (length : Nat) :
    ∀ (start : Nat) (position : Option κ), (∀ start ∈ position, valid start) →
      (remaining key (rowsOf view) position).length = length → ∃ count pages,
        Walk fetch (position.map encode) ((List.range count).map fun n => (view, limits (start + n))) pages ∧
          pages.flatten = (remaining key (rowsOf view) position).map (render view) := by
  induction length using Nat.strong_induction_on with
  | _ length ih =>
    rintro start position fits rfl
    have serve := serves start
    have answer := serve.answers position fits
    cases given : (page key (rowsOf view) (limits start) position).next with
    | none =>
      rw [given, Option.map_none] at answer
      refine ⟨1, [_], .last answer, ?_⟩
      rw [List.flatten_singleton, page_last given serve.positive]
    | some next =>
      have rest := remaining_next serve.distinct given
      have longer : limits start < (remaining key (rowsOf view) position).length := by
        by_contra enough
        rw [page_next, if_neg enough] at given
        cases given
      have shorter : (remaining key (rowsOf view) (some next)).length < (remaining key (rowsOf view) position).length := by
        have some := serve.positive
        rw [rest, List.length_drop]
        omega
      have reached : ∀ start ∈ some next, valid start := by
        rintro start ⟨⟩
        exact serve.next_valid given
      obtain ⟨count, pages, walk, whole⟩ := ih _ shorter (start + 1) (some next) reached rfl
      rw [given, Option.map_some] at answer
      refine ⟨count + 1, (page key (rowsOf view) (limits start) position).rows.map (render view) :: pages, ?_, ?_⟩
      · rw [List.range_succ_eq_map, List.map_cons, List.map_map]
        refine .more answer ?_
        simpa only [Function.comp_def, Nat.succ_eq_add_one, Nat.add_assoc, Nat.add_comm 1, Option.map_some] using walk
      · rw [List.flatten_cons, whole, rest, page_rows, ← List.map_append, List.take_append_drop]

/-- Whatever the limits, the pages of an unchanging view end, and hold its rows in order. -/
theorem walk_complete (serves : ∀ n, Serves key rowsOf render encode valid fetch view (limits n)) :
    ∃ count pages, Walk fetch none ((List.range count).map fun n => (view, limits n)) pages ∧
      pages.flatten = (ordered key (rowsOf view)).map (render view) := by
  have everything : remaining key (rowsOf view) none = ordered key (rowsOf view) := by simp [remaining]
  obtain ⟨count, pages, walk, whole⟩ := walk_from serves _ 0 none nofun rfl
  rw [everything] at whole
  refine ⟨count, pages, ?_, whole⟩
  simpa only [Nat.zero_add, Option.map_none] using walk

end Complete

section Stable
variable {ι : Type*} [DecidableEq ι] {name : β → ι} {ident : ρ → ι} {row : ρ}

/-- What is asked of a call in which other rows may have changed, but this one has not. -/
structure Shows (key : ρ → κ) (rowsOf : τ → List ρ) (render : τ → ρ → β) (encode : κ → γ) (valid : κ → Prop)
    (fetch : τ × Nat → Option γ → Option (List β × Option γ)) (ident : ρ → ι) (row : ρ) (call : τ × Nat) : Prop where
  serves : Serves key rowsOf render encode valid fetch call.1 call.2
  present : row ∈ rowsOf call.1
  single : ∀ other ∈ rowsOf call.1, ident other = ident row → other = row

theorem count_page (named : ∀ view row, name (render view row) = ident row) (view : τ) {rows : List ρ}
    (distinct : rows.Nodup) (single : ∀ other ∈ rows, ident other = ident row → other = row) [Decidable (row ∈ rows)] :
    (rows.map (render view)).countP (name · = ident row) = if row ∈ rows then 1 else 0 := by
  classical
  have counted : (rows.map (render view)).countP (name · = ident row) = rows.count row := by
    rw [List.countP_map, List.count]
    refine List.countP_congr fun other member => ?_
    simp only [Function.comp_apply, named, decide_eq_true_eq, beq_iff_eq]
    exact ⟨single other member, fun same => congrArg ident same⟩
  rw [counted]
  split
  next present => exact List.count_eq_one_of_mem distinct present
  next missing => exact List.count_eq_zero_of_not_mem missing

theorem page_rows_nodup {view : τ} (distinct : ((rowsOf view).map key).Nodup) (limit : Nat) (position : Option κ) :
    (page key (rowsOf view) limit position).rows.Nodup := by
  rw [page_rows]
  have strict := (remaining_strict distinct position).sublist (List.take_sublist limit _)
  refine strict.imp ?_
  rintro one two below rfl
  exact lt_irrefl _ below

/-- In a walk from a position, a row that stays is found once if it comes after the position. -/
theorem walk_counts (named : ∀ view row, name (render view row) = ident row) {cursor : Option γ} {calls : List (τ × Nat)}
    {pages : List (List β)} (walk : Walk fetch cursor calls pages)
    (shows : ∀ call ∈ calls, Shows key rowsOf render encode valid fetch ident row call) {position : Option κ}
    (begun : cursor = position.map encode) (fits : ∀ start ∈ position, valid start) :
    pages.flatten.countP (name · = ident row) = if After key position row then 1 else 0 := by
  classical
  have inPage : ∀ (call : τ × Nat) (position : Option κ), Shows key rowsOf render encode valid fetch ident row call →
      ((page key (rowsOf call.1) call.2 position).rows.map (render call.1)).countP (name · = ident row) =
        if row ∈ (page key (rowsOf call.1) call.2 position).rows then 1 else 0 := by
    intro call position shows
    refine count_page named call.1 (page_rows_nodup shows.serves.distinct call.2 position) ?_
    exact fun other member => shows.single other (mem_of_mem_page member).1
  induction walk generalizing position with
  | @last call cursor rows fetched =>
    have shows := shows call List.mem_cons_self
    rw [begun, shows.serves.answers position fits] at fetched
    obtain ⟨rfl, ends⟩ := Prod.mk.inj (Option.some.inj fetched)
    have ends := Option.map_eq_none_iff.mp ends
    rw [List.flatten_singleton, inPage call position shows, page_last ends shows.serves.positive]
    refine if_congr ?_ rfl rfl
    rw [mem_remaining]
    exact and_iff_right shows.present
  | @more call cursor rows next calls pages fetched rest ih =>
    have others := fun call member => shows call (List.mem_cons_of_mem _ member)
    have shows := shows call List.mem_cons_self
    rw [begun, shows.serves.answers position fits] at fetched
    obtain ⟨rfl, continues⟩ := Prod.mk.inj (Option.some.inj fetched)
    obtain ⟨start, given, rfl⟩ := Option.map_eq_some_iff.mp continues
    obtain ⟨⟨last, inside, reached⟩, below, above⟩ := page_split shows.serves.distinct given
    have beyond : After key (some start) row ↔ start < key row := by simp [After]
    have later : pages.flatten.countP (name · = ident row) = if After key (some start) row then 1 else 0 := by
      refine ih others rfl ?_
      rintro start ⟨⟩
      exact shows.serves.next_valid given
    rw [List.flatten_cons, List.countP_append, inPage call position shows, later]
    by_cases after : After key position row
    · rw [if_pos after]
      rcases mem_page_or_drop shows.present after with early | late
      · rw [if_pos early, if_neg (beyond.not.mpr (not_lt_of_ge (below row early)))]
      · have missing : row ∉ (page key (rowsOf call.1) call.2 position).rows :=
          fun early => absurd (below row early) (not_le_of_gt (above row late))
        rw [if_neg missing, if_pos (beyond.mpr (above row late))]
    · have missing : row ∉ (page key (rowsOf call.1) call.2 position).rows := fun early => after (mem_of_mem_page early).2
      have short : ¬ After key (some start) row := by
        rw [beyond]
        intro less
        refine after fun first given => ?_
        exact ((mem_of_mem_page inside).2 first given).trans (reached ▸ less)
      rw [if_neg after, if_neg missing, if_neg short]

/-- A row that stays is found exactly once, whatever happens to the others. -/
theorem walk_stable (named : ∀ view row, name (render view row) = ident row) {calls : List (τ × Nat)}
    {pages : List (List β)} (walk : Walk fetch none calls pages)
    (shows : ∀ call ∈ calls, Shows key rowsOf render encode valid fetch ident row call) :
    pages.flatten.countP (name · = ident row) = 1 := by
  have begun : (none : Option γ) = (none : Option κ).map encode := rfl
  rw [walk_counts named walk shows begun nofun]
  exact if_pos (after_none key row)

end Stable

end Walks

section Runs
variable {α : Type u} (rows : List α) (size : Nat)

/-- The run of a list with a number, counted from zero. -/
def run (index : Nat) : List α := (rows.drop (index * size)).take size

theorem take_runs (count : Nat) : (List.range count).flatMap (run rows size) = rows.take (count * size) := by
  induction count with
  | zero => simp
  | succ count ih =>
    rw [List.range_succ, List.flatMap_append, ih, List.flatMap_singleton, run, ← List.take_add, Nat.succ_mul]

theorem length_run (index : Nat) : (run rows size index).length = min size (rows.length - index * size) := by
  simp [run]

variable {size} (positive : 0 < size)
include positive

/-- A list is made of its runs. -/
theorem flatMap_run : (List.range ((rows.length + size - 1) / size)).flatMap (run rows size) = rows := by
  rw [take_runs]
  apply List.take_of_length_le
  have floor := Nat.div_add_mod (rows.length + size - 1) size
  have rest := Nat.mod_lt (rows.length + size - 1) positive
  rw [Nat.mul_comm] at floor
  omega

theorem run_filled {index : Nat} (inside : index < (rows.length + size - 1) / size) :
    0 < (run rows size index).length ∧ (run rows size index).length ≤ size := by
  have bound := (Nat.le_div_iff_mul_le positive).mp inside
  rw [Nat.succ_mul] at bound
  rw [length_run]
  omega

/-- Every run but the last is full. -/
theorem run_full {index : Nat} (inside : index + 1 < (rows.length + size - 1) / size) : (run rows size index).length = size := by
  have bound := (Nat.le_div_iff_mul_le positive).mp inside
  rw [Nat.succ_mul, Nat.succ_mul] at bound
  rw [length_run]
  omega

end Runs

end Dagmar.Library
