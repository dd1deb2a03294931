import Mathlib.Data.List.Sort
import Mathlib.Data.List.Pairwise

/-! Stable sorting and the pairing of consecutive entries. A sorted list is a
canonical form of the set of its entries, and it can be filtered before or after
sorting; pairs are taken two by two from the front. -/

namespace Dagmar.Library.Pairing

universe u
variable {α : Type u}

/-- Two entries of a list whose entries are related in order are one entry, or related one way or the other. -/
theorem pairwise_either {r : α → α → Prop} {items : List α} (related : items.Pairwise r) {first second : α}
    (member : first ∈ items) (member' : second ∈ items) : first = second ∨ r first second ∨ r second first := by
  have symmetric : Std.Symm fun left right : α => left = right ∨ r left right ∨ r right left := by
    refine ⟨fun left right either => ?_⟩
    rcases either with rfl | before | after
    · exact .inl rfl
    · exact .inr (.inr before)
    · exact .inr (.inl after)
  have either : items.Pairwise fun left right => left = right ∨ r left right ∨ r right left :=
    related.imp fun before => .inr (.inl before)
  exact either.forall_of_forall (fun _ _ => .inl rfl) member member'

section Sorting
variable (r : α → α → Prop) [DecidableRel r]

/-- Sorting and filtering commute. -/
theorem filter_orderedInsert [IsTrans α r] (p : α → Bool) (item : α) (items : List α) (sorted : items.Pairwise r) :
    (items.orderedInsert r item).filter p =
      if p item then (items.filter p).orderedInsert r item else items.filter p := by
  induction items with
  | nil => by_cases kept : p item <;> simp [kept]
  | cons first items ih =>
    obtain ⟨below, rest⟩ := List.pairwise_cons.mp sorted
    rw [List.orderedInsert_cons]
    split
    next before =>
      -- Everything after `first` is also after `item`, so `item` heads both sides.
      have heads : ∀ entry ∈ (first :: items).filter p, r item entry := by
        intro entry member
        rcases List.mem_cons.mp (List.mem_filter.mp member).1 with rfl | inside
        · exact before
        · exact IsTrans.trans _ _ _ before (below entry inside)
      by_cases kept : p item
      · rw [if_pos kept, List.filter_cons_of_pos kept]
        cases shape : (first :: items).filter p with
        | nil => rfl
        | cons head tail => rw [List.orderedInsert_cons_of_le r tail (heads head (by simp [shape]))]
      · rw [if_neg kept, List.filter_cons_of_neg kept]
    next after =>
      have ih := ih rest
      by_cases kept : p first <;> by_cases inserted : p item <;>
        simp_all

theorem filter_insertionSort [IsTrans α r] [Std.Total r] (p : α → Bool) (items : List α) :
    (items.insertionSort r).filter p = (items.filter p).insertionSort r := by
  induction items with
  | nil => rfl
  | cons item items ih =>
    rw [List.insertionSort_cons, filter_orderedInsert r p item _ (List.pairwise_insertionSort r items), ih]
    by_cases kept : p item <;> simp [kept]

/-- Lists with the same entries, none of them twice, sort to the same list. -/
theorem insertionSort_congr [IsTrans α r] [Std.Total r] {first second : List α}
    (distinct : first.Nodup) (distinct' : second.Nodup) (same : ∀ item, item ∈ first ↔ item ∈ second)
    (antisymm : ∀ left ∈ first, ∀ right ∈ first, r left right → r right left → left = right) :
    first.insertionSort r = second.insertionSort r := by
  have perm : first.Perm second := (List.perm_ext_iff_of_nodup distinct distinct').mpr same
  have sorted := List.pairwise_insertionSort r first
  have sorted' := List.pairwise_insertionSort r second
  apply List.Perm.eq_of_pairwise _ sorted sorted'
  · exact (List.perm_insertionSort r first).trans (perm.trans (List.perm_insertionSort r second).symm)
  · intro left right inFirst inSecond
    exact antisymm left (by simpa using inFirst) right (by simpa [same] using inSecond)

/-- The head of a sorted list comes before all its entries. -/
theorem head_insertionSort [IsTrans α r] [Std.Total r] {items : List α} (filled : items ≠ []) :
    ∃ least ∈ items, (items.insertionSort r).head? = some least ∧ ∀ item ∈ items, r least item := by
  have sorted := List.pairwise_insertionSort r items
  have perm := List.perm_insertionSort r items
  cases shape : items.insertionSort r with
  | nil =>
    rw [shape] at perm
    exact absurd perm.symm.eq_nil filled
  | cons least rest =>
    rw [shape] at perm sorted
    rw [List.pairwise_cons] at sorted
    refine ⟨least, perm.mem_iff.mp List.mem_cons_self, rfl, ?_⟩
    intro item member
    rcases List.mem_cons.mp (perm.mem_iff.mpr member) with rfl | later
    · exact (Std.Total.total (r := r) item item).elim id id
    · exact sorted.1 item later

end Sorting

/-- A sorted list is what any of its permutations sorts to. -/
theorem insertionSort_eq_of_perm {items sorted : List Int} (perm : sorted.Perm items) (ascending : sorted.Pairwise (· ≤ ·)) :
    items.insertionSort (· ≤ ·) = sorted := by
  apply List.Perm.eq_of_pairwise (fun _ _ _ _ => le_antisymm) (List.pairwise_insertionSort _ _) ascending
  exact (List.perm_insertionSort _ _).trans perm.symm

/-- Entries one and two, three and four, and so on; an odd last entry is left out. -/
def pairUp : List α → List (α × α)
  | first :: second :: rest => (first, second) :: pairUp rest
  | _ => []

@[simp] theorem pairUp_nil : pairUp ([] : List α) = [] := rfl
@[simp] theorem pairUp_singleton (item : α) : pairUp [item] = [] := rfl
@[simp] theorem pairUp_cons_cons (first second : α) (rest : List α) :
    pairUp (first :: second :: rest) = (first, second) :: pairUp rest := rfl

theorem pairUp_map {β : Type*} (f : α → β) (items : List α) :
    pairUp (items.map f) = (pairUp items).map fun pair => (f pair.1, f pair.2) := by
  induction items using pairUp.induct with
  | case1 first second rest ih => simp [ih]
  | case2 items shape =>
    match items, shape with
    | [], _ => rfl
    | [item], _ => rfl
    | first :: second :: rest, shape => exact absurd rfl (shape first second rest)

/-- An even number of entries is paired up among itself. -/
theorem pairUp_append {front : List α} (back : List α) (even : front.length % 2 = 0) :
    pairUp (front ++ back) = pairUp front ++ pairUp back := by
  induction front using pairUp.induct with
  | case1 first second rest ih =>
    have shorter : rest.length % 2 = 0 := by
      simp only [List.length_cons] at even
      omega
    simp [ih shorter]
  | case2 items shape =>
    match items, shape with
    | [], _ => rfl
    | [item], _ => simp at even
    | first :: second :: rest, shape => exact absurd rfl (shape first second rest)

theorem pairUp_head? {items : List α} (even : items.length % 2 = 0) :
    (pairUp items).head?.map Prod.fst = items.head? := by
  match items, even with
  | [], _ => rfl
  | [item], odd => simp at odd
  | first :: second :: rest, _ => rfl

theorem pairUp_getLast? {items : List α} (even : items.length % 2 = 0) :
    (pairUp items).getLast?.map Prod.snd = items.getLast? := by
  induction items using pairUp.induct with
  | case1 first second rest ih =>
    have shorter : rest.length % 2 = 0 := by
      simp only [List.length_cons] at even
      omega
    rw [pairUp_cons_cons, List.getLast?_cons, List.getLast?_cons, List.getLast?_cons, ← ih shorter]
    cases (pairUp rest).getLast? <;> rfl
  | case2 items shape =>
    match items, shape with
    | [], _ => rfl
    | [item], _ => simp at even
    | first :: second :: rest, shape => exact absurd rfl (shape first second rest)

theorem mem_of_mem_pairUp {items : List α} {pair : α × α} (member : pair ∈ pairUp items) :
    pair.1 ∈ items ∧ pair.2 ∈ items := by
  induction items using pairUp.induct with
  | case1 first second rest ih =>
    rcases List.mem_cons.mp member with rfl | inside
    · simp
    · have := ih inside
      simp [this]
  | case2 items shape =>
    rw [pairUp] at member
    · cases member
    · exact shape

/-- In a sorted list nothing stands between the two entries of a pair. -/
theorem pairUp_adjacent {r : α → α → Prop} {items : List α} (sorted : items.Pairwise r) {pair : α × α}
    (member : pair ∈ pairUp items) {item : α} (inside : item ∈ items) :
    item = pair.1 ∨ item = pair.2 ∨ r item pair.1 ∨ r pair.2 item := by
  induction items using pairUp.induct with
  | case1 first second rest ih =>
    obtain ⟨below, sorted⟩ := List.pairwise_cons.mp sorted
    obtain ⟨below', sorted⟩ := List.pairwise_cons.mp sorted
    rw [pairUp_cons_cons, List.mem_cons] at member
    rw [List.mem_cons, List.mem_cons] at inside
    rcases member with rfl | member
    · rcases inside with same | same | inside
      · exact .inl same
      · exact .inr (.inl same)
      · exact .inr (.inr (.inr (below' item inside)))
    · have ends := (mem_of_mem_pairUp member).1
      rcases inside with rfl | rfl | inside
      · exact .inr (.inr (.inl (below _ (List.mem_cons_of_mem _ ends))))
      · exact .inr (.inr (.inl (below' _ ends)))
      · exact ih sorted member inside
  | case2 items shape =>
    rw [pairUp] at member
    · cases member
    · exact shape

/-- The pairs of an ascending list follow one another. -/
theorem pairUp_pairwise {items : List Int} (ascending : items.Pairwise (· < ·)) :
    (pairUp items).Pairwise fun left right => left.2 < right.1 := by
  induction items using pairUp.induct with
  | case1 first second rest ih =>
    obtain ⟨-, ascending⟩ := List.pairwise_cons.mp ascending
    obtain ⟨below, ascending⟩ := List.pairwise_cons.mp ascending
    rw [pairUp_cons_cons, List.pairwise_cons]
    exact ⟨fun pair member => below _ (mem_of_mem_pairUp member).1, ih ascending⟩
  | case2 items shape =>
    rw [pairUp]
    · exact List.Pairwise.nil
    · exact shape

theorem pairUp_below {items : List Int} (ascending : items.Pairwise (· < ·)) {pair : Int × Int}
    (member : pair ∈ pairUp items) : pair.1 < pair.2 := by
  induction items using pairUp.induct with
  | case1 first second rest ih =>
    obtain ⟨below, ascending⟩ := List.pairwise_cons.mp ascending
    rcases List.mem_cons.mp member with rfl | member
    · exact below _ List.mem_cons_self
    · exact ih (List.pairwise_cons.mp ascending).2 member
  | case2 items shape =>
    rw [pairUp] at member
    · cases member
    · exact shape

/-- The entries of a list strictly between two others, in order. -/
def between (inserted : List Int) (pair : Int × Int) : List Int :=
  (inserted.filter fun item => pair.1 < item ∧ item < pair.2).insertionSort (· ≤ ·)

/-- The pairs that a pair falls into when entries are inserted between its two. -/
def cutPair (inserted : List Int) (pair : Int × Int) : List (Int × Int) :=
  pairUp (pair.1 :: between inserted pair ++ [pair.2])

@[simp] theorem mem_between {inserted : List Int} {pair : Int × Int} {item : Int} :
    item ∈ between inserted pair ↔ item ∈ inserted ∧ pair.1 < item ∧ item < pair.2 := by
  simp [between]

/-- Entries beyond a bound are all that count for a pair beyond it. -/
theorem between_filter {inserted : List Int} {pair : Int × Int} {bound : Int} (beyond : bound < pair.1) :
    between (inserted.filter (bound < ·)) pair = between inserted pair := by
  rw [between, between, List.filter_filter]
  congr 1
  apply List.filter_congr
  intro item _
  rw [← Bool.decide_and, decide_eq_decide]
  exact ⟨fun both => both.1, fun both => ⟨both, by omega⟩⟩

/-- Entries that fall between the two of a pair, an even number into each, cut every pair by itself. -/
theorem pairUp_insert {items inserted : List Int} (ascending : items.Pairwise (· < ·))
    (inside : ∀ item ∈ inserted, ∃ pair ∈ pairUp items, pair.1 < item ∧ item < pair.2)
    (even : ∀ pair ∈ pairUp items, (between inserted pair).length % 2 = 0) :
    pairUp ((items ++ inserted).insertionSort (· ≤ ·)) = (pairUp items).flatMap (cutPair inserted) := by
  induction items using pairUp.induct generalizing inserted with
  | case1 first second rest ih =>
    obtain ⟨below, ascending⟩ := List.pairwise_cons.mp ascending
    obtain ⟨below', ascending⟩ := List.pairwise_cons.mp ascending
    have order : first < second := below second List.mem_cons_self
    have beyond (pair : Int × Int) (member : pair ∈ pairUp rest) : second < pair.1 :=
      below' _ (mem_of_mem_pairUp member).1
    -- What is inserted falls into the first pair or comes after it.
    have early : inserted.filter (fun item => !decide (second < item)) =
        inserted.filter fun item => first < item ∧ item < second := by
      apply List.filter_congr
      intro item member
      obtain ⟨pair, listed, bounds⟩ := inside item member
      rw [← decide_not, decide_eq_decide]
      rcases List.mem_cons.mp listed with rfl | listed
      · exact iff_of_true (by omega) bounds
      · have := beyond pair listed
        exact iff_of_false (by omega) (by omega)
    have sorted : (first :: second :: rest ++ inserted).insertionSort (· ≤ ·) =
        (first :: between inserted (first, second) ++ [second]) ++
          (rest ++ inserted.filter (second < ·)).insertionSort (· ≤ ·) := by
      apply insertionSort_eq_of_perm
      · have split : (inserted.filter (second < ·) ++ inserted.filter fun item => first < item ∧ item < second).Perm
            inserted := early ▸ List.filter_append_perm _ _
        have head : (between inserted (first, second)).Perm (inserted.filter fun item => first < item ∧ item < second) :=
          List.perm_insertionSort _ _
        refine (((head.cons first).append_right [second]).append (List.perm_insertionSort _ _)).trans ?_
        refine List.Perm.trans ?_ (split.append_left (first :: second :: rest))
        rw [List.perm_iff_count]
        intro item
        simp only [List.count_append, List.count_cons, List.count_nil]
        omega
      · have above (item : Int) (member : item ∈ (rest ++ inserted.filter (second < ·)).insertionSort (· ≤ ·)) :
            second < item := by
          rw [List.mem_insertionSort, List.mem_append, List.mem_filter, decide_eq_true_eq] at member
          rcases member with member | member
          · exact below' item member
          · exact member.2
        simp only [List.cons_append, List.pairwise_cons, List.pairwise_append, List.mem_append,
          List.append_assoc, List.nil_append, List.mem_cons, mem_between]
        refine ⟨?_, List.pairwise_insertionSort _ _, ⟨?_, List.pairwise_insertionSort _ _⟩, ?_⟩
        · rintro item (⟨-, bounds⟩ | rfl | member)
          · omega
          · omega
          · have := above item member
            omega
        · intro item member
          exact (above item member).le
        · rintro item ⟨-, bounds⟩ other (rfl | member)
          · omega
          · have := above other member
            omega
    have later : ∀ item ∈ inserted.filter (second < ·), ∃ pair ∈ pairUp rest, pair.1 < item ∧ item < pair.2 := by
      intro item member
      rw [List.mem_filter, decide_eq_true_eq] at member
      obtain ⟨pair, listed, bounds⟩ := inside item member.1
      rcases List.mem_cons.mp listed with rfl | listed
      · omega
      · exact ⟨pair, listed, bounds⟩
    have count : (first :: between inserted (first, second) ++ [second]).length % 2 = 0 := by
      have := even (first, second) List.mem_cons_self
      simp only [List.length_append, List.length_cons, List.length_nil]
      omega
    rw [sorted, pairUp_append _ count, ih ascending later]
    · rw [pairUp_cons_cons, List.flatMap_cons]
      congr 1
      apply List.flatMap_congr
      intro pair member
      rw [cutPair, cutPair, between_filter (beyond pair member)]
    · intro pair member
      rw [between_filter (beyond pair member)]
      exact even pair (List.mem_cons_of_mem _ member)
  | case2 items shape =>
    have none : pairUp items = [] := by rw [pairUp]; exact shape
    have nothing : inserted = [] := by
      apply List.eq_nil_iff_forall_not_mem.mpr
      intro item member
      obtain ⟨pair, listed, -⟩ := inside item member
      rw [none] at listed
      cases listed
    have same : items.insertionSort (· ≤ ·) = items :=
      List.Pairwise.insertionSort_eq (ascending.imp le_of_lt)
    rw [nothing, List.append_nil, same, none, List.flatMap_nil]

section Places

/-- A pair stands together after an even number of entries. -/
theorem mem_pairUp_iff {items : List α} {pair : α × α} :
    pair ∈ pairUp items ↔ ∃ front back, items = front ++ pair.1 :: pair.2 :: back ∧ front.length % 2 = 0 := by
  constructor
  · intro member
    induction items using pairUp.induct with
    | case1 first second rest ih =>
      rcases List.mem_cons.mp member with rfl | member
      · exact ⟨[], rest, rfl, rfl⟩
      · obtain ⟨front, back, rfl, even⟩ := ih member
        refine ⟨first :: second :: front, back, rfl, ?_⟩
        simp only [List.length_cons]
        omega
    | case2 items shape =>
      rw [pairUp] at member
      · cases member
      · exact shape
  · rintro ⟨front, back, rfl, even⟩
    rw [pairUp_append _ even, pairUp_cons_cons]
    exact List.mem_append_right _ List.mem_cons_self

theorem length_pairUp (items : List α) : (pairUp items).length = items.length / 2 := by
  induction items using pairUp.induct with
  | case1 first second rest ih =>
    rw [pairUp_cons_cons, List.length_cons, ih]
    simp only [List.length_cons]
    omega
  | case2 items shape =>
    match items, shape with
    | [], _ => simp
    | [item], _ => simp
    | first :: second :: rest, shape => exact absurd rfl (shape first second rest)

theorem pairUp_nodup {items : List α} (distinct : items.Nodup) : (pairUp items).Nodup := by
  induction items using pairUp.induct with
  | case1 first second rest ih =>
    obtain ⟨fresh, distinct⟩ := List.nodup_cons.mp distinct
    obtain ⟨-, distinct⟩ := List.nodup_cons.mp distinct
    rw [pairUp_cons_cons, List.nodup_cons]
    refine ⟨?_, ih distinct⟩
    intro member
    exact fresh (List.mem_cons_of_mem _ (mem_of_mem_pairUp member).1)
  | case2 items shape =>
    rw [pairUp]
    · exact List.nodup_nil
    · exact shape

/-- No entry is in two pairs. -/
theorem pairUp_shared {items : List α} (distinct : items.Nodup) {left right : α × α} (first : left ∈ pairUp items)
    (second : right ∈ pairUp items)
    (shared : left.1 = right.1 ∨ left.1 = right.2 ∨ left.2 = right.1 ∨ left.2 = right.2) : left = right := by
  induction items using pairUp.induct with
  | case1 head next rest ih =>
    have inRest := @mem_of_mem_pairUp _ rest
    obtain ⟨fresh, distinct⟩ := List.nodup_cons.mp distinct
    obtain ⟨fresh', distinct⟩ := List.nodup_cons.mp distinct
    have ih := ih distinct
    rw [pairUp_cons_cons] at first second
    grind
  | case2 items shape =>
    rw [pairUp] at first
    · cases first
    · exact shape

/-- Every entry is in a pair, except the last one of an odd number. -/
theorem pairUp_covers {items : List α} (distinct : items.Nodup) {item : α} (member : item ∈ items) :
    (∃ pair ∈ pairUp items, item = pair.1 ∨ item = pair.2) ↔ ¬ (items.length % 2 = 1 ∧ items.getLast? = some item) := by
  induction items using pairUp.induct with
  | case1 first second rest ih =>
    have fresh := List.nodup_append.mp (show ([first, second] ++ rest).Nodup from distinct)
    have parity : (first :: second :: rest).length % 2 = rest.length % 2 := by
      simp only [List.length_cons]
      omega
    rw [pairUp_cons_cons, parity]
    by_cases inside : item ∈ rest
    · have ends : (first :: second :: rest).getLast? = rest.getLast? := by
        obtain ⟨head, tail, rfl⟩ := List.exists_cons_of_ne_nil (List.ne_nil_of_mem inside)
        rw [List.getLast?_cons_cons, List.getLast?_cons_cons]
      have others : item ≠ first ∧ item ≠ second :=
        ⟨fun same => fresh.2.2 first (by simp) item inside same.symm, fun same => fresh.2.2 second (by simp) item inside same.symm⟩
      rw [ends, ← ih fresh.2.1 inside, List.exists_mem_cons_iff]
      exact or_iff_right fun either => either.elim others.1 others.2
    · have head : item = first ∨ item = second := by
        simpa [inside] using member
      refine iff_of_true ⟨(first, second), List.mem_cons_self, head⟩ ?_
      intro last
      cases rest with
      | nil => simp at last
      | cons next rest =>
        obtain ⟨-, last⟩ := last
        rw [List.getLast?_cons_cons, List.getLast?_cons_cons] at last
        exact inside (List.mem_of_getLast? last)
  | case2 items shape =>
    match items, shape with
    | [], _ => cases member
    | [other], _ =>
      obtain rfl := List.mem_singleton.mp member
      simp
    | first :: second :: rest, shape => exact absurd rfl (shape first second rest)

/-- The last entry of an ascending list is the greatest one. -/
theorem getLast?_greatest {β : Type*} [LinearOrder β] {f : α → β} {items : List α}
    (ascending : items.Pairwise fun left right => f left < f right) {item : α} (member : item ∈ items) :
    items.getLast? = some item ↔ ∀ other ∈ items, f other ≤ f item := by
  obtain ⟨front, back, rfl⟩ := List.append_of_mem member
  obtain ⟨-, rest, ahead⟩ := List.pairwise_append.mp ascending
  cases back with
  | nil =>
    refine iff_of_true (by simp) ?_
    intro other inside
    rcases List.mem_append.mp inside with before | same
    · exact (ahead other before item (by simp)).le
    · rw [List.mem_singleton.mp same]
  | cons next back =>
    have after := (List.pairwise_cons.mp rest).1
    refine iff_of_false ?_ fun greatest => absurd (greatest next (by simp)) (not_le.mpr (after next (by simp)))
    intro last
    rw [List.getLast?_append, List.getLast?_cons_cons] at last
    have inside : item ∈ next :: back := List.mem_of_getLast? (by simpa using last)
    exact lt_irrefl _ (after item inside)

end Places

section Neighbours
variable {s : α → α → Prop} {items : List α}

/-- Two entries, one before the other, with nothing between them. -/
structure Neighbours (s : α → α → Prop) (items : List α) (left right : α) : Prop where
  inLeft : left ∈ items
  inRight : right ∈ items
  below : s left right
  together : ∀ item ∈ items, item = left ∨ item = right ∨ s item left ∨ s right item

theorem neighbours_of_append {front back : List α} {left right : α} (sorted : (front ++ left :: right :: back).Pairwise s) :
    Neighbours s (front ++ left :: right :: back) left right := by
  obtain ⟨-, rest, ahead⟩ := List.pairwise_append.mp sorted
  obtain ⟨first, rest⟩ := List.pairwise_cons.mp rest
  have second := (List.pairwise_cons.mp rest).1
  refine ⟨by simp, by simp, first _ List.mem_cons_self, ?_⟩
  intro item inside
  simp only [List.mem_append, List.mem_cons] at inside
  rcases inside with inside | same | same | inside
  · exact .inr (.inr (.inl (ahead item inside _ List.mem_cons_self)))
  · exact .inl same
  · exact .inr (.inl same)
  · exact .inr (.inr (.inr (second item inside)))

variable [Std.Asymm s]

theorem Neighbours.append (sorted : items.Pairwise s) {left right : α} (neighbours : Neighbours s items left right) :
    ∃ front back, items = front ++ left :: right :: back := by
  have asymm {left right : α} (below : s left right) : ¬ s right left := Std.Asymm.asymm _ _ below
  obtain ⟨first, second, below, together⟩ := neighbours
  obtain ⟨front, rest, rfl⟩ := List.append_of_mem first
  obtain ⟨-, tail, ahead⟩ := List.pairwise_append.mp sorted
  obtain ⟨above, tail⟩ := List.pairwise_cons.mp tail
  have inRest : right ∈ rest := by
    rcases List.mem_append.mp second with member | member
    · exact absurd below (asymm (ahead _ member _ List.mem_cons_self))
    · rcases List.mem_cons.mp member with same | member
      · rw [same] at below
        exact absurd below (asymm below)
      · exact member
  cases rest with
  | nil => cases inRest
  | cons next rest =>
    refine ⟨front, rest, ?_⟩
    rcases List.mem_cons.mp inRest with same | later
    · rw [same]
    · have nextFirst := above next List.mem_cons_self
      have beyond := (List.pairwise_cons.mp tail).1 _ later
      rcases together next (by simp) with same | same | early | late
      · rw [same] at nextFirst
        exact absurd nextFirst (asymm nextFirst)
      · rw [same]
      · exact absurd nextFirst (asymm early)
      · exact absurd beyond (asymm late)

/-- An entry has one next neighbour at most. -/
theorem Neighbours.unique {left right other : α} (neighbours : Neighbours s items left right)
    (neighbours' : Neighbours s items left other) : right = other := by
  have asymm {left right : α} (below : s left right) : ¬ s right left := Std.Asymm.asymm _ _ below
  rcases neighbours.together other neighbours'.inRight with rfl | same | before | after
  · exact absurd neighbours'.below (asymm neighbours'.below)
  · exact same.symm
  · exact absurd neighbours'.below (asymm before)
  · rcases neighbours'.together right neighbours.inRight with rfl | same | before' | after'
    · exact absurd neighbours.below (asymm neighbours.below)
    · exact same
    · exact absurd neighbours.below (asymm before')
    · exact absurd after (asymm after')

/-- Only the last entry has no next neighbour. -/
theorem exists_neighbour (sorted : items.Pairwise s) {left other : α} (inLeft : left ∈ items) (inOther : other ∈ items)
    (below : s left other) : ∃ right, Neighbours s items left right := by
  obtain ⟨front, back, rfl⟩ := List.append_of_mem inLeft
  cases back with
  | nil =>
    have ahead := (List.pairwise_append.mp sorted).2.2
    rcases List.mem_append.mp inOther with earlier | same
    · exact absurd below (Std.Asymm.asymm _ _ (ahead other earlier left List.mem_cons_self))
    · rw [List.mem_singleton.mp same] at below
      exact absurd below (Std.Asymm.asymm _ _ below)
  | cons right back => exact ⟨right, neighbours_of_append sorted⟩

/-- What stands before an entry is what the order puts before it. -/
theorem countP_before [DecidableRel s] {front back : List α} {item : α} (sorted : (front ++ item :: back).Pairwise s) :
    (front ++ item :: back).countP (s · item) = front.length := by
  have asymm {left right : α} (below : s left right) : ¬ s right left := Std.Asymm.asymm _ _ below
  obtain ⟨-, rest, below⟩ := List.pairwise_append.mp sorted
  have above := (List.pairwise_cons.mp rest).1
  have all : front.countP (s · item) = front.length :=
    List.countP_eq_length.mpr fun other member => decide_eq_true (below other member item List.mem_cons_self)
  have none : back.countP (s · item) = 0 :=
    List.countP_eq_zero.mpr fun other member => by simpa using asymm (above other member)
  have self : ¬ s item item := fun below => asymm below below
  rw [List.countP_append, all, List.countP_cons, none, decide_eq_false self]
  rfl

/-- In a strictly sorted list two entries are a pair when nothing stands between them and the number of
entries before them is even. -/
theorem mem_pairUp_strict [DecidableRel s] (sorted : items.Pairwise s)
    {pair : α × α} : pair ∈ pairUp items ↔ pair.1 ∈ items ∧ pair.2 ∈ items ∧ s pair.1 pair.2 ∧
      (∀ item ∈ items, item = pair.1 ∨ item = pair.2 ∨ s item pair.1 ∨ s pair.2 item) ∧
      items.countP (s · pair.1) % 2 = 0 := by
  constructor
  · intro member
    obtain ⟨front, back, rfl, even⟩ := mem_pairUp_iff.mp member
    obtain ⟨first, second, below, together⟩ := neighbours_of_append sorted
    exact ⟨first, second, below, together, (countP_before sorted).symm ▸ even⟩
  · rintro ⟨first, second, below, together, even⟩
    obtain ⟨front, back, rfl⟩ := Neighbours.append sorted ⟨first, second, below, together⟩
    exact mem_pairUp_iff.mpr ⟨front, back, rfl, (countP_before sorted).symm ▸ even⟩

/-- Every entry with its successor. -/
theorem mem_zip_tail (sorted : items.Pairwise s) {left right : α} :
    (left, right) ∈ items.zip items.tail ↔ Neighbours s items left right := by
  have places : (left, right) ∈ items.zip items.tail ↔ ∃ front back, items = front ++ left :: right :: back := by
    clear sorted
    induction items with
    | nil => simp
    | cons first rest ih =>
      cases rest with
      | nil =>
        constructor
        · intro member
          cases member
        · rintro ⟨front, back, shape⟩
          have length := congrArg List.length shape
          simp only [List.length_cons, List.length_nil, List.length_append] at length
          omega
      | cons second rest =>
        rw [List.tail_cons, List.zip_cons_cons, List.mem_cons]
        rw [List.tail_cons] at ih
        constructor
        · rintro (same | later)
          · cases same
            exact ⟨[], rest, rfl⟩
          · obtain ⟨front, back, shape⟩ := ih.mp later
            exact ⟨first :: front, back, congrArg (first :: ·) shape⟩
        · rintro ⟨front, back, shape⟩
          cases front with
          | nil =>
            cases shape
            exact .inl rfl
          | cons head front =>
            injection shape with _ shape
            exact .inr (ih.mpr ⟨front, back, shape⟩)
  rw [places]
  constructor
  · rintro ⟨front, back, rfl⟩
    exact neighbours_of_append sorted
  · exact Neighbours.append sorted

end Neighbours

section Removal
variable {s : α → α → Prop} [Std.Asymm s] {items : List α}

/-- A pair outlives a removal that spares it exactly when an even number of entries before it goes. -/
theorem mem_pairUp_filter [DecidableRel s] (sorted : items.Pairwise s) (p : α → Bool) {pair : α × α}
    (member : pair ∈ pairUp items) (spared : p pair.1 = true ∧ p pair.2 = true) :
    pair ∈ pairUp (items.filter p) ↔ items.countP (fun item => decide (s item pair.1) && !p item) % 2 = 0 := by
  obtain ⟨first, second, below, together, even⟩ := (mem_pairUp_strict sorted).mp member
  have split : items.countP (s · pair.1) = (items.filter p).countP (s · pair.1) +
      items.countP (fun item => decide (s item pair.1) && !p item) := by
    rw [List.countP_filter, List.countP_eq_countP_filter_add _ _ p]
    simp only [List.countP_filter]
  rw [mem_pairUp_strict (sorted.filter p)]
  constructor
  · rintro ⟨-, -, -, -, kept⟩
    omega
  · intro removed
    refine ⟨List.mem_filter.mpr ⟨first, spared.1⟩, List.mem_filter.mpr ⟨second, spared.2⟩, below, ?_, by omega⟩
    exact fun item inside => together item (List.mem_of_mem_filter inside)

/-- Two neighbours removed: a pair they made is gone, and two pairs they belonged to become one. -/
theorem mem_pairUp_removed {front back : List α} {left right : α} (distinct : (front ++ left :: right :: back).Nodup)
    {pair : α × α} : pair ∈ pairUp (front ++ back) ↔
      (pair ∈ pairUp (front ++ left :: right :: back) ∧ pair.1 ≠ left ∧ pair.1 ≠ right ∧ pair.2 ≠ left ∧ pair.2 ≠ right) ∨
      ((pair.1, left) ∈ pairUp (front ++ left :: right :: back) ∧ (right, pair.2) ∈ pairUp (front ++ left :: right :: back)) := by
  obtain ⟨first, second⟩ := pair
  rcases Nat.mod_two_eq_zero_or_one front.length with even | odd
  · rw [pairUp_append _ even, pairUp_append _ even, pairUp_cons_cons]
    have inFront := @mem_of_mem_pairUp _ front
    have inBack := @mem_of_mem_pairUp _ back
    grind
  · -- The last entry of an odd front is paired with the first of the two.
    obtain ⟨init, last, rfl⟩ : ∃ init last, front = init ++ [last] := by
      rcases List.eq_nil_or_concat front with rfl | found
      · simp at odd
      · simpa using found
    have even : init.length % 2 = 0 := by
      simp only [List.length_append, List.length_cons, List.length_nil] at odd
      omega
    have inInit := @mem_of_mem_pairUp _ init
    simp only [List.append_assoc, List.cons_append, List.nil_append] at distinct ⊢
    rw [pairUp_append _ even, pairUp_append _ even, pairUp_cons_cons]
    cases back with
    | nil =>
      simp only [pairUp_singleton]
      grind
    | cons next back =>
      have inBack := @mem_of_mem_pairUp _ back
      rw [pairUp_cons_cons, pairUp_cons_cons]
      grind

theorem filter_removed {front back : List α} {left right : α} (distinct : (front ++ left :: right :: back).Nodup)
    {p : α → Bool} (removes : ∀ item ∈ front ++ left :: right :: back, p item = true ↔ item ≠ left ∧ item ≠ right) :
    (front ++ left :: right :: back).filter p = front ++ back := by
  obtain ⟨-, rest, apart⟩ := List.nodup_append.mp distinct
  obtain ⟨fresh, rest⟩ := List.nodup_cons.mp rest
  have fresh' := (List.nodup_cons.mp rest).1
  have gone : p left = false ∧ p right = false := by
    have first := removes left (by simp)
    have second := removes right (by simp)
    simp at first second
    exact ⟨first, second⟩
  have inFront : front.filter p = front := by
    refine List.filter_eq_self.mpr fun item member => ?_
    refine (removes item (List.mem_append_left _ member)).mpr ⟨?_, ?_⟩
    · exact apart item member left (by simp)
    · exact apart item member right (by simp)
  have inBack : back.filter p = back := by
    refine List.filter_eq_self.mpr fun item member => ?_
    refine (removes item (by simp [member])).mpr ⟨?_, ?_⟩
    · rintro rfl
      exact fresh (List.mem_cons_of_mem _ member)
    · rintro rfl
      exact fresh' member
  rw [List.filter_append, inFront, List.filter_cons_of_neg (by simp [gone]), List.filter_cons_of_neg (by simp [gone]), inBack]

end Removal

section Merging
variable {all old new : List Int}

/-- Among an even number of entries every one is in a pair. -/
theorem pairUp_partner {α : Type} {items : List α} (even : items.length % 2 = 0) {item : α} (member : item ∈ items) :
    ∃ pair ∈ pairUp items, item = pair.1 ∨ item = pair.2 := by
  induction items using pairUp.induct with
  | case1 first second rest ih =>
    simp only [List.length_cons] at even
    rcases List.mem_cons.mp member with rfl | member
    · exact ⟨_, List.mem_cons_self, .inl rfl⟩
    · rcases List.mem_cons.mp member with rfl | member
      · exact ⟨_, List.mem_cons_self, .inr rfl⟩
      · obtain ⟨pair, listed, ends⟩ := ih (by omega) member
        exact ⟨pair, List.mem_cons_of_mem _ listed, ends⟩
  | case2 items shape =>
    match items, shape with
    | [], _ => cases member
    | [item], _ => simp at even
    | first :: second :: rest, shape => exact absurd rfl (shape first second rest)

/-- A point that an odd number of an even number of entries come before is in one of their pairs. -/
theorem pairUp_around {items : List Int} (ascending : items.Pairwise (· < ·)) (even : items.length % 2 = 0) {point : Int}
    (odd : items.countP (· < point) % 2 = 1) : ∃ pair ∈ pairUp items, pair.1 < point ∧ point ≤ pair.2 := by
  induction items using pairUp.induct with
  | case1 first second rest ih =>
    obtain ⟨below, ascending⟩ := List.pairwise_cons.mp ascending
    obtain ⟨below', ascending⟩ := List.pairwise_cons.mp ascending
    have order := below second List.mem_cons_self
    simp only [List.length_cons] at even
    by_cases inside : first < point ∧ point ≤ second
    · exact ⟨_, List.mem_cons_self, inside⟩
    · by_cases ahead : second < point
      · have rest' : rest.countP (· < point) % 2 = 1 := by
          rw [List.countP_cons_of_pos (by simp; omega), List.countP_cons_of_pos (by simpa using ahead)] at odd
          omega
        obtain ⟨pair, listed, bounds⟩ := ih ascending (by omega) rest'
        exact ⟨pair, List.mem_cons_of_mem _ listed, bounds⟩
      · have none : (first :: second :: rest).countP (· < point) = 0 := by
          rw [List.countP_eq_zero]
          intro item member
          rw [decide_eq_true_eq]
          rcases List.mem_cons.mp member with rfl | member
          · omega
          · rcases List.mem_cons.mp member with rfl | member
            · omega
            · have := below' item member
              omega
        omega
  | case2 items shape =>
    match items, shape with
    | [], _ => simp at odd
    | [item], _ => simp at even
    | first :: second :: rest, shape => exact absurd rfl (shape first second rest)

/-- Up to a point with nothing since an entry, it is one entry more than before that entry. -/
theorem countP_next {items : List Int} (ascending : items.Pairwise (· < ·)) {item point : Int} (member : item ∈ items)
    (before : item < point) (together : ∀ other ∈ items, other ≤ item ∨ point ≤ other) :
    items.countP (· < point) = items.countP (· < item) + 1 := by
  obtain ⟨front, back, rfl⟩ := List.append_of_mem member
  rw [countP_before ascending]
  obtain ⟨-, rest, ahead⟩ := List.pairwise_append.mp ascending
  have above := (List.pairwise_cons.mp rest).1
  have every : front.countP (· < point) = front.length := by
    rw [List.countP_eq_length]
    intro other inside
    have := ahead other inside item List.mem_cons_self
    exact decide_eq_true (by omega)
  have none : back.countP (· < point) = 0 := by
    rw [List.countP_eq_zero]
    intro other inside
    have := above other inside
    have := together other (by simp [inside])
    rw [decide_eq_true_eq]
    omega
  rw [List.countP_append, List.countP_cons_of_pos (by simpa using before), every, none]

/-- Where the pairs of a second list fit among the entries of a first one. -/
def PairsFit (old new : List Int) : Prop :=
  ∀ pair ∈ pairUp new, (∀ item ∈ old, ¬ (pair.1 < item ∧ item < pair.2)) ∧ old.countP (· < pair.1) % 2 = 0

/-- An even number of new entries adds its own pairs, and no others, exactly when nothing old falls into one of them and
an even number of the old entries comes before each. -/
theorem mem_pairUp_merged (ascending : all.Pairwise (· < ·)) (perm : all.Perm (old ++ new)) (earlier : old.Pairwise (· < ·))
    (added : new.Pairwise (· < ·)) (even : new.length % 2 = 0) :
    (∀ pair, pair ∈ pairUp all ↔ pair ∈ pairUp old ∨ pair ∈ pairUp new) ↔ PairsFit old new := by
  have count (point : Int) : all.countP (· < point) = old.countP (· < point) + new.countP (· < point) := by
    rw [perm.countP_eq, List.countP_append]
  have member {item : Int} : item ∈ all ↔ item ∈ old ∨ item ∈ new := by rw [perm.mem_iff, List.mem_append]
  have apart : ∀ item ∈ old, item ∉ new := by
    have nodup : (old ++ new).Nodup := perm.nodup_iff.mp (ascending.imp ne_of_lt)
    intro item inOld inNew
    exact (List.nodup_append.mp nodup).2.2 item inOld item inNew rfl
  constructor
  · intro same pair listed
    have inNew := (mem_pairUp_strict added).mp listed
    have inAll := (mem_pairUp_strict ascending).mp ((same pair).mpr (.inr listed))
    constructor
    · intro item inside bounds
      have := inAll.2.2.2.1 item (member.mpr (.inl inside))
      omega
    · have := count pair.1
      have := inNew.2.2.2.2
      have := inAll.2.2.2.2
      omega
  · intro fits
    have parted {item : Int} (inOld : item ∈ old) : new.countP (· < item) % 2 = 0 := by
      by_contra odd
      obtain ⟨pair, listed, after, before⟩ := pairUp_around added even (Nat.mod_two_ne_zero.mp odd)
      refine (fits pair listed).1 item inOld ⟨after, lt_of_le_of_ne before ?_⟩
      rintro rfl
      exact apart _ inOld (mem_of_mem_pairUp listed).2
    have fresh (pair : Int × Int) (listed : pair ∈ pairUp new) : pair ∈ pairUp all := by
      obtain ⟨first, second, below, together, before⟩ := (mem_pairUp_strict added).mp listed
      refine (mem_pairUp_strict ascending).mpr ⟨member.mpr (.inr first), member.mpr (.inr second), below, ?_, ?_⟩
      · intro item inside
        rcases member.mp inside with inOld | inNew
        · have between := (fits pair listed).1 item inOld
          have notFirst : item ≠ pair.1 := fun same => apart item inOld (same ▸ first)
          have notSecond : item ≠ pair.2 := fun same => apart item inOld (same ▸ second)
          omega
        · exact together item inNew
      · have := count pair.1
        have := (fits pair listed).2
        omega
    have kept (pair : Int × Int) (listed : pair ∈ pairUp old) : pair ∈ pairUp all := by
      obtain ⟨first, second, below, together, before⟩ := (mem_pairUp_strict earlier).mp listed
      -- An entry between the two would have an odd number of old ones before it.
      have separate (item : Int) (after : pair.1 < item) (before' : item < pair.2) : old.countP (· < item) % 2 = 1 := by
        have := countP_next earlier first after fun other inside => by
          have := together other inside
          omega
        omega
      refine (mem_pairUp_strict ascending).mpr ⟨member.mpr (.inl first), member.mpr (.inl second), below, ?_, ?_⟩
      · intro item inside
        rcases member.mp inside with inOld | inNew
        · exact together item inOld
        · obtain ⟨piece, fitted, ends⟩ := pairUp_partner even inNew
          have order := pairUp_below added fitted
          have ahead := (fits piece fitted).2
          have outside := (fits piece fitted).1 pair.1 first
          have different : piece.1 ≠ pair.1 := fun same => apart pair.1 first (same ▸ (mem_of_mem_pairUp fitted).1)
          by_contra between
          have inPair : pair.1 < piece.1 ∧ piece.1 < pair.2 := by omega
          have := separate piece.1 inPair.1 inPair.2
          omega
      · have := count pair.1
        have := parted first
        omega
    have distinct : (pairUp old ++ pairUp new).Nodup := by
      refine List.nodup_append.mpr ⟨pairUp_nodup (earlier.imp ne_of_lt), pairUp_nodup (added.imp ne_of_lt), ?_⟩
      rintro pair inOld other inNew rfl
      exact apart _ (mem_of_mem_pairUp inOld).1 (mem_of_mem_pairUp inNew).1
    have inside : pairUp old ++ pairUp new ⊆ pairUp all := by
      intro pair listed
      rcases List.mem_append.mp listed with inOld | inNew
      · exact kept pair inOld
      · exact fresh pair inNew
    have size : (pairUp all).length ≤ (pairUp old ++ pairUp new).length := by
      have total := perm.length_eq
      rw [List.length_append] at total
      rw [List.length_append, length_pairUp, length_pairUp, length_pairUp]
      omega
    have whole := (List.subperm_of_subset distinct inside).perm_of_length_le size
    intro pair
    rw [← whole.mem_iff, List.mem_append]

end Merging

end Dagmar.Library.Pairing
