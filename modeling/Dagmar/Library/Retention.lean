import Mathlib.Data.Finset.Card

/-! Retention up to a quota: what has to stay stays, and the first items that are not in
yet are added while there is room. -/

namespace Dagmar.Library

universe u

variable {α : Type u} [DecidableEq α]

def retain (quota : Nat) (retained : Finset α) : List α → Finset α
  | [] => retained
  | item :: items => if quota ≤ retained.card then retained else retain quota (insert item retained) items

section
variable {quota : Nat} {start : Finset α} {items : List α}

theorem start_subset_retain : start ⊆ retain quota start items := by
  induction items generalizing start with
  | nil => exact Finset.Subset.refl start
  | cons item items ih =>
    rw [retain]
    split
    · exact Finset.Subset.refl start
    · exact (Finset.subset_insert item start).trans ih

theorem retain_subset : retain quota start items ⊆ start ∪ items.toFinset := by
  induction items generalizing start with
  | nil => exact Finset.subset_union_left
  | cons item items ih =>
    rw [retain]
    split
    · exact Finset.subset_union_left
    · rw [List.toFinset_cons, Finset.union_insert, ← Finset.insert_union]
      exact ih

/-- The quota is used up as far as there are items. -/
theorem card_retain : (retain quota start items).card = max start.card (min quota (start ∪ items.toFinset).card) := by
  induction items generalizing start with
  | nil => simp [retain]
  | cons item items ih =>
    have above : start.card ≤ (start ∪ (item :: items).toFinset).card := Finset.card_le_card Finset.subset_union_left
    rw [retain]
    split
    next full => omega
    next room =>
      rw [ih, Finset.insert_union, ← Finset.union_insert, ← List.toFinset_cons]
      have grown : (insert item start).card ≤ start.card + 1 := Finset.card_insert_le item start
      have inside : (insert item start).card ≤ (start ∪ (item :: items).toFinset).card := by
        apply Finset.card_le_card
        intro member added
        rcases Finset.mem_insert.mp added with rfl | old
        · exact Finset.mem_union_right start (by simp)
        · exact Finset.mem_union_left _ old
      omega

/-- Nothing is left out when there is room for everything. -/
theorem mem_retain_of_room (room : (start ∪ items.toFinset).card ≤ max start.card quota) {item : α} (member : item ∈ items) :
    item ∈ retain quota start items := by
  have inside : start.card ≤ (start ∪ items.toFinset).card := Finset.card_le_card Finset.subset_union_left
  have everything : retain quota start items = start ∪ items.toFinset := by
    apply Finset.eq_of_subset_of_card_le retain_subset
    rw [card_retain]
    omega
  rw [everything]
  exact Finset.mem_union_right start (List.mem_toFinset.mpr member)

/-- What is added comes before what is left out. -/
theorem retain_order {before : α → α → Prop} (sorted : items.Pairwise before) {kept dropped : α}
    (retained : kept ∈ retain quota start items) (added : kept ∉ start) (member : dropped ∈ items)
    (out : dropped ∉ retain quota start items) : before kept dropped := by
  induction items generalizing start with
  | nil => cases member
  | cons item items ih =>
    obtain ⟨first, sorted⟩ := List.pairwise_cons.mp sorted
    rw [retain] at retained out
    split at retained
    · exact absurd retained added
    next room =>
      rw [if_neg room] at out
      have later : dropped ∈ items := by
        rcases List.mem_cons.mp member with rfl | later
        · exact absurd (start_subset_retain (Finset.mem_insert_self _ _)) out
        · exact later
      by_cases same : kept = item
      · rw [same]
        exact first dropped later
      · apply ih sorted retained ?_ later out
        intro inside
        rcases Finset.mem_insert.mp inside with equal | old
        · exact same equal
        · exact added old

end

end Dagmar.Library
