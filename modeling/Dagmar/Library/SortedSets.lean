import Mathlib.Data.List.Dedup
import Mathlib.Data.List.Sort

/-! Sets that are kept as lists: sorted, with no entry twice. -/

namespace Dagmar.Library

variable {α : Type} [LinearOrder α]

/-- The entries of a list in order, each once. -/
def sortedSet (items : List α) : List α := items.dedup.insertionSort (· ≤ ·)

@[simp] theorem mem_sortedSet {items : List α} {item : α} : item ∈ sortedSet items ↔ item ∈ items := by
  simp [sortedSet]

theorem sortedSet_strict (items : List α) : (sortedSet items).Pairwise (· < ·) := by
  have sorted := List.pairwise_insertionSort (· ≤ ·) items.dedup
  have distinct : (sortedSet items).Nodup := (List.perm_insertionSort _ _).nodup_iff.mpr (List.nodup_dedup items)
  exact (sorted.and distinct).imp fun both => lt_of_le_of_ne both.1 both.2

/-- A set that is kept is kept as it is. -/
theorem sortedSet_of_strict {items : List α} (strict : items.Pairwise (· < ·)) : sortedSet items = items := by
  have distinct : items.Nodup := strict.imp ne_of_lt
  rw [sortedSet, distinct.dedup]
  exact (strict.imp le_of_lt).insertionSort_eq

theorem sortedSet_eq_nil {items : List α} : sortedSet items = [] ↔ items = [] := by
  simp only [List.eq_nil_iff_forall_not_mem, mem_sortedSet]

end Dagmar.Library
