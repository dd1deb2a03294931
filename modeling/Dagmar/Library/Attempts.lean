import Mathlib.Data.Set.Insert
import Mathlib.Tactic.Common

/-! Numbered attempts in streams. A stream climbs when an attempt is made only
after all attempts with a smaller number. -/

namespace Dagmar.Library

universe u
variable {σ : Type u} {limit : Int}

/-- In every stream the numbers made so far begin with 1 and leave none out. -/
def Climbs (limit : Int) (made : Set (σ × Int)) : Prop :=
  ∀ stream n, (stream, n) ∈ made → 1 ≤ n ∧ n ≤ limit ∧ ∀ m, 1 ≤ m → m < n → (stream, m) ∈ made

theorem Climbs.insert {made : Set (σ × Int)} (climbs : Climbs limit made) {stream : σ} {n : Int} (positive : 1 ≤ n)
    (bounded : n ≤ limit) (below : ∀ m, 1 ≤ m → m < n → (stream, m) ∈ made) : Climbs limit (insert (stream, n) made) := by
  intro other k member
  rcases member with same | before
  · cases same
    exact ⟨positive, bounded, fun m first less => Set.mem_insert_of_mem _ (below m first less)⟩
  · obtain ⟨first, last, all⟩ := climbs other k before
    exact ⟨first, last, fun m one less => Set.mem_insert_of_mem _ (all m one less)⟩

/-- The attempts of a stream are those up to some number. -/
theorem Climbs.height {made : Set (σ × Int)} (climbs : Climbs limit made) (bound : 0 ≤ limit) (stream : σ) :
    ∃ k, 0 ≤ k ∧ k ≤ limit ∧ ∀ n, (stream, n) ∈ made ↔ 1 ≤ n ∧ n ≤ k := by
  have upTo (j : Nat) : ∃ k : Int, 0 ≤ k ∧ k ≤ j ∧ ∀ n : Int, n ≤ j → ((stream, n) ∈ made ↔ 1 ≤ n ∧ n ≤ k) := by
    induction j with
    | zero =>
      refine ⟨0, le_rfl, le_rfl, fun n small => iff_of_false (fun member => ?_) (fun range => by omega)⟩
      have first := (climbs stream n member).1
      omega
    | succ j ih =>
      obtain ⟨k, nonneg, within, below⟩ := ih
      by_cases reached : (stream, ((j + 1 : Nat) : Int)) ∈ made
      · obtain ⟨-, -, all⟩ := climbs stream _ reached
        refine ⟨((j + 1 : Nat) : Int), by omega, le_rfl, fun n small => ⟨fun member => ⟨(climbs stream n member).1, small⟩, ?_⟩⟩
        rintro ⟨first, -⟩
        by_cases top : n = ((j + 1 : Nat) : Int)
        · exact top ▸ reached
        · exact all n first (by omega)
      · refine ⟨k, nonneg, by omega, fun n small => ?_⟩
        by_cases top : n = ((j + 1 : Nat) : Int)
        · exact iff_of_false (top ▸ reached) (by omega)
        · exact below n (by omega)
  obtain ⟨k, nonneg, within, below⟩ := upTo limit.toNat
  refine ⟨k, nonneg, by omega, fun n => ⟨fun member => ?_, fun range => (below n (by omega)).mpr range⟩⟩
  have last := (climbs stream n member).2.1
  exact (below n (by omega)).mp member

/-- A schedule that names every smaller number of a stream first. -/
def Ladder (limit : Int) (attempts : List (σ × Int)) : Prop :=
  ∀ before stream n after, attempts = before ++ (stream, n) :: after →
    1 ≤ n ∧ n ≤ limit ∧ ∀ m, 1 ≤ m → m < n → (stream, m) ∈ before

theorem Ladder.nil : Ladder limit ([] : List (σ × Int)) := by
  intro before stream n after split
  exact absurd split (by simp)

theorem Ladder.append {first second : List (σ × Int)} (left : Ladder limit first) (right : Ladder limit second) :
    Ladder limit (first ++ second) := by
  intro before stream n after split
  rcases List.append_eq_append_iff.mp split with ⟨more, rfl, rest⟩ | ⟨more, rfl, rest⟩
  · obtain ⟨positive, bounded, below⟩ := right more stream n after rest
    exact ⟨positive, bounded, fun m one less => List.mem_append_right _ (below m one less)⟩
  · cases more with
    | nil =>
      obtain ⟨positive, bounded, below⟩ := right [] stream n after (by simpa using rest.symm)
      exact ⟨positive, bounded, fun m one less => absurd (below m one less) (by simp)⟩
    | cons attempt more =>
      obtain ⟨rfl, rfl⟩ := List.cons.inj rest
      exact left before stream n more rfl

theorem Ladder.flatMap {α : Type*} {items : List α} {attempts : α → List (σ × Int)}
    (each : ∀ item, Ladder limit (attempts item)) : Ladder limit (items.flatMap attempts) := by
  induction items with
  | nil => exact .nil
  | cons item items ih => exact (each item).append ih

theorem Ladder.concat {attempts : List (σ × Int)} (ladder : Ladder limit attempts) {stream : σ} {n : Int} (positive : 1 ≤ n)
    (bounded : n ≤ limit) (below : ∀ m, 1 ≤ m → m < n → (stream, m) ∈ attempts) : Ladder limit (attempts ++ [(stream, n)]) := by
  intro before other k after split
  rcases List.eq_nil_or_concat after with rfl | ⟨after, last, rfl⟩
  · obtain ⟨rfl, same⟩ := List.append_inj' split rfl
    cases same
    exact ⟨positive, bounded, below⟩
  · rw [List.concat_eq_append, ← List.cons_append, ← List.append_assoc] at split
    exact ladder before other k after (List.append_inj' split rfl).1

theorem Ladder.range (stream : σ) {count : Nat} (bounded : (count : Int) ≤ limit) :
    Ladder limit ((List.range count).map fun i : Nat => (stream, (i : Int) + 1)) := by
  induction count with
  | zero => exact .nil
  | succ count ih =>
    rw [List.range_succ, List.map_append]
    refine (ih (by omega)).concat (by omega) (by omega) fun m one less => List.mem_map.mpr ⟨(m - 1).toNat, ?_, ?_⟩
    · rw [List.mem_range]
      omega
    · rw [Prod.mk.injEq]
      exact ⟨rfl, by omega⟩

end Dagmar.Library
