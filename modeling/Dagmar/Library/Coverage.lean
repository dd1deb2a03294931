import Dagmar.Library.Pairing
import Mathlib.Data.Int.Interval
import Mathlib.Algebra.Order.BigOperators.Group.Finset

/-! Lists of half-open spans of integers, told by the points that they cover. Spans that
do not overlap are measured by counting points; spans made of a sorted list two by two
cover a point when the number of entries up to it is odd. -/

namespace Dagmar.Library.Coverage
open Pairing

section Spans

/-- The points from one on and before another. -/
def stretch (first last : Int) : Finset Int := @Finset.Ico Int instLatticeInt.toPreorder Int.instLocallyFiniteOrder first last

@[simp] theorem mem_stretch {first last point : Int} : point ∈ stretch first last ↔ first ≤ point ∧ point < last := Finset.mem_Ico

theorem card_stretch {first last : Int} (below : first ≤ last) : ((stretch first last).card : Int) = last - first :=
  Int.card_Ico_of_le first last below

theorem stretch_union {first middle last : Int} (below : first ≤ middle) (below' : middle ≤ last) :
    stretch first middle ∪ stretch middle last = stretch first last := Finset.Ico_union_Ico_eq_Ico below below'

theorem stretch_disjoint (first middle last : Int) : Disjoint (stretch first middle) (stretch middle last) :=
  Finset.Ico_disjoint_Ico_consecutive first middle last

def Covers (spans : List (Int × Int)) (point : Int) : Prop := ∃ span ∈ spans, span.1 ≤ point ∧ point < span.2

instance (spans : List (Int × Int)) (point : Int) : Decidable (Covers spans point) :=
  inferInstanceAs (Decidable (∃ span ∈ spans, _))

/-- No two of the spans overlap; they may touch, and stand in any order. -/
def NonOverlapping (spans : List (Int × Int)) : Prop :=
  spans.Pairwise fun left right => left.2 ≤ right.1 ∨ right.2 ≤ left.1

def size (spans : List (Int × Int)) : Int := (spans.map fun span => span.2 - span.1).sum

def cover (spans : List (Int × Int)) : Finset Int := spans.foldr (fun span points => stretch span.1 span.2 ∪ points) ∅

variable {spans first second : List (Int × Int)} {span : Int × Int} {point : Int}

@[simp] theorem cover_nil : cover [] = ∅ := rfl

@[simp] theorem cover_cons : cover (span :: spans) = stretch span.1 span.2 ∪ cover spans := rfl

@[simp] theorem size_nil : size [] = 0 := rfl

@[simp] theorem size_cons : size (span :: spans) = span.2 - span.1 + size spans := rfl

@[simp] theorem not_covers_nil : ¬ Covers [] point := by simp [Covers]

@[simp] theorem covers_cons : Covers (span :: spans) point ↔ span.1 ≤ point ∧ point < span.2 ∨ Covers spans point := by
  simp [Covers]

@[simp] theorem mem_cover : point ∈ cover spans ↔ Covers spans point := by
  induction spans with
  | nil => simp
  | cons span spans ih => rw [cover_cons, Finset.mem_union, mem_stretch, ih, covers_cons]

/-- A span outside another list of spans shares no point with it. -/
theorem disjoint_cover (apart : ∀ other ∈ spans, span.2 ≤ other.1 ∨ other.2 ≤ span.1) :
    Disjoint (stretch span.1 span.2) (cover spans) := by
  rw [Finset.disjoint_left]
  intro point inside covered
  rw [mem_stretch] at inside
  obtain ⟨other, member, bounds⟩ := mem_cover.mp covered
  have := apart other member
  omega

/-- What spans that do not overlap have of a property is counted span by span. -/
theorem card_filter_cover (apart : NonOverlapping spans) (p : Int → Prop) [DecidablePred p] :
    ((cover spans).filter p).card = (spans.map fun span => ((stretch span.1 span.2).filter p).card).sum := by
  induction spans with
  | nil => rfl
  | cons span spans ih =>
    obtain ⟨here, apart⟩ := List.pairwise_cons.mp apart
    have disjoint := (disjoint_cover here).mono (Finset.filter_subset p _) (Finset.filter_subset p _)
    rw [cover_cons, Finset.filter_union, Finset.card_union_of_disjoint disjoint, ih apart, List.map_cons, List.sum_cons]

theorem card_cover (apart : NonOverlapping spans) (forward : ∀ span ∈ spans, span.1 ≤ span.2) :
    ((cover spans).card : Int) = size spans := by
  induction spans with
  | nil => rfl
  | cons span spans ih =>
    obtain ⟨here, apart⟩ := List.pairwise_cons.mp apart
    obtain ⟨below, forward⟩ := List.forall_mem_cons.mp forward
    have length := card_stretch below
    rw [cover_cons, Finset.card_union_of_disjoint (disjoint_cover here), Nat.cast_add, ih apart forward, length, size_cons]

/-- The points of a span in a window, as many as the overlap is long. -/
theorem card_overlap (span window : Int × Int) :
    (((stretch span.1 span.2).filter fun point => window.1 ≤ point ∧ point < window.2).card : Int) =
      max 0 (min span.2 window.2 - max span.1 window.1) := by
  have same : ((stretch span.1 span.2).filter fun point => window.1 ≤ point ∧ point < window.2) =
      stretch (max span.1 window.1) (min span.2 window.2) := by
    ext point
    rw [Finset.mem_filter, mem_stretch, mem_stretch]
    omega
  rw [same, stretch, Int.card_Ico, Int.toNat_eq_max]
  omega

end Spans

section Pairs
variable {walls : List Int} {point : Int}

/-- How many entries stand up to a point. -/
def upTo (walls : List Int) (point : Int) : Nat := walls.countP (· ≤ point)

theorem upTo_perm {first second : List Int} (same : first.Perm second) (point : Int) : upTo first point = upTo second point :=
  same.countP_eq _

theorem upTo_append (first second : List Int) (point : Int) : upTo (first ++ second) point = upTo first point + upTo second point :=
  List.countP_append

/-- The pairs of a sorted list cover the points with an odd number of entries before them, but for a last
entry without a partner. -/
theorem covers_pairUp (ascending : walls.Pairwise (· ≤ ·)) :
    Covers (pairUp walls) point ↔ upTo walls point % 2 = 1 ∧ upTo walls point < walls.length := by
  induction walls using pairUp.induct with
  | case1 first second rest ih =>
    obtain ⟨below, ascending⟩ := List.pairwise_cons.mp ascending
    obtain ⟨below', ascending⟩ := List.pairwise_cons.mp ascending
    have order : first ≤ second := below second List.mem_cons_self
    rw [pairUp_cons_cons, covers_cons, ih ascending]
    simp only [upTo, List.countP_cons, List.length_cons, decide_eq_true_eq]
    by_cases before : point < second
    · have later : rest.countP (· ≤ point) = 0 := by
        rw [List.countP_eq_zero]
        intro wall member
        have := below' wall member
        simp only [decide_eq_true_eq]
        omega
      have short : ¬ second ≤ point := by omega
      by_cases reached : first ≤ point
      · simp [later, short, reached, before]
      · simp [later, short, reached]
    · have reached : first ≤ point := by omega
      simp only [if_pos reached, if_pos (show second ≤ point by omega)]
      omega
  | case2 items shape =>
    rcases items with - | ⟨item, - | ⟨second, rest⟩⟩
    · simp [upTo]
    · simp only [pairUp_singleton, not_covers_nil, upTo, List.length_singleton, false_iff]
      omega
    · exact absurd rfl (shape item second rest)

/-- The begins and the ends of spans. -/
def ends (spans : List (Int × Int)) : List Int := spans.flatMap fun span => [span.1, span.2]

variable {walls' : List Int} {spans : List (Int × Int)}

theorem length_ends (spans : List (Int × Int)) : (ends spans).length = 2 * spans.length := by
  induction spans with
  | nil => rfl
  | cons span spans ih =>
    rw [ends, List.flatMap_cons, List.length_append, ← ends, ih]
    simp only [List.length_cons, List.length_nil]
    omega

/-- Of spans that do not overlap a point is past an odd number of ends when it is in one of them. -/
theorem covers_iff_ends (apart : NonOverlapping spans) (forward : ∀ span ∈ spans, span.1 ≤ span.2) :
    Covers spans point ↔ upTo (ends spans) point % 2 = 1 := by
  induction spans with
  | nil => simp [ends, upTo]
  | cons span spans ih =>
    obtain ⟨here, apart⟩ := List.pairwise_cons.mp apart
    obtain ⟨below, forward⟩ := List.forall_mem_cons.mp forward
    have ih := ih apart forward
    have count : upTo (ends (span :: spans)) point =
        upTo (ends spans) point + (if span.2 ≤ point then 1 else 0) + (if span.1 ≤ point then 1 else 0) := by
      rw [ends, List.flatMap_cons, List.cons_append, List.cons_append, List.nil_append, ← ends]
      simp only [upTo, List.countP_cons, decide_eq_true_eq]
    rw [covers_cons, count]
    by_cases inside : span.1 ≤ point ∧ point < span.2
    · have alone : ¬ Covers spans point := by
        rintro ⟨other, member, bounds⟩
        have := here other member
        omega
      have even := mt ih.mpr alone
      rw [if_pos inside.1, if_neg (not_le.mpr inside.2)]
      exact iff_of_true (.inl inside) (by omega)
    · rw [or_iff_right inside, ih]
      split_ifs <;> omega

/-- Spans inside the pairs of a sorted list take their points from what the pairs cover. -/
theorem covers_inserted (ascending : walls.Pairwise (· ≤ ·)) (ascending' : walls'.Pairwise (· ≤ ·))
    (perm : walls'.Perm (walls ++ ends spans)) (apart : NonOverlapping spans) (forward : ∀ span ∈ spans, span.1 ≤ span.2)
    (inside : ∀ span ∈ spans, ∃ pair ∈ pairUp walls, pair.1 < span.1 ∧ span.2 < pair.2) :
    Covers (pairUp walls') point ↔ Covers (pairUp walls) point ∧ ¬ Covers spans point := by
  have within : Covers spans point → Covers (pairUp walls) point := by
    rintro ⟨span, member, bounds⟩
    obtain ⟨pair, paired, around⟩ := inside span member
    exact ⟨pair, paired, by omega, by omega⟩
  have reach : upTo (ends spans) point < (ends spans).length → upTo walls point < walls.length := by
    intro more
    obtain ⟨wall, listed, beyond⟩ : ∃ wall ∈ ends spans, point < wall := by
      by_contra none
      refine more.ne (List.countP_eq_length.mpr fun wall listed => decide_eq_true ?_)
      exact not_lt.mp fun beyond => none ⟨wall, listed, beyond⟩
    obtain ⟨span, member, either⟩ : ∃ span ∈ spans, wall = span.1 ∨ wall = span.2 := by simpa [ends] using listed
    obtain ⟨pair, paired, around⟩ := inside span member
    have := forward span member
    refine lt_of_le_of_ne List.countP_le_length fun all => ?_
    have last := of_decide_eq_true (List.countP_eq_length.mp all pair.2 (mem_of_mem_pairUp paired).2)
    omega
  have size : walls'.length = walls.length + (ends spans).length := by rw [perm.length_eq, List.length_append]
  have count : upTo walls' point = upTo walls point + upTo (ends spans) point := by
    rw [upTo_perm perm, upTo_append]
  have atMost : upTo (ends spans) point ≤ (ends spans).length := List.countP_le_length
  have atMost' : upTo walls point ≤ walls.length := List.countP_le_length
  have even := length_ends spans
  rw [covers_pairUp ascending, covers_iff_ends apart forward] at within
  rw [covers_pairUp ascending', covers_pairUp ascending, covers_iff_ends apart forward, count, size]
  omega

end Pairs

end Dagmar.Library.Coverage
