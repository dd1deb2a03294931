import Mathlib.Algebra.Order.Group.Defs
import Mathlib.Data.List.Basic

/-! Boxes with their edges, on a page whose vertical axis points down. What is drawn
within boxes that lie apart lies apart. -/

namespace Dagmar.Library

structure Box (α : Type) where
  left : α
  top : α
  right : α
  bottom : α
deriving DecidableEq

namespace Box
variable {α : Type}

def map {β : Type} (f : α → β) (box : Box α) : Box β := ⟨f box.left, f box.top, f box.right, f box.bottom⟩

def translate [Add α] (x y : α) (box : Box α) : Box α := ⟨x + box.left, y + box.top, x + box.right, y + box.bottom⟩

variable [LinearOrder α]

structure Within (inner outer : Box α) : Prop where
  left : outer.left ≤ inner.left
  top : outer.top ≤ inner.top
  right : inner.right ≤ outer.right
  bottom : inner.bottom ≤ outer.bottom

/-- The boxes have no point in common, their edges included. -/
def Apart (first second : Box α) : Prop :=
  first.right < second.left ∨ second.right < first.left ∨ first.bottom < second.top ∨ second.bottom < first.top

theorem Within.trans {inner middle outer : Box α} (inside : inner.Within middle) (around : middle.Within outer) :
    inner.Within outer where
  left := around.left.trans inside.left
  top := around.top.trans inside.top
  right := inside.right.trans around.right
  bottom := inside.bottom.trans around.bottom

theorem Apart.symm {first second : Box α} (apart : first.Apart second) : second.Apart first := by
  rcases apart with before | after | above | below
  · exact .inr (.inl before)
  · exact .inl after
  · exact .inr (.inr (.inr above))
  · exact .inr (.inr (.inl below))

theorem Apart.within {first second inner : Box α} (apart : first.Apart second) (inside : inner.Within second) :
    first.Apart inner := by
  rcases apart with before | after | above | below
  · exact .inl (before.trans_le inside.left)
  · exact .inr (.inl (inside.right.trans_lt after))
  · exact .inr (.inr (.inl (above.trans_le inside.top)))
  · exact .inr (.inr (.inr (inside.bottom.trans_lt below)))

theorem Apart.both {first second left right : Box α} (apart : first.Apart second) (inside : left.Within first)
    (within : right.Within second) : left.Apart right := (apart.within within).symm.within inside |>.symm

theorem Apart.map {β : Type} [LinearOrder β] {f : α → β} (rises : StrictMono f) {first second : Box α}
    (apart : first.Apart second) : (first.map f).Apart (second.map f) := by
  rcases apart with before | after | above | below
  · exact .inl (rises before)
  · exact .inr (.inl (rises after))
  · exact .inr (.inr (.inl (rises above)))
  · exact .inr (.inr (.inr (rises below)))

theorem Within.map {β : Type} [LinearOrder β] {f : α → β} (rises : Monotone f) {inner outer : Box α}
    (inside : inner.Within outer) : (inner.map f).Within (outer.map f) where
  left := rises inside.left
  top := rises inside.top
  right := rises inside.right
  bottom := rises inside.bottom

end Box

end Dagmar.Library
