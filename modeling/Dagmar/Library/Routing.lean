import Mathlib.Data.List.Basic

/-! Path templates that are tried in their order. A template accepts a path segment by
segment. One mark is let pass after the last literal, as the end of a regular
expression lets a final newline pass. -/

namespace Dagmar.Library.Routing

universe u v
variable {α : Type u} [DecidableEq α] {mark : α}

section Templates

inductive Piece (α : Type u) where
  | literal (text : List α)
  | parameter
deriving DecidableEq

def Piece.fits : Piece α → List α → Bool
  | .literal text, segment => segment = text
  | .parameter, segment => segment ≠ []

def Piece.closes (mark : α) : Piece α → List α → Bool
  | .literal text, segment => segment = text || segment = text ++ [mark]
  | .parameter, segment => segment ≠ []

def accepts (mark : α) : List (Piece α) → List (List α) → Bool
  | [piece], [segment] => piece.closes mark segment
  | piece :: next :: pieces, segment :: segments => piece.fits segment && accepts mark (next :: pieces) segments
  | _, _ => false

theorem accepts_cons {piece next : Piece α} {pieces : List (Piece α)} {segments : List (List α)} :
    accepts mark (piece :: next :: pieces) segments ↔
      ∃ segment rest, segments = segment :: rest ∧ piece.fits segment ∧ accepts mark (next :: pieces) rest := by
  cases segments with
  | nil => simp [accepts]
  | cons segment rest => simp [accepts]

theorem accepts_singleton {piece : Piece α} {segments : List (List α)} :
    accepts mark [piece] segments ↔ ∃ segment, segments = [segment] ∧ piece.closes mark segment := by
  match segments with
  | [] => simp [accepts]
  | [segment] => simp [accepts]
  | _ :: _ :: _ => simp [accepts]

theorem ne_nil_of_accepts {pieces : List (Piece α)} {segments : List (List α)} (accepted : accepts mark pieces segments) :
    segments ≠ [] := by
  rintro rfl
  cases pieces with
  | nil => cases accepted
  | cons piece pieces => cases pieces <;> cases accepted

/-- Literals in front of a template are the first segments of what it accepts. -/
theorem accepts_literals {texts : List (List α)} {pieces : List (Piece α)} {segments : List (List α)} (more : pieces ≠ [])
    (accepted : accepts mark (texts.map .literal ++ pieces) segments) :
    ∃ rest, segments = texts ++ rest ∧ accepts mark pieces rest := by
  induction texts generalizing segments with
  | nil => exact ⟨segments, rfl, accepted⟩
  | cons text texts ih =>
    obtain ⟨next, others, shape⟩ := List.exists_cons_of_ne_nil (List.append_ne_nil_of_right_ne_nil (texts.map Piece.literal) more)
    rw [List.map_cons, List.cons_append, shape, accepts_cons] at accepted
    obtain ⟨segment, after, rfl, fits, accepted⟩ := accepted
    rw [← shape] at accepted
    obtain ⟨rest, rfl, last⟩ := ih accepted
    exact ⟨rest, by rw [of_decide_eq_true fits, List.cons_append], last⟩

theorem accepts_append {texts rest : List (List α)} {pieces : List (Piece α)} (accepted : accepts mark pieces rest) :
    accepts mark (texts.map .literal ++ pieces) (texts ++ rest) := by
  induction texts with
  | nil => exact accepted
  | cons text texts ih =>
    have more : texts.map Piece.literal ++ pieces ≠ [] := by
      intro none
      rw [none] at ih
      cases ih
    obtain ⟨next, others, shape⟩ := List.exists_cons_of_ne_nil more
    rw [List.map_cons, List.cons_append, List.cons_append, shape, accepts_cons]
    rw [shape] at ih
    exact ⟨text, texts ++ rest, rfl, decide_eq_true rfl, ih⟩

end Templates

section Joining

omit [DecidableEq α] in
theorem join_append (separator : α) {first second : List (List α)} (left : first ≠ []) (right : second ≠ []) :
    [separator].intercalate (first ++ second) =
      [separator].intercalate first ++ separator :: [separator].intercalate second := by
  induction first with
  | nil => exact absurd rfl left
  | cons segment first ih =>
    cases first with
    | nil =>
      obtain ⟨next, rest, rfl⟩ := List.exists_cons_of_ne_nil right
      simp [List.intercalate]
    | cons next first =>
      have joined := ih (List.cons_ne_nil _ _)
      simp only [List.cons_append, List.intercalate_cons_cons] at joined ⊢
      simp [joined]

/-- A template of literals accepts its own path, alone or with the mark behind it. -/
theorem join_of_accepts (separator : α) {texts : List (List α)} {segments : List (List α)}
    (accepted : accepts mark (texts.map .literal) segments) :
    [separator].intercalate segments = [separator].intercalate texts ∨
      [separator].intercalate segments = [separator].intercalate texts ++ [mark] := by
  rcases List.eq_nil_or_concat' texts with rfl | ⟨first, last, rfl⟩
  · cases segments <;> cases accepted
  · rw [List.map_append, List.map_singleton] at accepted
    obtain ⟨rest, rfl, closing⟩ := accepts_literals (List.cons_ne_nil _ _) accepted
    obtain ⟨segment, rfl, closes⟩ := accepts_singleton.mp closing
    simp only [Piece.closes, Bool.or_eq_true, decide_eq_true_eq] at closes
    rcases closes with rfl | rfl
    · exact .inl rfl
    · cases first with
      | nil => simp [List.intercalate]
      | cons text first =>
        refine .inr ?_
        rw [join_append _ (List.cons_ne_nil _ _) (List.cons_ne_nil _ _), join_append _ (List.cons_ne_nil _ _) (List.cons_ne_nil _ _)]
        simp [List.intercalate]

end Joining

section Tables

def Piece.meets : Piece α → Piece α → Bool
  | .literal first, .literal second => first = second
  | _, _ => true

def Piece.meetsLast (mark : α) : Piece α → Piece α → Bool
  | .literal first, .literal second => first = second || first = second ++ [mark] || first ++ [mark] = second
  | _, _ => true

/-- Some path may be accepted by both templates. -/
def overlaps (mark : α) : List (Piece α) → List (Piece α) → Bool
  | [first], [second] => first.meetsLast mark second
  | first :: next :: pieces, second :: after :: others => first.meets second && overlaps mark (next :: pieces) (after :: others)
  | _, _ => false

theorem meets_of_fits {first second : Piece α} {segment : List α} (left : first.fits segment) (right : second.fits segment) :
    first.meets second := by
  cases first <;> cases second <;> simp_all [Piece.fits, Piece.meets]

theorem meetsLast_of_closes {first second : Piece α} {segment : List α} (left : first.closes mark segment)
    (right : second.closes mark segment) : first.meetsLast mark second := by
  cases first with
  | parameter => cases second <;> rfl
  | literal text =>
    cases second with
    | parameter => rfl
    | literal other =>
      simp only [Piece.closes, Piece.meetsLast, Bool.or_eq_true, decide_eq_true_eq] at left right ⊢
      rcases left with rfl | rfl <;> rcases right with same | same
      · exact .inl (.inl same)
      · exact .inl (.inr same)
      · exact .inr same
      · exact .inl (.inl (List.append_cancel_right same))

theorem overlaps_of_accepts {first second : List (Piece α)} {segments : List (List α)} (left : accepts mark first segments)
    (right : accepts mark second segments) : overlaps mark first second := by
  induction segments generalizing first second with
  | nil => exact absurd rfl (ne_nil_of_accepts left)
  | cons segment segments ih =>
    match first, second with
    | [], _ => cases left
    | _, [] => cases right
    | [piece], [other] =>
      obtain ⟨_, same, closes⟩ := accepts_singleton.mp left
      obtain ⟨_, alike, closesToo⟩ := accepts_singleton.mp right
      cases same
      cases alike
      exact meetsLast_of_closes closes closesToo
    | [piece], other :: after :: others =>
      obtain ⟨_, same, -⟩ := accepts_singleton.mp left
      obtain ⟨_, _, alike, -, more⟩ := accepts_cons.mp right
      cases same
      cases alike
      exact absurd rfl (ne_nil_of_accepts more)
    | piece :: next :: pieces, [other] =>
      obtain ⟨_, _, same, -, more⟩ := accepts_cons.mp left
      obtain ⟨_, alike, -⟩ := accepts_singleton.mp right
      cases same
      cases alike
      exact absurd rfl (ne_nil_of_accepts more)
    | piece :: next :: pieces, other :: after :: others =>
      obtain ⟨_, _, same, fits, more⟩ := accepts_cons.mp left
      obtain ⟨_, _, alike, fitsToo, moreToo⟩ := accepts_cons.mp right
      cases same
      cases alike
      rw [overlaps, Bool.and_eq_true]
      exact ⟨meets_of_fits fits fitsToo, ih more moreToo⟩

/-- The only row that passes a test is the first one found. -/
theorem find_of_unique {ρ : Type v} {rows : List ρ} {test : ρ → Bool} {row : ρ} (member : row ∈ rows) (passes : test row)
    (only : ∀ other ∈ rows, test other → other = row) : rows.find? test = some row := by
  cases found : rows.find? test with
  | none => exact absurd passes (List.find?_eq_none.mp found row member)
  | some other => rw [only other (List.mem_of_find?_eq_some found) (List.find?_some found)]

end Tables

end Dagmar.Library.Routing
