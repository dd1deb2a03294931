import Dagmar.PrintLayout
import Mathlib.Tactic.Linarith

/-! A printed text is the whole text within its box, at the greatest size at which it
fits. Words are cut only where they are too long for a line. -/

namespace Dagmar.Payloads.Proofs
open Library Library.Outcome

variable {φ : Type} (face : Face φ)

/-- Whether a text fits its box at a size. -/
def Fits (box : Box Int) (text : String) (fontSize : Nat) : Prop :=
  boxFits face (face.loadFont fontSize) (box.right - box.left) (box.bottom - box.top)
    (wrapText face (face.loadFont fontSize) (box.right - box.left) text)

/-- The lines of a text are layouts of its paragraphs. -/
def LaidOut (font : φ) (width : Int) (text wrapped : String) : Prop :=
  ∃ blocks : List (List (List Char)),
    List.Forall₂ (fun paragraph lines => Wrapping.Layout ' ' (lineFits face font width) ([' '].intercalate (splitWords paragraph)) lines)
      (text.toList.splitOn '\n') blocks ∧
    wrapped.toList.splitOn '\n' = blocks.flatten

/-- No beginning of a word is too long for a line. -/
def WordsFit (font : φ) (width : Int) (text : String) : Prop :=
  ∀ word ∈ splitWords text.toList, ∀ beginning, beginning <+: word → beginning ≠ [] → lineFits face font width beginning = true

structure Printed (box : Box Int) (text : String) (size : Nat) (drawing : Drawing φ) : Prop where
  largest : ∃ fontSize, 10 ≤ fontSize ∧ fontSize ≤ size ∧ drawing.font = face.loadFont fontSize ∧
    ∀ larger, fontSize < larger → larger ≤ size → ¬ Fits face box text larger
  laidOut : LaidOut face drawing.font (box.right - box.left) text drawing.wrapped
  visible : (splitWords drawing.wrapped.toList).flatten = (splitWords text.toList).flatten
  unbroken : WordsFit face drawing.font (box.right - box.left) text → splitWords drawing.wrapped.toList = splitWords text.toList
  inside : (drawing.ink face).Within (box.map Int.cast)

section Lines

theorem space_separates : isSpace ' ' := by decide

theorem newline_separates : isSpace '\n' := by decide

theorem words_spelled (text : List Char) : ∀ word ∈ splitWords text, word ≠ [] ∧ ' ' ∉ word := by
  intro word member
  obtain ⟨letters, plain⟩ := Wrapping.mem_words member
  refine ⟨letters, fun inside => ?_⟩
  exact absurd space_separates (by simp [plain _ inside])

theorem words_lines (text : List Char) : splitWords text = (text.splitOn '\n').flatMap splitWords := by
  have split := Wrapping.words_intercalate (text.splitOn '\n') newline_separates
  rwa [List.intercalate_splitOn] at split

/-- The lines of a paragraph. -/
def linesAt (font : φ) (width : Int) (paragraph : List Char) : List (List Char) :=
  Wrapping.wrap ' ' (lineFits face font width) (splitWords paragraph)

theorem wrapText_lines (font : φ) (width : Int) (text : String) :
    (wrapText face font width text).toList = ['\n'].intercalate ((text.toList.splitOn '\n').flatMap (linesAt face font width)) :=
  String.toList_ofList

theorem layout_linesAt (font : φ) (width : Int) (paragraph : List Char) :
    Wrapping.Layout ' ' (lineFits face font width) ([' '].intercalate (splitWords paragraph)) (linesAt face font width paragraph) :=
  Wrapping.layout_wrap _ (words_spelled paragraph)

theorem mem_joined {words : List (List Char)} {c : Char} (member : c ∈ [' '].intercalate words) : c = ' ' ∨ ∃ word ∈ words, c ∈ word := by
  induction words with
  | nil => cases member
  | cons word words ih =>
    cases words with
    | nil =>
      right
      refine ⟨word, List.mem_cons_self, ?_⟩
      simpa using member
    | cons next words =>
      rw [List.intercalate_cons_cons, List.append_assoc, List.mem_append, List.mem_append, List.mem_singleton] at member
      rcases member with inside | blank | later
      · exact .inr ⟨word, List.mem_cons_self, inside⟩
      · exact .inl blank
      · obtain blank | ⟨found, listed, inside⟩ := ih later
        · exact .inl blank
        · exact .inr ⟨found, List.mem_cons_of_mem _ listed, inside⟩

theorem linesAt_plain (font : φ) (width : Int) (paragraph : List Char) : ∀ line ∈ linesAt face font width paragraph, '\n' ∉ line := by
  intro line member inside
  have flat := (layout_linesAt face font width paragraph).subset (List.mem_flatten.mpr ⟨line, member, inside⟩)
  obtain blank | ⟨word, listed, letter⟩ := mem_joined flat
  · exact absurd blank (by decide)
  · exact absurd newline_separates (by simp [(Wrapping.mem_words listed).2 _ letter])

theorem linesAt_ne_nil (font : φ) (width : Int) (paragraph : List Char) : linesAt face font width paragraph ≠ [] := by
  simp [linesAt, Wrapping.wrap, Wrapping.Filling.finished]

theorem laidOut_wrapText (font : φ) (width : Int) (text : String) : LaidOut face font width text (wrapText face font width text) := by
  refine ⟨(text.toList.splitOn '\n').map (linesAt face font width), ?_, ?_⟩
  · apply List.forall₂_map_right_iff.mpr
    exact List.forall₂_same.mpr fun paragraph _ => layout_linesAt face font width paragraph
  · rw [wrapText_lines, List.splitOn_intercalate, List.flatMap_def]
    · intro line member
      obtain ⟨paragraph, -, inside⟩ := List.mem_flatMap.mp member
      exact linesAt_plain face font width paragraph line inside
    · obtain ⟨paragraph, paragraphs, split⟩ := List.exists_cons_of_ne_nil (List.splitOn_ne_nil '\n' text.toList)
      rw [split, List.flatMap_cons]
      exact List.append_ne_nil_of_left_ne_nil (linesAt_ne_nil face font width paragraph) _

theorem words_joinedSpaces (paragraph : List Char) : splitWords ([' '].intercalate (splitWords paragraph)) = splitWords paragraph :=
  Wrapping.words_joined paragraph space_separates

theorem visible_wrapText (font : φ) (width : Int) (text : String) :
    (splitWords (wrapText face font width text).toList).flatten = (splitWords text.toList).flatten := by
  have each (paragraph : List Char) : (linesAt face font width paragraph).flatten.filter (fun c => ! isSpace c) =
      (splitWords paragraph).flatten := by
    rw [(layout_linesAt face font width paragraph).visible _ (by decide), ← Wrapping.flatten_words]
    exact congrArg List.flatten (words_joinedSpaces paragraph)
  rw [wrapText_lines, splitWords, Wrapping.flatten_words, Wrapping.filter_intercalate _ newline_separates, words_lines]
  induction text.toList.splitOn '\n' with
  | nil => rfl
  | cons paragraph paragraphs ih => simp only [List.flatMap_cons, List.flatten_append, List.filter_append, each, ih]

theorem unbroken_wrapText {font : φ} {width : Int} {text : String} (fitting : WordsFit face font width text) :
    splitWords (wrapText face font width text).toList = splitWords text.toList := by
  rw [wrapText_lines, splitWords, Wrapping.words_intercalate _ newline_separates, words_lines, List.flatMap_assoc]
  apply List.flatMap_congr
  intro paragraph member
  rw [← words_joinedSpaces paragraph]
  apply (layout_linesAt face font width paragraph).words space_separates
  intro word listed beginning start letters
  by_cases blank : splitWords paragraph = []
  · rw [blank] at listed
    obtain rfl : word = [] := by simpa using listed
    exact absurd (List.prefix_nil.mp start) letters
  · rw [List.splitOn_intercalate _ (fun word member => (words_spelled paragraph word member).2) blank] at listed
    exact fitting word (by rw [words_lines]; exact List.mem_flatMap.mpr ⟨paragraph, member, listed⟩) beginning start letters

end Lines

section Sizes

theorem mem_fontSizes {size fontSize : Nat} : fontSize ∈ fontSizes size ↔ 10 ≤ fontSize ∧ fontSize ≤ size := by
  simp only [fontSizes, List.mem_map, List.mem_range]
  constructor
  · rintro ⟨step, bound, same⟩
    omega
  · rintro ⟨low, high⟩
    exact ⟨size - fontSize, by omega, by omega⟩

theorem fontSizes_descending (size : Nat) : (fontSizes size).Pairwise (· > ·) := by
  apply List.pairwise_map.mpr
  apply List.Pairwise.imp_of_mem _ List.pairwise_lt_range
  intro first second _ inside before
  have bound := List.mem_range.mp inside
  omega

/-- The first size that fits is the greatest. -/
theorem fitTextBox_eq_ok {box : Box Int} {text wrapped : String} {size : Nat} {font : φ}
    (fitted : fitTextBox face text (box.right - box.left) (box.bottom - box.top) size = .ok (wrapped, font)) :
    ∃ fontSize, 10 ≤ fontSize ∧ fontSize ≤ size ∧ font = face.loadFont fontSize ∧
      wrapped = wrapText face font (box.right - box.left) text ∧ Fits face box text fontSize ∧
      ∀ larger, fontSize < larger → larger ≤ size → ¬ Fits face box text larger := by
  unfold fitTextBox at fitted
  split at fitted
  · next fontSize found =>
    cases fitted
    obtain ⟨fits, before, after, split, earlier⟩ := List.find?_eq_some_iff_append.mp found
    have fitting := of_decide_eq_true fits
    have member : fontSize ∈ fontSizes size := by simp [split]
    obtain ⟨low, high⟩ := mem_fontSizes.mp member
    refine ⟨fontSize, low, high, rfl, rfl, fitting, ?_⟩
    intro larger greater bound
    have listed : larger ∈ before ++ fontSize :: after := split ▸ mem_fontSizes.mpr ⟨by omega, bound⟩
    have descending := fontSizes_descending size
    rw [split, List.pairwise_append, List.pairwise_cons] at descending
    rcases List.mem_append.mp listed with first | later
    · simpa [Fits] using earlier larger first
    · rcases List.mem_cons.mp later with same | later
      · omega
      · have below := descending.2.1.1 larger later
        omega
  · cases fitted

theorem fitTextBox_eq_error {box : Box Int} {text message : String} {size : Nat}
    (failed : fitTextBox face text (box.right - box.left) (box.bottom - box.top) size = .error message) :
    message = "print_capacity_exceeded" ∧ ∀ fontSize, 10 ≤ fontSize → fontSize ≤ size → ¬ Fits face box text fontSize := by
  unfold fitTextBox at failed
  split at failed
  · cases failed
  · next none =>
    cases failed
    refine ⟨rfl, ?_⟩
    intro fontSize low high
    simpa [Fits] using List.find?_eq_none.mp none fontSize (mem_fontSizes.mpr ⟨low, high⟩)

end Sizes

section Boxes

variable {box : Box Int} {text message : String} {size : Nat}

theorem drawTextBox_eq_none (drawn : drawTextBox face box text size = .ok none) : text = "" := by
  by_contra filled
  simp only [drawTextBox, filled, if_false, bind_eq_ok, pure_eq_ok] at drawn
  obtain ⟨_, -, impossible⟩ := drawn
  cases impossible

theorem drawTextBox_eq_some {drawing : Drawing φ} (drawn : drawTextBox face box text size = .ok (some drawing)) :
    text ≠ "" ∧ Printed face box text size drawing := by
  by_cases empty : text = ""
  · simp [drawTextBox, empty] at drawn
  · simp only [drawTextBox, empty, if_false, bind_eq_ok, pure_eq_ok, Option.some.injEq] at drawn
    obtain ⟨⟨wrapped, font⟩, fitted, rfl⟩ := drawn
    obtain ⟨fontSize, low, high, rfl, rfl, ⟨wide, tall⟩, larger⟩ := fitTextBox_eq_ok face fitted
    refine ⟨empty, ⟨fontSize, low, high, rfl, larger⟩, laidOut_wrapText face _ _ text, visible_wrapText face _ _ text,
      unbroken_wrapText face, ?_⟩
    push_cast at wide tall
    constructor <;> simp only [Drawing.ink, Box.translate, Box.map] <;> linarith

theorem drawTextBox_eq_error (failed : drawTextBox face box text size = .error message) :
    text ≠ "" ∧ message = "print_capacity_exceeded" ∧
      ∀ fontSize, 10 ≤ fontSize → fontSize ≤ size → ¬ Fits face box text fontSize := by
  by_cases empty : text = ""
  · simp [drawTextBox, empty] at failed
  · simp only [drawTextBox, empty, if_false, bind_eq_error] at failed
    rcases failed with fitted | ⟨_, _, impossible⟩
    · exact ⟨empty, fitTextBox_eq_error face fitted⟩
    · cases impossible

end Boxes

/-- A text is printed whole within its box, or no size at which it can be read fits. -/
theorem texts_printed (box : Box Int) (text : String) (size : Nat) :
    match drawTextBox face box text size with
    | .ok none => text = ""
    | .ok (some drawing) => text ≠ "" ∧ Printed face box text size drawing
    | .error message => text ≠ "" ∧ message = "print_capacity_exceeded" ∧
        ∀ fontSize, 10 ≤ fontSize → fontSize ≤ size → ¬ Fits face box text fontSize := by
  cases drawn : drawTextBox face box text size with
  | error message => exact drawTextBox_eq_error face drawn
  | ok drawing =>
    cases drawing with
    | none => exact drawTextBox_eq_none face drawn
    | some drawing => exact drawTextBox_eq_some face drawn

end Dagmar.Payloads.Proofs
