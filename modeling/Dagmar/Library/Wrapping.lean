import Mathlib.Data.List.Basic

/-! Greedy wrapping of words. Words are joined by blanks on a line for as long as the line
fits; a word that does not fit on a line is started on the next one, and is cut only there. -/

namespace Dagmar.Library.Wrapping

variable {α : Type}

/-- The finished lines and the line that is being filled. -/
structure Filling (α : Type) where
  lines : List (List α)
  line : List α

section Algorithm
variable (blank : α) (fits : List α → Bool)

def Filling.flush (filling : Filling α) : Filling α :=
  if filling.line = [] then filling else ⟨filling.lines ++ [filling.line], []⟩

def candidate (line word : List α) : List α := if line = [] then word else line ++ blank :: word

def placeCharacter (filling : Filling α) (c : α) : Filling α :=
  if filling.line ≠ [] ∧ ! fits (filling.line ++ [c]) then ⟨filling.lines ++ [filling.line], [c]⟩
  else ⟨filling.lines, filling.line ++ [c]⟩

def placeWord (filling : Filling α) (word : List α) : Filling α :=
  if fits (candidate blank filling.line word) then ⟨filling.lines, candidate blank filling.line word⟩
  else word.foldl (placeCharacter fits) filling.flush

def Filling.finished (filling : Filling α) : List (List α) := filling.lines ++ [filling.line]

def wrap (words : List (List α)) : List (List α) := (words.foldl (placeWord blank fits) ⟨[], []⟩).finished

/-- What a line holds followed by words that are still to be placed. -/
def joined (line : List α) (words : List (List α)) : List α := words.foldl (candidate blank) line

/-- A line fits, or holds a single character that nothing shorter could replace. -/
def Readable (line : List α) : Prop := fits line ∨ line.length ≤ 1

/-- The layouts of a text. A line ends before a word that would not have fit on it, and in place of
the blank; or in the middle of a word it holds alone, before a character that would not have fit. -/
inductive Layout : List α → List (List α) → Prop where
  | last {line : List α} : Readable fits line → Layout line [line]
  | turn {line word after : List α} {lines : List (List α)} : Readable fits line → blank ∉ word →
      (after ≠ [] → after.head? = some blank) → fits (line ++ blank :: word) = false →
      Layout (word ++ after) lines → Layout (line ++ blank :: (word ++ after)) (line :: lines)
  | cut {line rest : List α} {c : α} {lines : List (List α)} : Readable fits line → line ≠ [] →
      blank ∉ line → c ≠ blank → fits (line ++ [c]) = false →
      Layout (c :: rest) lines → Layout (line ++ c :: rest) (line :: lines)

end Algorithm

section Joining
variable {blank : α}

theorem joined_eq (line : List α) (words : List (List α)) (present : line ≠ []) :
    joined blank line words = line ++ words.flatMap (blank :: ·) := by
  induction words generalizing line with
  | nil => simp [joined]
  | cons word words ih =>
    have longer : candidate blank line word = line ++ blank :: word := by simp [candidate, present]
    have step := ih (line ++ blank :: word) (by simp)
    simpa [joined, longer] using step

theorem joined_nil_cons (word : List α) (words : List (List α)) :
    joined blank [] (word :: words) = joined blank word words := by
  simp [joined, candidate]

theorem joined_eq_intercalate (words : List (List α)) (spelled : ∀ word ∈ words, word ≠ []) :
    joined blank [] words = [blank].intercalate words := by
  cases words with
  | nil => rfl
  | cons word words =>
    rw [joined_nil_cons, joined_eq _ _ (spelled _ List.mem_cons_self)]
    clear spelled
    induction words generalizing word with
    | nil => simp [List.intercalate]
    | cons next words ih =>
      have step := ih next
      simp only [List.flatMap_cons, List.intercalate, List.intersperse_cons_cons, List.flatten_cons] at step ⊢
      rw [← step]
      simp

end Joining

section Running
variable {blank : α} {fits : List α → Bool}

/-- Finished lines are never touched again. -/
theorem placeCharacter_before (before lines : List (List α)) (line : List α) (c : α) :
    placeCharacter fits ⟨before ++ lines, line⟩ c =
      ⟨before ++ (placeCharacter fits ⟨lines, line⟩ c).lines, (placeCharacter fits ⟨lines, line⟩ c).line⟩ := by
  unfold placeCharacter
  split <;> simp_all

theorem placeCharacters_before (before lines : List (List α)) (line cs : List α) :
    cs.foldl (placeCharacter fits) ⟨before ++ lines, line⟩ =
      ⟨before ++ (cs.foldl (placeCharacter fits) ⟨lines, line⟩).lines,
        (cs.foldl (placeCharacter fits) ⟨lines, line⟩).line⟩ := by
  induction cs generalizing lines line with
  | nil => rfl
  | cons c cs ih => simp only [List.foldl_cons, placeCharacter_before, ih]

theorem placeWord_before (before lines : List (List α)) (line word : List α) :
    placeWord blank fits ⟨before ++ lines, line⟩ word =
      ⟨before ++ (placeWord blank fits ⟨lines, line⟩ word).lines, (placeWord blank fits ⟨lines, line⟩ word).line⟩ := by
  unfold placeWord
  split
  · rfl
  · unfold Filling.flush
    by_cases empty : line = []
    · simp only [empty, if_true]
      exact placeCharacters_before before lines [] word
    · simp only [empty, if_false, List.append_assoc]
      exact placeCharacters_before before (lines ++ [line]) [] word

theorem placeWords_before (before lines : List (List α)) (line : List α) (words : List (List α)) :
    (words.foldl (placeWord blank fits) ⟨before ++ lines, line⟩).finished =
      before ++ (words.foldl (placeWord blank fits) ⟨lines, line⟩).finished := by
  induction words generalizing lines line with
  | nil => simp [Filling.finished]
  | cons word words ih => simp only [List.foldl_cons, placeWord_before, ih]

/-- The lines of a filling that holds no finished line, with words to place. -/
def linesOf (blank : α) (fits : List α → Bool) (line : List α) (words : List (List α)) : List (List α) :=
  (words.foldl (placeWord blank fits) ⟨[], line⟩).finished

/-- The lines of a word that is placed character by character, and of the words after it. -/
def linesOfWord (blank : α) (fits : List α → Bool) (line cs : List α) (words : List (List α)) : List (List α) :=
  (words.foldl (placeWord blank fits) (cs.foldl (placeCharacter fits) ⟨[], line⟩)).finished

theorem linesOf_fitting (line word : List α) (words : List (List α)) (fitting : fits (candidate blank line word)) :
    linesOf blank fits line (word :: words) = linesOf blank fits (candidate blank line word) words := by
  simp [linesOf, placeWord, fitting]

theorem linesOf_wide (word : List α) (words : List (List α)) (wide : fits word = false) :
    linesOf blank fits [] (word :: words) = linesOfWord blank fits [] word words := by
  simp [linesOf, linesOfWord, placeWord, candidate, wide, Filling.flush]

theorem linesOf_turn (line word : List α) (words : List (List α)) (present : line ≠ [])
    (wide : fits (line ++ blank :: word) = false) :
    linesOf blank fits line (word :: words) = line :: linesOfWord blank fits [] word words := by
  have rest := @placeCharacters_before _ fits [line] [] [] word
  simp only [List.append_nil] at rest
  simp only [linesOf, linesOfWord, List.foldl_cons, placeWord, candidate, present, if_false, wide, Bool.false_eq_true,
    Filling.flush, List.nil_append, rest]
  exact placeWords_before [line] _ _ words

theorem linesOfWord_cut (line cs : List α) (c : α) (words : List (List α)) (present : line ≠ [])
    (wide : fits (line ++ [c]) = false) :
    linesOfWord blank fits line (c :: cs) words = line :: linesOfWord blank fits [c] cs words := by
  have rest := @placeCharacters_before _ fits [line] [] [c] cs
  simp only [List.append_nil] at rest
  simp only [linesOfWord, List.foldl_cons, placeCharacter, present, wide, ne_eq, not_false_eq_true, Bool.not_false,
    and_self, if_true, List.nil_append, rest]
  exact placeWords_before [line] _ _ words

theorem linesOfWord_fitting (line cs : List α) (c : α) (words : List (List α))
    (fitting : line = [] ∨ fits (line ++ [c]) = true) :
    linesOfWord blank fits line (c :: cs) words = linesOfWord blank fits (line ++ [c]) cs words := by
  have placed : placeCharacter fits ⟨[], line⟩ c = ⟨[], line ++ [c]⟩ := by
    unfold placeCharacter
    rcases fitting with empty | fitting <;> simp_all
  simp only [linesOfWord, List.foldl_cons, placed]

end Running

section Meaning
variable {blank : α} {fits : List α → Bool}

/-- Characters of a word, once the words after it are known to be laid out. -/
private theorem layout_word {words : List (List α)}
    (after : ∀ line, Readable fits line → line ≠ [] → Layout blank fits (joined blank line words) (linesOf blank fits line words))
    (cs line : List α) (readable : Readable fits line) (present : line ++ cs ≠ []) (plain : blank ∉ line ++ cs) :
    Layout blank fits (joined blank (line ++ cs) words) (linesOfWord blank fits line cs words) := by
  induction cs generalizing line with
  | nil =>
    simp only [List.append_nil] at present ⊢
    exact after line readable present
  | cons c cs ih =>
    by_cases fitting : line = [] ∨ fits (line ++ [c]) = true
    · rw [linesOfWord_fitting _ _ _ _ fitting]
      have longer : Readable fits (line ++ [c]) := by
        rcases fitting with empty | fitting
        · exact .inr (by simp [empty])
        · exact .inl fitting
      simpa using ih (line ++ [c]) longer (by simp) (by simpa using plain)
    · obtain ⟨present, wide⟩ := not_or.mp fitting
      have wide : fits (line ++ [c]) = false := by simpa using wide
      rw [linesOfWord_cut _ _ _ _ present wide]
      have rest := ih [c] (.inr (by simp)) (by simp) (fun member => plain (List.mem_append_right _ member))
      rw [joined_eq _ _ (by simp)] at rest ⊢
      simp only [List.append_assoc, List.cons_append, List.nil_append] at rest ⊢
      apply Layout.cut readable present _ _ wide rest
      · exact fun member => plain (List.mem_append_left _ member)
      · exact fun same => plain (by simp [same])

private theorem layout_words (words : List (List α)) (spelled : ∀ word ∈ words, word ≠ [] ∧ blank ∉ word) (line : List α)
    (readable : Readable fits line) :
    Layout blank fits (joined blank line words) (linesOf blank fits line words) := by
  induction words generalizing line with
  | nil => exact .last readable
  | cons word words ih =>
    obtain ⟨letters, plain⟩ := spelled word List.mem_cons_self
    have after := ih (fun later member => spelled later (List.mem_cons_of_mem _ member))
    by_cases fitting : fits (candidate blank line word)
    · rw [linesOf_fitting _ _ _ fitting]
      exact after _ (.inl fitting)
    · have wide : fits (candidate blank line word) = false := by simpa using fitting
      have whole := layout_word (fun line readable _ => after line readable) word [] (.inr (by simp)) letters plain
      by_cases empty : line = []
      · subst empty
        simp only [candidate, if_true] at wide
        simpa only [linesOf_wide _ _ wide, joined_nil_cons, List.nil_append] using whole
      · have wide : fits (line ++ blank :: word) = false := by simpa [candidate, empty] using wide
        rw [linesOf_turn _ _ _ empty wide, joined_eq _ _ empty]
        simp only [List.nil_append, joined_eq _ _ letters] at whole
        apply Layout.turn readable plain _ wide whole
        intro more
        cases words with
        | nil => exact absurd rfl more
        | cons next later => rfl

/-- Wrapping lays the words out. -/
theorem layout_wrap (words : List (List α)) (spelled : ∀ word ∈ words, word ≠ [] ∧ blank ∉ word) :
    Layout blank fits ([blank].intercalate words) (wrap blank fits words) := by
  have laid := @layout_words _ blank fits words spelled [] (.inr (by simp))
  rwa [joined_eq_intercalate words (fun word member => (spelled word member).1)] at laid

theorem Layout.readable {text : List α} {lines : List (List α)} (layout : Layout blank fits text lines) :
    ∀ line ∈ lines, Readable fits line := by
  induction layout with
  | last readable => simpa using readable
  | turn readable _ _ _ _ ih => exact List.forall_mem_cons.mpr ⟨readable, ih⟩
  | cut readable _ _ _ _ _ ih => exact List.forall_mem_cons.mpr ⟨readable, ih⟩

/-- Only blanks are left out, and nothing is moved. -/
theorem Layout.visible {text : List α} {lines : List (List α)} (layout : Layout blank fits text lines)
    (shown : α → Bool) (hidden : shown blank = false) : lines.flatten.filter shown = text.filter shown := by
  induction layout with
  | last => simp
  | turn _ _ _ _ _ ih =>
    simp only [List.flatten_cons, List.filter_append, ih, List.filter_cons, hidden, Bool.false_eq_true, if_false]
  | cut _ _ _ _ _ _ ih => simp only [List.flatten_cons, List.filter_append, ih]

theorem Layout.subset {text : List α} {lines : List (List α)} (layout : Layout blank fits text lines) :
    lines.flatten ⊆ text := by
  induction layout with
  | last => simp
  | turn _ _ _ _ _ ih =>
    apply List.append_subset.mpr
    exact ⟨List.subset_append_left _ _, fun c inside => List.mem_append_right _ (List.mem_cons_of_mem _ (ih inside))⟩
  | cut _ _ _ _ _ _ ih =>
    apply List.append_subset.mpr
    exact ⟨List.subset_append_left _ _, fun c inside => List.mem_append_right _ (ih inside)⟩

section Words
variable [BEq α] [LawfulBEq α]

private theorem splitOn_append_plain (blank : α) (beginning rest : List α) (plain : blank ∉ beginning) :
    (beginning ++ rest).splitOn blank = (rest.splitOn blank).modifyHead (beginning ++ ·) := by
  induction beginning with
  | nil =>
    simp only [List.nil_append]
    cases rest.splitOn blank <;> rfl
  | cons c beginning ih =>
    obtain ⟨other, plain⟩ := not_or.mp (mt List.mem_cons.mpr plain)
    have differs : (c == blank) = false := by simpa using Ne.symm other
    rw [List.cons_append, List.splitOn_cons_eq_if_modifyHead, differs, ih plain]
    cases rest.splitOn blank <;> simp

/-- Words all of whose beginnings fit on a line are not cut. -/
theorem Layout.unbroken {text : List α} {lines : List (List α)} (layout : Layout blank fits text lines)
    (fitting : ∀ word ∈ text.splitOn blank, ∀ beginning, beginning <+: word → beginning ≠ [] → fits beginning = true) :
    lines.flatMap (·.splitOn blank) = text.splitOn blank := by
  induction layout with
  | last => simp
  | @turn line word after lines _ _ _ _ _ ih =>
    rw [List.splitOn_append_cons_self] at fitting ⊢
    rw [List.flatMap_cons, ih (fun later member => fitting later (List.mem_append_right _ member))]
  | @cut line rest c lines _ present plain other wide _ _ =>
    have split := splitOn_append_plain blank (line ++ [c]) rest (by simp [plain, Ne.symm other])
    simp only [List.append_assoc, List.cons_append, List.nil_append] at split
    obtain ⟨word, words, first⟩ := List.exists_cons_of_ne_nil (List.splitOn_ne_nil blank rest)
    rw [first, List.modifyHead_cons] at split
    have fits := fitting (line ++ c :: word) (by simp [split]) (line ++ [c]) ⟨word, by simp⟩ (by simp)
    simp [wide] at fits

end Words

end Meaning

section Separated
variable (separates : α → Bool)

/-- The words between separators; nothing stands between two separators in a row. -/
def words (text : List α) : List (List α) := (text.splitOnP separates).filter fun word => ! word.isEmpty

variable {separates}

theorem words_append_cons (first rest : List α) {c : α} (separator : separates c) :
    words separates (first ++ c :: rest) = words separates first ++ words separates rest := by
  simp only [words, List.splitOnP_append_cons first rest separator, List.filter_append]

theorem words_intercalate (lines : List (List α)) {c : α} (separator : separates c) :
    words separates ([c].intercalate lines) = lines.flatMap (words separates) := by
  induction lines with
  | nil => simp [words]
  | cons line lines ih =>
    cases lines with
    | nil => simp
    | cons next lines =>
      rw [List.intercalate_cons_cons, List.append_assoc, List.singleton_append, words_append_cons _ _ separator, ih]
      exact List.flatMap_cons.symm

theorem filter_intercalate (lines : List (List α)) {c : α} (separator : separates c) :
    ([c].intercalate lines).filter (fun c => ! separates c) = lines.flatten.filter fun c => ! separates c := by
  induction lines with
  | nil => rfl
  | cons line lines ih =>
    cases lines with
    | nil => simp
    | cons next lines =>
      rw [List.intercalate_cons_cons, List.filter_append, List.filter_append, ih, List.flatten_cons, List.filter_append]
      simp [separator]

theorem words_plain {word : List α} (letters : word ≠ []) (plain : ∀ c ∈ word, separates c = false) :
    words separates word = [word] := by
  simp [words, List.splitOnP_eq_singleton plain, letters]

theorem mem_splitOnP_plain {text part : List α} (member : part ∈ text.splitOnP separates) : ∀ c ∈ part, separates c = false := by
  induction text generalizing part with
  | nil =>
    obtain rfl := List.mem_singleton.mp member
    nofun
  | cons first text ih =>
    rw [List.splitOnP_cons_eq_if_modifyHead] at member
    split at member
    · rcases List.mem_cons.mp member with rfl | later
      · nofun
      · exact ih later
    · next plain =>
      obtain ⟨word, parts, split⟩ := List.exists_cons_of_ne_nil (List.splitOnP_ne_nil separates text)
      rw [split, List.modifyHead_cons] at member
      rcases List.mem_cons.mp member with rfl | later
      · exact List.forall_mem_cons.mpr ⟨by simpa using plain, ih (by simp [split])⟩
      · exact ih (by simp [split, later])

theorem mem_words {text word : List α} (member : word ∈ words separates text) : word ≠ [] ∧ ∀ c ∈ word, separates c = false := by
  obtain ⟨part, filled⟩ := List.mem_filter.mp member
  exact ⟨by simpa using filled, mem_splitOnP_plain part⟩

theorem flatten_words (text : List α) : (words separates text).flatten = text.filter fun c => ! separates c := by
  have kept : (words separates text).flatten = (text.splitOnP separates).flatten := by
    simp only [words, List.flatten_filter_not_isEmpty]
  rw [kept]
  induction text with
  | nil => simp
  | cons first text ih =>
    obtain ⟨word, parts, split⟩ := List.exists_cons_of_ne_nil (List.splitOnP_ne_nil separates text)
    have step := ih (by simp [words, List.flatten_filter_not_isEmpty])
    rw [split] at step
    rw [List.splitOnP_cons_eq_if_modifyHead]
    by_cases separator : separates first
    · simpa [separator, split] using step
    · simpa [separator, split] using step

/-- The words of a text that is joined from words. -/
theorem words_joined (text : List α) {c : α} (separator : separates c) :
    words separates ([c].intercalate (words separates text)) = words separates text := by
  rw [words_intercalate _ separator]
  have same : ∀ word ∈ words separates text, words separates word = [word] :=
    fun word member => words_plain (mem_words member).1 (mem_words member).2
  rw [List.flatMap_congr same]
  exact List.flatMap_singleton' _

theorem length_splitOnP (text : List α) :
    (text.splitOnP separates).flatten.length + (text.splitOnP separates).length = text.length + 1 := by
  induction text with
  | nil => simp
  | cons first text ih =>
    obtain ⟨word, parts, split⟩ := List.exists_cons_of_ne_nil (List.splitOnP_ne_nil separates text)
    rw [List.splitOnP_cons_eq_if_modifyHead]
    rw [split] at ih ⊢
    split <;> simp at ih ⊢ <;> omega

theorem length_intercalate (c : α) (lines : List (List α)) :
    ([c].intercalate lines).length = lines.flatten.length + (lines.length - 1) := by
  induction lines with
  | nil => rfl
  | cons line lines ih =>
    cases lines with
    | nil => simp
    | cons next lines =>
      rw [List.intercalate_cons_cons, List.length_append, List.length_append, ih]
      simp
      omega

/-- Joining the words of a text does not make it longer. -/
theorem length_joined (text : List α) (c : α) : ([c].intercalate (words separates text)).length ≤ text.length := by
  have parts := @length_splitOnP _ separates text
  have present := List.length_pos_iff.mpr (List.splitOnP_ne_nil separates text)
  have fewer : (words separates text).length ≤ (text.splitOnP separates).length := List.length_filter_le _ _
  have kept : (words separates text).flatten = (text.splitOnP separates).flatten := by
    simp only [words, List.flatten_filter_not_isEmpty]
  rw [length_intercalate, kept]
  omega

/-- A layout that cuts no word has the words of its text. -/
theorem Layout.words [BEq α] [LawfulBEq α] {blank : α} {fits : List α → Bool} {text : List α} {lines : List (List α)}
    (layout : Layout blank fits text lines) (separator : separates blank)
    (fitting : ∀ word ∈ text.splitOn blank, ∀ beginning, beginning <+: word → beginning ≠ [] → fits beginning = true) :
    lines.flatMap (words separates) = Wrapping.words separates text := by
  have split (line : List α) : Wrapping.words separates line = (line.splitOn blank).flatMap (Wrapping.words separates) := by
    rw [← words_intercalate _ separator, List.intercalate_splitOn]
  rw [split text, ← layout.unbroken fitting, List.flatMap_assoc]
  exact List.flatMap_congr fun line _ => split line

end Separated

end Dagmar.Library.Wrapping
