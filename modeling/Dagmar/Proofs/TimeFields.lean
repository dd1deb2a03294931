import Dagmar.TimeInput
import Dagmar.Proofs.PlanTexts

/-! What the time field of the web client reads. It takes the first separator out
before it looks for the hour, so a text is read as written around its separator
only when that stands before the last two of three or four digits. -/

namespace Dagmar.Web.Proofs
open Dagmar.Proofs

section Grammar

def isSeparator (unit : UInt16) : Bool := unit = colon || unit = dot

def twoDigits (value : Nat) : JsString := [(0x30 + value / 10).toUInt16, (0x30 + value % 10).toUInt16]

/-- The time that the digits of an hour and of a minute name; no minute is a full hour. -/
def clock (hours minutes : JsString) : Option JsString :=
  if (hours ++ minutes).all isDigit ∧ number hours ≤ 23 ∧ number minutes ≤ 59
  then some (twoDigits (number hours) ++ [colon] ++ twoDigits (number minutes)) else none

/-- One or two digits are an hour, three or four an hour and a minute. -/
def unseparated : JsString → Option JsString
  | [h] => clock [h] []
  | [h, o] => clock [h, o] []
  | [h, m, i] => clock [h] [m, i]
  | [h, o, m, i] => clock [h, o] [m, i]
  | _ => none

/-- What the field is documented to read in a trimmed text. -/
def documented : JsString → Option JsString
  | [] => some []
  | [h, x, m, i] => if isSeparator x then clock [h] [m, i] else unseparated [h, x, m, i]
  | [h, o, x, m, i] => if isSeparator x then clock [h, o] [m, i] else none
  | text => unseparated text

/-- One separator, not between one or two digits and two more, whose digits without it name a time. -/
def Misplaced (text : JsString) : Prop :=
  ∃ left separator right, text = left ++ separator :: right ∧ isSeparator separator ∧
    ¬ ((left.length = 1 ∨ left.length = 2) ∧ right.length = 2) ∧ unseparated (left ++ right) ≠ none

theorem clock_digits {hours minutes out : JsString} (read : clock hours minutes = some out) :
    ∀ unit ∈ hours ++ minutes, isDigit unit := by
  rw [clock] at read
  split at read
  next fits => exact List.all_eq_true.mp fits.1
  next => cases read

theorem unseparated_digits {text : JsString} (read : unseparated text ≠ none) : ∀ unit ∈ text, isDigit unit := by
  obtain ⟨out, read⟩ := Option.ne_none_iff_exists'.mp read
  unfold unseparated at read
  split at read
  · exact clock_digits read
  · exact clock_digits read
  · exact clock_digits read
  · exact clock_digits read
  · cases read

theorem digit_not_separator {unit : UInt16} (digit : isDigit unit) : ¬ isSeparator unit := by
  intro separator
  simp only [isSeparator, Bool.or_eq_true, decide_eq_true_eq] at separator
  rcases separator with rfl | rfl <;> revert digit <;> decide

theorem unseparated_plain {text : JsString} (read : unseparated text ≠ none) : ∀ unit ∈ text, ¬ isSeparator unit :=
  fun unit member => digit_not_separator (unseparated_digits read unit member)

theorem documented_plain {text : JsString} (plain : ∀ unit ∈ text, ¬ isSeparator unit) (some' : text ≠ []) :
    documented text = unseparated text := by
  unfold documented
  split
  · exact absurd rfl some'
  next h x m i => rw [if_neg (plain x (by simp))]
  next h o x m i =>
    rw [if_neg (plain x (by simp))]
    rfl
  · rfl

/-- A text with one separator is read around it, and otherwise not at all. -/
theorem documented_separated {left right : JsString} {separator : UInt16} (mark : isSeparator separator)
    (plain : ∀ unit ∈ left, ¬ isSeparator unit) (plain' : ∀ unit ∈ right, ¬ isSeparator unit) :
    documented (left ++ separator :: right) =
      if (left.length = 1 ∨ left.length = 2) ∧ right.length = 2 then unseparated (left ++ right) else none := by
  have unread : unseparated (left ++ separator :: right) = none := by
    by_contra read
    exact unseparated_plain read separator (by simp) mark
  by_cases placed : (left.length = 1 ∨ left.length = 2) ∧ right.length = 2
  · rw [if_pos placed]
    obtain ⟨hour, minute⟩ := placed
    obtain ⟨m, i, rfl⟩ := List.length_eq_two.mp minute
    rcases hour with one | two
    · obtain ⟨h, rfl⟩ := List.length_eq_one_iff.mp one
      simp [documented, mark, unseparated]
    · obtain ⟨h, o, rfl⟩ := List.length_eq_two.mp two
      simp [documented, mark, unseparated]
  · rw [if_neg placed]
    generalize same : left ++ separator :: right = text at unread
    unfold documented
    split
    · simp at same
    next h x m i =>
      split
      next marked =>
        match left, same with
        | [], same =>
          obtain ⟨rfl, rfl⟩ := List.cons.inj same
          exact absurd marked (plain' x (by simp))
        | [first], same =>
          obtain ⟨rfl, rest⟩ := List.cons.inj same
          obtain ⟨rfl, rfl⟩ := List.cons.inj rest
          exact absurd ⟨.inl rfl, rfl⟩ placed
        | first :: second :: left, same =>
          obtain ⟨rfl, rest⟩ := List.cons.inj same
          obtain ⟨rfl, -⟩ := List.cons.inj rest
          exact absurd marked (plain second (by simp))
      next => exact unread
    next h o x m i =>
      split
      next marked =>
        match left, same with
        | [], same =>
          obtain ⟨rfl, rfl⟩ := List.cons.inj same
          exact absurd marked (plain' x (by simp))
        | [first], same =>
          obtain ⟨rfl, rest⟩ := List.cons.inj same
          obtain ⟨rfl, rfl⟩ := List.cons.inj rest
          exact absurd marked (plain' x (by simp))
        | [first, second], same =>
          obtain ⟨-, rest⟩ := List.cons.inj same
          obtain ⟨-, rest⟩ := List.cons.inj rest
          obtain ⟨rfl, rfl⟩ := List.cons.inj rest
          exact absurd ⟨.inr rfl, rfl⟩ placed
        | first :: second :: third :: left, same =>
          obtain ⟨-, rest⟩ := List.cons.inj same
          obtain ⟨-, rest⟩ := List.cons.inj rest
          obtain ⟨rfl, -⟩ := List.cons.inj rest
          exact absurd marked (plain third (by simp))
      next => rfl
    · exact unread

end Grammar

section Reading

/-- The digits left when a separator is taken out, read by their number alone. -/
def compact (text : JsString) : JsString := replaceFirst colon [] (replaceFirst dot [colon] text)

def readDigits (digits : JsString) : Option JsString :=
  if ¬ (digits.all isDigit ∧ 1 ≤ digits.length ∧ digits.length ≤ 4) then none
  else
    let hour := if digits.length ≤ 2 then number digits else number (digits.take (digits.length - 2))
    let minute := if digits.length ≤ 2 then 0 else number (digits.drop (digits.length - 2))
    if 23 < hour ∨ 59 < minute then none
    else some (padStart 2 0x30 (decimalText hour) ++ [colon] ++ padStart 2 0x30 (decimalText minute))

theorem padStart_two {value : Nat} (small : value ≤ 59) : padStart 2 0x30 (decimalText value) = twoDigits value := by
  have all : ∀ value ≤ 59, padStart 2 0x30 (decimalText value) = twoDigits value := by decide
  exact all value small

theorem readDigits_eq (digits : JsString) : readDigits digits = unseparated digits := by
  have split' (digits hours minutes : JsString) (whole : digits = hours ++ minutes) (short : 1 ≤ digits.length ∧ digits.length ≤ 4) :
      (if ¬ (digits.all isDigit ∧ 1 ≤ digits.length ∧ digits.length ≤ 4) then none
        else if 23 < number hours ∨ 59 < number minutes then none
        else some (padStart 2 0x30 (decimalText (number hours)) ++ [colon] ++ padStart 2 0x30 (decimalText (number minutes)))) =
        clock hours minutes := by
    subst whole
    rw [clock]
    by_cases numbers : (hours ++ minutes).all isDigit
    · rw [if_neg (not_not.mpr ⟨numbers, short⟩)]
      by_cases fits : number hours ≤ 23 ∧ number minutes ≤ 59
      · rw [if_neg (by omega), if_pos ⟨numbers, fits⟩, padStart_two (by omega), padStart_two fits.2]
      · rw [if_pos (by omega), if_neg fun both => fits both.2]
    · rw [if_pos fun both => numbers both.1, if_neg fun both => numbers both.1]
  rw [readDigits]
  match digits with
  | [] => rfl
  | [h] => exact split' [h] [h] [] rfl (by simp)
  | [h, o] => exact split' [h, o] [h, o] [] rfl (by simp)
  | [h, m, i] => exact split' [h, m, i] [h] [m, i] rfl (by simp)
  | [h, o, m, i] => exact split' [h, o, m, i] [h, o] [m, i] rfl (by simp)
  | _ :: _ :: _ :: _ :: _ :: _ =>
    rw [if_pos (by simp)]
    rfl

theorem replaceFirst_absent {unit : UInt16} {other text : JsString} (absent : unit ∉ text) : replaceFirst unit other text = text := by
  induction text with
  | nil => rfl
  | cons first text ih =>
    obtain ⟨different, absent⟩ := List.ne_and_not_mem_of_not_mem_cons absent
    rw [replaceFirst, if_neg (Ne.symm different), ih absent]

theorem replaceFirst_append {unit : UInt16} {other left right : JsString} (absent : unit ∉ left) :
    replaceFirst unit other (left ++ unit :: right) = left ++ other ++ right := by
  induction left with
  | nil => simp [replaceFirst]
  | cons first left ih =>
    obtain ⟨different, absent⟩ := List.ne_and_not_mem_of_not_mem_cons absent
    rw [List.cons_append, replaceFirst, if_neg (Ne.symm different), ih absent, List.cons_append, List.cons_append]

/-- Taking the first occurrence out leaves all marks but one. -/
theorem countP_replaceFirst {unit : UInt16} {other : JsString} (text : JsString) :
    text.countP isSeparator ≤ (replaceFirst unit other text).countP isSeparator + 1 := by
  induction text with
  | nil => simp
  | cons first text ih =>
    rw [replaceFirst]
    split
    · rw [List.countP_append, List.countP_cons]
      split <;> omega
    · rw [List.countP_cons, List.countP_cons]
      omega

theorem countP_replaceDot (text : JsString) : (replaceFirst dot [colon] text).countP isSeparator = text.countP isSeparator := by
  induction text with
  | nil => rfl
  | cons first text ih =>
    rw [replaceFirst]
    split
    next same =>
      subst same
      have marks : [colon].countP isSeparator = [dot].countP isSeparator := by decide
      rw [List.countP_append, marks, ← List.countP_append]
      rfl
    · rw [List.countP_cons, List.countP_cons, ih]

theorem compact_plain {text : JsString} (plain : ∀ unit ∈ text, ¬ isSeparator unit) : compact text = text := by
  have noDot : dot ∉ text := fun member => plain dot member rfl
  have noColon : colon ∉ text := fun member => plain colon member rfl
  rw [compact, replaceFirst_absent noDot, replaceFirst_absent noColon]

theorem compact_separated {left right : JsString} {separator : UInt16} (mark : isSeparator separator)
    (plain : ∀ unit ∈ left, ¬ isSeparator unit) (plain' : ∀ unit ∈ right, ¬ isSeparator unit) :
    compact (left ++ separator :: right) = left ++ right := by
  have noDot : dot ∉ left := fun member => plain dot member rfl
  have noColon : colon ∉ left := fun member => plain colon member rfl
  have toColon : replaceFirst dot [colon] (left ++ separator :: right) = left ++ colon :: right := by
    simp only [isSeparator, Bool.or_eq_true, decide_eq_true_eq] at mark
    rcases mark with rfl | rfl
    · apply replaceFirst_absent
      intro member
      rcases List.mem_append.mp member with member | member
      · exact noDot member
      · rcases List.mem_cons.mp member with same | member
        · revert same
          decide
        · exact plain' dot member rfl
    · rw [replaceFirst_append noDot, List.append_assoc]
      rfl
  rw [compact, toColon, replaceFirst_append noColon, List.append_nil]

theorem normalizeTimeInput_eq {raw : JsString} (some' : trim raw ≠ []) :
    normalizeTimeInput raw = unseparated (compact (trim raw)) := by
  have value : replaceFirst dot [colon] (trim raw) ≠ [] := by
    cases shape : trim raw with
    | nil => exact absurd shape some'
    | cons first rest =>
      rw [replaceFirst]
      split <;> simp
  rw [← readDigits_eq, normalizeTimeInput, if_neg value]
  rfl

/-- Of a text that is read without its separator the place of the separator is known. -/
theorem separated_inj {left left' right right' : JsString} {separator separator' : UInt16} (mark : isSeparator separator)
    (mark' : isSeparator separator') (plain : ∀ unit ∈ left, ¬ isSeparator unit) (plain' : ∀ unit ∈ left', ¬ isSeparator unit)
    (same : left ++ separator :: right = left' ++ separator' :: right') : left = left' ∧ right = right' := by
  induction left generalizing left' with
  | nil =>
    cases left' with
    | nil => exact ⟨rfl, (List.cons.inj same).2⟩
    | cons first left' =>
      obtain ⟨rfl, -⟩ := List.cons.inj same
      exact absurd mark (plain' separator List.mem_cons_self)
  | cons first left ih =>
    cases left' with
    | nil =>
      obtain ⟨rfl, -⟩ := List.cons.inj same
      exact absurd mark' (plain first List.mem_cons_self)
    | cons first' left' =>
      obtain ⟨rfl, rest⟩ := List.cons.inj same
      obtain ⟨rfl, rfl⟩ := ih (fun unit member => plain unit (List.mem_cons_of_mem _ member))
        (fun unit member => plain' unit (List.mem_cons_of_mem _ member)) rest
      exact ⟨rfl, rfl⟩

/-- A text has no separator, one, or more. -/
theorem separators (text : JsString) : (∀ unit ∈ text, ¬ isSeparator unit) ∨
    (∃ left separator right, text = left ++ separator :: right ∧ isSeparator separator ∧
      (∀ unit ∈ left, ¬ isSeparator unit) ∧ ∀ unit ∈ right, ¬ isSeparator unit) ∨ 2 ≤ text.countP isSeparator := by
  induction text with
  | nil => exact .inl (by simp)
  | cons first text ih =>
    by_cases mark : isSeparator first
    · rcases ih with plain | ⟨left, separator, right, rfl, mark', -, -⟩ | many
      · exact .inr (.inl ⟨[], first, text, rfl, mark, by simp, plain⟩)
      · refine .inr (.inr ?_)
        simp only [List.countP_cons, List.countP_append, if_pos mark, if_pos mark']
        omega
      · exact .inr (.inr (by rw [List.countP_cons]; omega))
    · rcases ih with plain | ⟨left, separator, right, rfl, mark', plain, plain'⟩ | many
      · exact .inl (List.forall_mem_cons.mpr ⟨mark, plain⟩)
      · exact .inr (.inl ⟨first :: left, separator, right, rfl, mark', List.forall_mem_cons.mpr ⟨mark, plain⟩, plain'⟩)
      · exact .inr (.inr (by rw [List.countP_cons]; omega))

theorem countP_plain {text : JsString} (plain : ∀ unit ∈ text, ¬ isSeparator unit) : text.countP isSeparator = 0 :=
  List.countP_eq_zero.mpr plain

/-- With several separators a text is not read, and is not documented to be. -/
theorem many_unread {text : JsString} (many : 2 ≤ text.countP isSeparator) :
    unseparated (compact text) = none ∧ documented text = none ∧ ¬ Misplaced text := by
  refine ⟨?_, ?_, ?_⟩
  · by_contra read
    have left := @countP_replaceFirst colon [] (replaceFirst dot [colon] text)
    rw [countP_replaceDot, ← compact, countP_plain (unseparated_plain read)] at left
    omega
  · by_contra read
    have plain (hours minutes : JsString) (read : clock hours minutes ≠ none) : (hours ++ minutes).countP isSeparator = 0 := by
      obtain ⟨out, read⟩ := Option.ne_none_iff_exists'.mp read
      exact countP_plain fun unit member => digit_not_separator (clock_digits read unit member)
    have single (unit : UInt16) : (if isSeparator unit then 1 else 0) ≤ 1 := by split <;> omega
    unfold documented at read
    split at read
    · simp at many
    next h x m i =>
      split at read
      · have digits := plain [h] [m, i] read
        have one := single x
        simp only [List.countP_cons, List.countP_nil, List.cons_append, List.nil_append] at many digits
        omega
      · rw [countP_plain (unseparated_plain read)] at many
        omega
    next h o x m i =>
      split at read
      · have digits := plain [h, o] [m, i] read
        have one := single x
        simp only [List.countP_cons, List.countP_nil, List.cons_append, List.nil_append] at many digits
        omega
      · exact read rfl
    · rw [countP_plain (unseparated_plain read)] at many
      omega
  · rintro ⟨left, separator, right, rfl, mark, -, read⟩
    have := countP_plain (unseparated_plain read)
    simp only [List.countP_append, List.countP_cons, if_pos mark] at this many
    omega

/-- A text is read as documented unless its separator is misplaced. -/
theorem documented_iff {text : JsString} (some' : text ≠ []) : unseparated (compact text) = documented text ↔ ¬ Misplaced text := by
  rcases separators text with plain | ⟨left, separator, right, rfl, mark, plain, plain'⟩ | many
  · rw [compact_plain plain, documented_plain plain some']
    refine iff_of_true rfl ?_
    rintro ⟨left, separator, right, rfl, mark, -⟩
    exact plain separator (by simp) mark
  · rw [compact_separated mark plain plain', documented_separated mark plain plain']
    by_cases placed : (left.length = 1 ∨ left.length = 2) ∧ right.length = 2
    · rw [if_pos placed]
      refine iff_of_true rfl ?_
      rintro ⟨left', separator', right', same, mark', misplaced, read⟩
      obtain ⟨rfl, rfl⟩ := separated_inj mark mark' plain
        (fun unit member => unseparated_plain read unit (List.mem_append_left _ member)) same
      exact misplaced placed
    · rw [if_neg placed]
      constructor
      · intro unread misplaced
        obtain ⟨left', separator', right', same, mark', -, read⟩ := misplaced
        obtain ⟨rfl, rfl⟩ := separated_inj mark mark' plain
          (fun unit member => unseparated_plain read unit (List.mem_append_left _ member)) same
        exact read unread
      · intro placed'
        by_contra read
        exact placed' ⟨left, separator, right, rfl, mark, placed, read⟩
  · obtain ⟨unread, undocumented, placed⟩ := many_unread many
    rw [unread, undocumented]
    exact iff_of_true rfl placed

end Reading

section Outputs

theorem twoDigits_spec {value : Nat} (small : value ≤ 59) :
    (twoDigits value).all isDigit ∧ number (twoDigits value) = value ∧ (∀ unit ∈ twoDigits value, ¬ isSpace unit) ∧
      ((twoDigits value).map fun unit => ascii? (Char.ofNat unit.toNat)) = [some (value / 10), some (value % 10)] := by
  have all : ∀ value ≤ 59, (twoDigits value).all isDigit ∧ number (twoDigits value) = value ∧
      (twoDigits value).all (fun unit => !isSpace unit) ∧
      ((twoDigits value).map fun unit => ascii? (Char.ofNat unit.toNat)) = [some (value / 10), some (value % 10)] := by decide
  obtain ⟨digits, counts, full, read⟩ := all value small
  refine ⟨digits, counts, fun unit member => ?_, read⟩
  simpa using List.all_eq_true.mp full unit member

/-- What is read is a time written in full. -/
theorem unseparated_out {text out : JsString} (read : unseparated text = some out) :
    ∃ hour minute, hour ≤ 23 ∧ minute ≤ 59 ∧ out = twoDigits hour ++ [colon] ++ twoDigits minute := by
  have written (hours minutes : JsString) (read : clock hours minutes = some out) :
      ∃ hour minute, hour ≤ 23 ∧ minute ≤ 59 ∧ out = twoDigits hour ++ [colon] ++ twoDigits minute := by
    rw [clock] at read
    split at read
    next fits => exact ⟨_, _, fits.2.1, fits.2.2, (Option.some.inj read).symm⟩
    next => cases read
  unfold unseparated at read
  split at read
  · exact written _ _ read
  · exact written _ _ read
  · exact written _ _ read
  · exact written _ _ read
  · cases read

theorem trim_full {hour minute : Nat} (early : hour ≤ 59) (short : minute ≤ 59) :
    trim (twoDigits hour ++ [colon] ++ twoDigits minute) = twoDigits hour ++ [colon] ++ twoDigits minute := by
  have first := (twoDigits_spec early).2.2.1
  have last := (twoDigits_spec short).2.2.1
  simp only [twoDigits, List.forall_mem_cons] at first last
  simp only [trim, twoDigits, List.cons_append, List.nil_append]
  rw [List.dropWhile_cons_of_neg first.1]
  simp only [List.reverse_cons, List.reverse_nil, List.nil_append, List.cons_append]
  rw [List.dropWhile_cons_of_neg last.2.1]
  rfl

theorem normalizeTimeInput_again {hour minute : Nat} (early : hour ≤ 23) (short : minute ≤ 59) :
    normalizeTimeInput (twoDigits hour ++ [colon] ++ twoDigits minute) = some (twoDigits hour ++ [colon] ++ twoDigits minute) := by
  obtain ⟨digits, value, -⟩ := twoDigits_spec (show hour ≤ 59 by omega)
  obtain ⟨digits', value', -⟩ := twoDigits_spec short
  have plain : ∀ unit ∈ twoDigits hour, ¬ isSeparator unit :=
    fun unit member => digit_not_separator (List.all_eq_true.mp digits unit member)
  have plain' : ∀ unit ∈ twoDigits minute, ¬ isSeparator unit :=
    fun unit member => digit_not_separator (List.all_eq_true.mp digits' unit member)
  have read : unseparated (twoDigits hour ++ twoDigits minute) = clock (twoDigits hour) (twoDigits minute) := rfl
  rw [normalizeTimeInput_eq (by rw [trim_full (by omega) short]; simp), trim_full (by omega) short, List.append_assoc,
    List.singleton_append, compact_separated rfl plain plain', read, clock, if_pos, value, value', List.append_assoc]
  · rfl
  · rw [List.all_append, digits, digits', value, value']
    exact ⟨rfl, early, short⟩

theorem documentedClock_full {hour minute : Nat} (early : hour ≤ 23) (short : minute ≤ 59) :
    documentedClock (JsString.text (twoDigits hour ++ [colon] ++ twoDigits minute)).toList := by
  have read := (twoDigits_spec (show hour ≤ 59 by omega)).2.2.2
  have read' := (twoDigits_spec short).2.2.2
  simp only [twoDigits, List.map_cons, List.map_nil, List.cons.injEq, and_true] at read read'
  have mark : Char.ofNat colon.toNat = ':' := rfl
  simp only [JsString.text, twoDigits, List.cons_append, List.nil_append, List.map_cons, List.map_nil, String.toList_ofList,
    mark, documentedClock, read.1, read.2, read'.1, read'.2, decide_eq_true_eq]
  omega

/-- The field reads a text as documented exactly when its separator is not misplaced; what it gives is
read again as it is, and the service takes it. -/
theorem time_input_reads (raw : JsString) :
    (normalizeTimeInput raw = documented (trim raw) ∧ ∀ out, normalizeTimeInput raw = some out →
      normalizeTimeInput out = some out ∧
        (out ≠ [] → (normalizeHhmmOrNone (some out.text)).map (·.map ClockTime.text) = some (some out.text))) ↔
      ¬ Misplaced (trim raw) := by
  by_cases blank : trim raw = []
  · have read : normalizeTimeInput raw = some [] := by
      rw [normalizeTimeInput, blank]
      rfl
    rw [read, blank]
    refine iff_of_true ⟨rfl, ?_⟩ ?_
    · intro out given
      obtain rfl := Option.some.inj given
      exact ⟨rfl, fun given => absurd rfl given⟩
    · rintro ⟨left, separator, right, same, -⟩
      simp at same
  · rw [normalizeTimeInput_eq blank, documented_iff blank, and_iff_left_iff_imp]
    rintro - out read
    obtain ⟨hour, minute, early, short, rfl⟩ := unseparated_out read
    refine ⟨normalizeTimeInput_again early short, fun _ => ?_⟩
    have clockText := documentedClock_full early short
    rw [(normalizeHhmmOrNone_iff _).mpr]
    · have mark := (isClock_length (documentedClock_iff.mp clockText).1).2
      rw [documentedTime, if_neg (colon_not_blank mark), if_pos clockText]
    · rintro text ⟨rfl⟩
      exact documented_not_loose clockText

/-- One minute written with one digit: the field reads twelve o'clock. -/
theorem short_minute_misread : normalizeTimeInput [0x31, colon, 0x32] = some [0x31, 0x32, colon, 0x30, 0x30] ∧
    documented (trim [0x31, colon, 0x32]) = none := by decide

end Outputs

end Dagmar.Web.Proofs
