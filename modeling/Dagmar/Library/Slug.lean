import Mathlib.Data.List.Chain
import Mathlib.Data.List.DropRight
import Mathlib.Logic.Relation

/-! Texts over an alphabet with separators. A text is read by replacing foreign characters, taking doubled
separators once and dropping separators at the ends; it has one reading that no further step changes. -/

namespace Dagmar.Library.Slug

variable {α : Type}

section Runs

/-- Each run of characters of a class becomes one `replacement`. -/
def subRuns (pattern : α → Bool) (replacement : α) : List α → List α
  | [] => []
  | c :: text =>
    if pattern c then
      if text.head?.any pattern then subRuns pattern replacement text else replacement :: subRuns pattern replacement text
    else c :: subRuns pattern replacement text

variable {pattern : α → Bool} {replacement : α}

theorem mem_subRuns {text : List α} {c : α} (member : c ∈ subRuns pattern replacement text) :
    c = replacement ∨ (c ∈ text ∧ ¬ pattern c) := by
  induction text with
  | nil => cases member
  | cons d text held =>
    have later (member : c ∈ subRuns pattern replacement text) : c = replacement ∨ (c ∈ d :: text ∧ ¬ pattern c) :=
      (held member).imp_right fun kept => ⟨List.mem_cons_of_mem d kept.1, kept.2⟩
    unfold subRuns at member
    split at member
    · split at member
      · exact later member
      · rcases List.mem_cons.mp member with replaced | member
        · exact .inl replaced
        · exact later member
    · rename_i kept
      rcases List.mem_cons.mp member with rfl | member
      · exact .inr ⟨List.mem_cons_self, kept⟩
      · exact later member

variable [DecidableEq α]

/-- Each run of one character becomes that character. -/
def collapse (c : α) : List α → List α := subRuns (· == c) c

theorem head?_collapse (c : α) (text : List α) : (collapse c text).head? = text.head? := by
  induction text with
  | nil => rfl
  | cons d text held =>
    unfold collapse subRuns
    by_cases same : d = c
    · subst same
      rw [if_pos (beq_self_eq_true d)]
      split
      · rename_i repeated
        obtain ⟨first, starts, same⟩ := (Option.any_eq_true _ _).mp repeated
        rw [← collapse, held, starts, beq_iff_eq.mp same]
        rfl
      · rfl
    · rw [if_neg (by simpa using same)]
      rfl

theorem isChain_collapse {R : α → α → Prop} (c : α) {text : List α} (chain : text.IsChain R) : (collapse c text).IsChain R := by
  induction text with
  | nil => exact .nil
  | cons d text held =>
    obtain ⟨front, rest⟩ := List.isChain_cons.mp chain
    have kept : (d :: collapse c text).IsChain R := List.isChain_cons.mpr ⟨by rwa [head?_collapse], held rest⟩
    unfold collapse subRuns
    by_cases same : d = c
    · subst same
      rw [if_pos (beq_self_eq_true d)]
      split
      · exact held rest
      · exact kept
    · rw [if_neg (by simpa using same)]
      exact kept

theorem single_collapse (c : α) (text : List α) : (collapse c text).IsChain fun d e => ¬ (d = c ∧ d = e) := by
  induction text with
  | nil => exact .nil
  | cons d text held =>
    have kept (apart : d ≠ c ∨ ¬ text.head? = some c) : (d :: collapse c text).IsChain fun d e => ¬ (d = c ∧ d = e) := by
      refine List.isChain_cons.mpr ⟨?_, held⟩
      intro first starts same
      rw [head?_collapse, Option.mem_def] at starts
      rcases apart with other | other
      · exact other same.1
      · exact other (by rw [starts, ← same.2, same.1])
    unfold collapse subRuns
    by_cases same : d = c
    · subst same
      rw [if_pos (beq_self_eq_true d)]
      split
      · exact held
      · rename_i ended
        exact kept (.inr fun starts => ended (by simp [starts]))
    · rw [if_neg (by simpa using same)]
      exact kept (.inl same)

end Runs

/-- The plain characters, with the separators among them; one of these stands for every foreign character. -/
structure Alphabet (α : Type) where
  plain : α → Bool
  separator : α → Bool
  filler : α
  filler_separator : separator filler
  separator_plain : ∀ c, separator c → plain c

namespace Alphabet

section Readings
variable (alphabet : Alphabet α)

inductive Inner : List α → List α → Prop where
  | foreign (left right : List α) (c : α) :
      ¬ alphabet.plain c → Inner (left ++ c :: right) (left ++ alphabet.filler :: right)
  | doubled (left right : List α) (c : α) :
      alphabet.separator c → Inner (left ++ c :: c :: right) (left ++ c :: right)

inductive Step : List α → List α → Prop where
  | inner {text next : List α} : alphabet.Inner text next → Step text next
  | leading (right : List α) (c : α) : alphabet.separator c → Step (c :: right) right
  | trailing (left : List α) (c : α) : alphabet.separator c → Step (left ++ [c]) left

/-- What remains of a text when no step applies any more. -/
def IsReading (text final : List α) : Prop :=
  Relation.ReflTransGen alphabet.Step text final ∧ ∀ next, ¬ alphabet.Step final next

end Readings

section Marks
variable (alphabet : Alphabet α)

def mark (c : α) : α := if alphabet.plain c then c else alphabet.filler

def trim (text : List α) : List α := (text.dropWhile alphabet.separator).rdropWhile alphabet.separator

variable {alphabet}

theorem mark_plain (c : α) : alphabet.plain (alphabet.mark c) := by
  unfold mark
  split
  · assumption
  · exact alphabet.separator_plain _ alphabet.filler_separator

theorem mark_of_plain {c : α} (plain : alphabet.plain c) : alphabet.mark c = c := if_pos plain

theorem mark_separator {c : α} (separator : alphabet.separator c) : alphabet.mark c = c :=
  mark_of_plain (alphabet.separator_plain c separator)

theorem inner_cons (c : α) {text next : List α} (step : alphabet.Inner text next) : alphabet.Inner (c :: text) (c :: next) := by
  cases step with
  | foreign left right d strange => exact .foreign (c :: left) right d strange
  | doubled left right d separator => exact .doubled (c :: left) right d separator

theorem trim_concat {c : α} (separator : alphabet.separator c) (text : List α) :
    alphabet.trim (text ++ [c]) = alphabet.trim text := by
  rw [trim, trim, List.dropWhile_append]
  split
  · rename_i gone
    rw [List.isEmpty_iff.mp gone]
    simp [separator]
  · exact List.rdropWhile_concat_pos _ _ _ separator

theorem trim_steps (text : List α) : Relation.ReflTransGen alphabet.Step text (alphabet.trim text) := by
  have front : Relation.ReflTransGen alphabet.Step text (text.dropWhile alphabet.separator) := by
    induction text with
    | nil => exact .refl
    | cons c text held =>
      rw [List.dropWhile_cons]
      split
      · rename_i separator
        exact .head (.leading text c separator) held
      · exact .refl
  have back (text : List α) : Relation.ReflTransGen alphabet.Step text (text.rdropWhile alphabet.separator) := by
    induction text using List.reverseRecOn with
    | nil => exact .refl
    | append_singleton text c held =>
      rw [List.rdropWhile_concat]
      split
      · rename_i separator
        exact .head (.trailing text c separator) held
      · exact .refl
  exact front.trans (back _)

/-- Plain characters, no separator twice in a row and none at the ends. -/
theorem trim_final {text : List α} (plain : ∀ c ∈ text, alphabet.plain c)
    (single : text.IsChain fun c d => ¬ (alphabet.separator c ∧ c = d)) (next : List α) :
    ¬ alphabet.Step (alphabet.trim text) next := by
  have inside : alphabet.trim text <:+: text :=
    (List.rdropWhile_prefix _ _).isInfix.trans (List.dropWhile_suffix _).isInfix
  have kept := List.IsChain.infix single inside
  intro step
  generalize shown : alphabet.trim text = final at step inside kept
  cases step with
  | inner step =>
    cases step with
    | foreign left right c strange => exact strange (plain c (inside.subset (by simp)))
    | doubled left right c separator => exact (List.isChain_append_cons_cons.mp kept).2.1 ⟨separator, rfl⟩
  | leading right c separator =>
    have front : c :: next <+: text.dropWhile alphabet.separator := by
      rw [← shown]
      exact List.rdropWhile_prefix _ _
    obtain ⟨rest, starts⟩ := front
    have dropped := List.dropWhile_idempotent alphabet.separator text
    rw [← starts, List.cons_append, List.dropWhile_cons_of_pos separator] at dropped
    have shorter := (List.dropWhile_suffix alphabet.separator (l := next ++ rest)).length_le
    rw [dropped, List.length_cons] at shorter
    omega
  | trailing left c separator =>
    have dropped := List.rdropWhile_idempotent alphabet.separator (text.dropWhile alphabet.separator)
    change (alphabet.trim text).rdropWhile _ = alphabet.trim text at dropped
    rw [shown, List.rdropWhile_concat_pos _ _ _ separator] at dropped
    have shorter := (List.rdropWhile_prefix alphabet.separator next).length_le
    rw [dropped, List.length_append, List.length_singleton] at shorter
    omega

end Marks

section Squashing
variable [DecidableEq α] (alphabet : Alphabet α)

/-- A character in front of a text that is squashed already. -/
def push (c : α) (text : List α) : List α :=
  if alphabet.separator (alphabet.mark c) ∧ text.head? = some (alphabet.mark c) then text else alphabet.mark c :: text

def squash (text : List α) : List α := text.foldr alphabet.push []

variable {alphabet}

theorem head?_push (c : α) (text : List α) : (alphabet.push c text).head? = some (alphabet.mark c) := by
  unfold push
  split
  · rename_i merged
    exact merged.2
  · rfl

theorem push_push {c d : α} (separator : alphabet.separator (alphabet.mark c)) (same : alphabet.mark c = alphabet.mark d)
    (text : List α) : alphabet.push c (alphabet.push d text) = alphabet.push d text :=
  if_pos ⟨separator, by rw [head?_push, same]⟩

theorem push_congr {c d : α} (same : alphabet.mark c = alphabet.mark d) : alphabet.push c = alphabet.push d := by
  funext text
  rw [push, push, same]

/-- A separator at the end stays at the end, or is lost in the one before it. -/
theorem squash_concat {c : α} (separator : alphabet.separator c) (text : List α) :
    alphabet.squash (text ++ [c]) = alphabet.squash text ∨ alphabet.squash (text ++ [c]) = alphabet.squash text ++ [c] := by
  induction text with
  | nil =>
    right
    simp [squash, push, mark_separator separator]
  | cons d text held =>
    change alphabet.push d (alphabet.squash (text ++ [c])) = alphabet.push d (alphabet.squash text) ∨
      alphabet.push d (alphabet.squash (text ++ [c])) = alphabet.push d (alphabet.squash text) ++ [c]
    rcases held with same | appended
    · left
      rw [same]
    · rw [appended]
      cases alphabet.squash text with
      | nil =>
        by_cases merged : alphabet.mark d = c
        · left
          simp [push, merged, separator]
        · right
          simp [push, Ne.symm merged]
      | cons first rest =>
        right
        by_cases merged : alphabet.separator (alphabet.mark d) ∧ some first = some (alphabet.mark d)
        · have kept (tail : List α) : alphabet.push d (first :: tail) = first :: tail := if_pos merged
          rw [kept, List.cons_append, kept]
        · have added (tail : List α) : alphabet.push d (first :: tail) = alphabet.mark d :: first :: tail := if_neg merged
          rw [added, List.cons_append, added]
          rfl

theorem squash_inner {text next : List α} (step : alphabet.Inner text next) : alphabet.squash text = alphabet.squash next := by
  unfold squash
  cases step with
  | foreign left right c strange =>
    have marked : alphabet.mark c = alphabet.mark alphabet.filler := by
      rw [mark_separator alphabet.filler_separator]
      exact if_neg strange
    rw [List.foldr_append, List.foldr_append, List.foldr_cons, List.foldr_cons, push_congr marked]
  | doubled left right c separator =>
    rw [List.foldr_append, List.foldr_append, List.foldr_cons, List.foldr_cons, push_push _ rfl]
    rwa [mark_separator separator]

/-- No step changes what is left at the end. -/
theorem trim_squash_step {text next : List α} (step : alphabet.Step text next) :
    alphabet.trim (alphabet.squash text) = alphabet.trim (alphabet.squash next) := by
  cases step with
  | inner step => rw [squash_inner step]
  | leading right c separator =>
    change alphabet.trim (alphabet.push c (alphabet.squash next)) = _
    unfold push
    split
    · rfl
    · rw [mark_separator separator, trim, List.dropWhile_cons_of_pos separator]
      rfl
  | trailing left c separator =>
    rcases squash_concat separator next with same | appended
    · rw [same]
    · rw [appended, trim_concat separator]

theorem plain_squash (text : List α) : ∀ c ∈ alphabet.squash text, alphabet.plain c := by
  induction text with
  | nil => simp [squash]
  | cons d text held =>
    change ∀ c ∈ alphabet.push d (alphabet.squash text), _
    intro c member
    unfold push at member
    split at member
    · exact held c member
    · rcases List.mem_cons.mp member with rfl | member
      · exact mark_plain d
      · exact held c member

theorem single_squash (text : List α) : (alphabet.squash text).IsChain fun c d => ¬ (alphabet.separator c ∧ c = d) := by
  induction text with
  | nil => exact .nil
  | cons d text held =>
    change (alphabet.push d (alphabet.squash text)).IsChain _
    unfold push
    split
    · exact held
    · rename_i apart
      refine List.isChain_cons.mpr ⟨?_, held⟩
      intro first starts same
      exact apart ⟨same.1, by rw [Option.mem_def.mp starts, same.2]⟩

theorem squash_steps (text : List α) : Relation.ReflTransGen alphabet.Inner text (alphabet.squash text) := by
  induction text with
  | nil => exact .refl
  | cons c text held =>
    have rest : Relation.ReflTransGen alphabet.Inner (c :: text) (c :: alphabet.squash text) :=
      held.lift (c :: ·) fun _ _ => inner_cons c
    have marked : Relation.ReflTransGen alphabet.Inner (c :: alphabet.squash text) (alphabet.mark c :: alphabet.squash text) := by
      unfold mark
      split
      · exact .refl
      · rename_i strange
        exact .single (.foreign [] _ c strange)
    apply (rest.trans marked).trans
    change Relation.ReflTransGen _ _ (alphabet.push c (alphabet.squash text))
    unfold push
    split
    · rename_i merged
      obtain ⟨first, left, starts⟩ := List.exists_cons_of_ne_nil (List.ne_nil_of_mem (List.mem_of_head? merged.2))
      rw [starts] at merged ⊢
      obtain rfl := Option.some.inj merged.2
      exact .single (.doubled [] left _ merged.1)
    · exact .refl

/-- Every text has one reading, and it can be computed. -/
theorem isReading_iff {text final : List α} : alphabet.IsReading text final ↔ alphabet.trim (alphabet.squash text) = final := by
  have steps (text : List α) : Relation.ReflTransGen alphabet.Step text (alphabet.trim (alphabet.squash text)) :=
    ((squash_steps text).lift id fun _ _ => Step.inner).trans (trim_steps _)
  constructor
  · intro ⟨reads, stuck⟩
    have kept : alphabet.trim (alphabet.squash text) = alphabet.trim (alphabet.squash final) := by
      clear stuck
      induction reads with
      | refl => rfl
      | tail _ step held => exact held.trans (trim_squash_step step)
    rcases (steps final).cases_head with same | ⟨next, step, -⟩
    · rw [kept, ← same]
    · exact absurd step (stuck next)
  · intro computed
    subst computed
    exact ⟨steps text, trim_final (plain_squash text) (single_squash text)⟩

theorem trim_squash {text : List α} (plain : ∀ c ∈ text, alphabet.plain c)
    (single : text.IsChain fun c d => ¬ (alphabet.separator c ∧ c = d)) :
    alphabet.trim (alphabet.squash text) = alphabet.trim text :=
  isReading_iff.mp ⟨trim_steps text, trim_final plain single⟩

theorem squash_subRuns {pattern : α → Bool} {replacement : α} (separator : alphabet.separator replacement)
    (marked : ∀ c, pattern c → alphabet.mark c = replacement) (text : List α) :
    alphabet.squash (subRuns pattern replacement text) = alphabet.squash text := by
  induction text with
  | nil => rfl
  | cons c text held =>
    change _ = alphabet.push c (alphabet.squash text)
    unfold subRuns
    split
    · rename_i matched
      split
      · rename_i repeated
        cases text with
        | nil => cases repeated
        | cons d text =>
          have both : alphabet.mark c = alphabet.mark d := by rw [marked c matched, marked d (by simpa using repeated)]
          rw [held]
          exact (push_push (by rwa [marked c matched]) both _).symm
      · change alphabet.push replacement (alphabet.squash _) = _
        have both : alphabet.mark replacement = alphabet.mark c := by rw [mark_separator separator, marked c matched]
        rw [held, push_congr both]
    · change alphabet.push c (alphabet.squash _) = _
      rw [held]

end Squashing

end Alphabet

end Dagmar.Library.Slug
