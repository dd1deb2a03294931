import Mathlib.Data.List.Basic

/-! What has happened, the latest first. -/

namespace Dagmar.Library

universe u v
variable {α : Type u}

/-- The second entry was added after the first. -/
def Since : List α → α → α → Prop
  | [], _, _ => False
  | entry :: history, first, second => entry = second ∧ first ∈ history ∨ Since history first second

theorem Since.mem {history : List α} {first second : α} (since : Since history first second) : first ∈ history := by
  induction history with
  | nil => cases since
  | cons entry history ih =>
    rcases since with ⟨-, member⟩ | later
    · exact List.mem_cons_of_mem _ member
    · exact List.mem_cons_of_mem _ (ih later)

theorem Since.of_append {entries history : List α} {first second : α} (since : Since (entries ++ history) first second) :
    second ∈ entries ∨ Since history first second := by
  induction entries with
  | nil => exact .inr since
  | cons entry entries ih =>
    rcases since with ⟨rfl, -⟩ | later
    · exact .inl List.mem_cons_self
    · exact (ih later).imp_left (List.mem_cons_of_mem _)

/-- Every entry is justified by what had happened before it. -/
def Lawful (justified : List α → α → Prop) : List α → Prop
  | [] => True
  | entry :: history => justified history entry ∧ Lawful justified history

/-- The history as it was when an entry was added. -/
theorem Lawful.before {justified : List α → α → Prop} {history : List α} {entry : α} (lawful : Lawful justified history)
    (member : entry ∈ history) : ∃ earlier, Lawful justified earlier ∧ justified earlier entry ∧
      (∀ other ∈ earlier, Since history other entry) ∧ ∀ first second, Since earlier first second → Since history first second := by
  induction history with
  | nil => cases member
  | cons first history ih =>
    obtain ⟨now, past⟩ := lawful
    rcases List.mem_cons.mp member with same | inside
    · subst same
      exact ⟨history, past, now, fun other earlier => .inl ⟨rfl, earlier⟩, fun _ _ since => .inr since⟩
    · obtain ⟨earlier, lawful, holds, order, longer⟩ := ih past inside
      exact ⟨earlier, lawful, holds, fun other happened => .inr (order other happened),
        fun one two since => .inr (longer one two since)⟩

/-- What came before an entry is in the history that justified it. -/
theorem Lawful.of_since {justified : List α → α → Prop} {history : List α} {first entry : α} (lawful : Lawful justified history)
    (since : Since history first entry) : ∃ earlier, justified earlier entry ∧ first ∈ earlier := by
  induction history with
  | nil => cases since
  | cons latest history ih =>
    obtain ⟨now, past⟩ := lawful
    rcases since with ⟨same, member⟩ | before
    · exact ⟨history, same ▸ now, member⟩
    · exact ih past before

/-- A justified entry is about something that no earlier entry is about. -/
def Fresh {β : Type v} (justified : List α → α → Prop) (about : α → Option β) : Prop :=
  ∀ earlier entry, Lawful justified earlier → justified earlier entry → ∀ other ∈ earlier, ∀ subject ∈ about entry,
    about other ≠ some subject

theorem Lawful.once {β : Type v} {justified : List α → α → Prop} {about : α → Option β} {history : List α}
    (lawful : Lawful justified history) (fresh : Fresh justified about) :
    (history.filterMap about).Nodup := by
  induction history with
  | nil => exact List.nodup_nil
  | cons entry history ih =>
    obtain ⟨now, past⟩ := lawful
    cases named : about entry with
    | none =>
      rw [List.filterMap_cons_none named]
      exact ih past
    | some subject =>
      rw [List.filterMap_cons_some named]
      refine List.nodup_cons.mpr ⟨?_, ih past⟩
      intro again
      obtain ⟨other, earlier, same⟩ := List.mem_filterMap.mp again
      exact fresh history entry past now other earlier subject named same

/-- Entries about the same thing are the same entry. -/
theorem Lawful.alone {β : Type v} {justified : List α → α → Prop} {about : α → Option β} {history : List α}
    (lawful : Lawful justified history) (fresh : Fresh justified about) {first second : α} (one : first ∈ history) (two : second ∈ history) {subject : β} (named : about first = some subject)
    (same : about second = some subject) : first = second := by
  induction history with
  | nil => cases one
  | cons entry history ih =>
    obtain ⟨now, past⟩ := lawful
    rcases List.mem_cons.mp one with this | before
    · rcases List.mem_cons.mp two with that | earlier
      · rw [this, that]
      · subst this
        exact absurd same (fresh history first past now second earlier subject named)
    · rcases List.mem_cons.mp two with that | earlier
      · subst that
        exact absurd named (fresh history second past now first before subject same)
      · exact ih past before earlier

end Dagmar.Library
