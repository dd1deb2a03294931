import Dagmar.BulkExport
import Dagmar.Proofs.ExportedFacts

/-! The entries of the bulk archive have one name each exactly when no two exported
employments are shown under names that read alike. -/

namespace Dagmar.AdminExport.Proofs
open Library Library.Calendar Library.Outcome Library.Slug Integration Payloads Payloads.Proofs Dagmar.Proofs

section Readings

/-- Lower-case letters, digits and the two separators; every other character reads as `_`. -/
def fileNames : Alphabet Char where
  plain := isAllowed
  separator := isSeparator
  filler := '_'
  filler_separator := by decide
  separator_plain := by
    intro c separator
    simp only [isSeparator, isAllowed, decide_eq_true_eq] at separator ⊢
    exact .inr (.inr separator)

/-- A shown name without the spaces around it, its diacritics and its capitals. -/
def folded (unicode : Unicode) (value : String) : List Char := (unicode.lower (stripDiacritics unicode (strip value))).toList

/-- The first eighty characters, without a separator at their end. -/
def beginning (final : List Char) : List Char := orInstance ((final.take 80).rdropWhile isSeparator)

/-- The two names have readings that begin alike. -/
def ReadAlike (unicode : Unicode) (first second : String) : Prop :=
  ∃ left right, fileNames.IsReading (folded unicode first) left ∧ fileNames.IsReading (folded unicode second) right ∧
    beginning left = beginning right

end Readings

section Slugs
variable {unicode : Unicode}

theorem space_foreign {c : Char} (space : isSpace c) : ¬ isAllowed c := by
  have foreign : ∀ code ∈ [0x9, 0xa, 0xb, 0xc, 0xd, 0x1c, 0x1d, 0x1e, 0x1f, 0x20, 0x85, 0xa0, 0x1680, 0x2000, 0x2001, 0x2002,
      0x2003, 0x2004, 0x2005, 0x2006, 0x2007, 0x2008, 0x2009, 0x200a, 0x2028, 0x2029, 0x202f, 0x205f, 0x3000],
      ¬ isAllowed (Char.ofNat code) := by decide
  have outside := foreign c.toNat (of_decide_eq_true space)
  rwa [Char.ofNat_toNat] at outside

theorem mark_foreign {c : Char} (foreign : ¬ isAllowed c) : fileNames.mark c = '_' := if_neg foreign

theorem mark_same {c d : Char} (separator : isSeparator d) (same : (c == d) = true) : fileNames.mark c = d := by
  rw [beq_iff_eq.mp same]
  exact @Alphabet.mark_separator Char fileNames d separator

/-- What `slugify_filename` trims: the text after its substitutions. -/
def substituted (text : List Char) : List Char :=
  collapse '-' (collapse '_' (subRuns (fun c => ! isAllowed c) '_' (subRuns isSpace '_' text)))

theorem squash_substituted (text : List Char) : fileNames.squash (substituted text) = fileNames.squash text := by
  have underscore : isSeparator '_' := by decide
  have dash : isSeparator '-' := by decide
  calc fileNames.squash (substituted text)
      = fileNames.squash (collapse '_' (subRuns (fun c => ! isAllowed c) '_' (subRuns isSpace '_' text))) :=
        Alphabet.squash_subRuns dash (fun c same => mark_same dash same) _
    _ = fileNames.squash (subRuns (fun c => ! isAllowed c) '_' (subRuns isSpace '_' text)) :=
        Alphabet.squash_subRuns underscore (fun c same => mark_same underscore same) _
    _ = fileNames.squash (subRuns isSpace '_' text) :=
        Alphabet.squash_subRuns underscore (fun c foreign => mark_foreign (by simpa using foreign)) _
    _ = fileNames.squash text :=
        Alphabet.squash_subRuns underscore (fun c space => mark_foreign (space_foreign space)) _

theorem allowed_substituted (text : List Char) : ∀ c ∈ substituted text, isAllowed c := by
  have collapsed {d : Char} (allowed : isAllowed d) {text : List Char} (before : ∀ c ∈ text, isAllowed c) :
      ∀ c ∈ collapse d text, isAllowed c := by
    intro c member
    rcases mem_subRuns member with rfl | kept
    · exact allowed
    · exact before c kept.1
  apply collapsed (by decide)
  apply collapsed (by decide)
  intro c member
  rcases mem_subRuns member with rfl | kept
  · decide
  · simpa using kept.2

theorem single_substituted (text : List Char) :
    (substituted text).IsChain fun c d => ¬ (isSeparator c ∧ c = d) := by
  have underscores := isChain_collapse '-' (single_collapse '_' (subRuns (fun c => ! isAllowed c) '_' (subRuns isSpace '_' text)))
  have dashes := single_collapse '-' (collapse '_' (subRuns (fun c => ! isAllowed c) '_' (subRuns isSpace '_' text)))
  rw [List.isChain_iff_forall_rel_of_append_cons_cons] at underscores dashes ⊢
  intro c d before after split repeated
  have separator : c = '_' ∨ c = '-' := by simpa [isSeparator] using repeated.1
  rcases separator with underscore | dash
  · exact underscores split ⟨underscore, repeated.2⟩
  · exact dashes split ⟨dash, repeated.2⟩

/-- The stem of a file name is the beginning of the reading of its text. -/
theorem filenameSafe_eq {value : String} {final : List Char} (reading : fileNames.IsReading (folded unicode value) final) :
    filenameSafe unicode (some value) = String.ofList (beginning final) := by
  have trimmed : fileNames.trim (substituted (folded unicode value)) = final := by
    rw [← Alphabet.isReading_iff.mp reading, ← squash_substituted]
    exact (Alphabet.trim_squash (allowed_substituted _) (single_substituted _)).symm
  have ended : final.rdropWhile isSeparator = final := by
    rw [← trimmed]
    exact List.rdropWhile_idempotent _ _
  change String.ofList (shortened 80 (orInstance (fileNames.trim (substituted (folded unicode value))))) = _
  rw [trimmed, beginning]
  congr 1
  by_cases empty : final = []
  · subst empty
    decide
  · have kept : orInstance final = final := if_neg empty
    rw [kept]
    by_cases long : 80 < final.length
    · exact if_pos ⟨by decide, long⟩
    · rw [List.take_of_length_le (Nat.le_of_not_lt long), ended, kept]
      exact if_neg fun cut => long cut.2

theorem filenameSafe_eq_iff {first second : String} :
    filenameSafe unicode (some first) = filenameSafe unicode (some second) ↔ ReadAlike unicode first second := by
  have reading (value : String) := (@Alphabet.isReading_iff Char _ fileNames (folded unicode value) _).mpr rfl
  have left := reading first
  have right := reading second
  constructor
  · intro same
    rw [filenameSafe_eq left, filenameSafe_eq right] at same
    exact ⟨_, _, left, right, String.ofList_injective same⟩
  · intro ⟨_, _, left, right, same⟩
    rw [filenameSafe_eq left, filenameSafe_eq right, same]

end Slugs

section Archives
variable {unicode : Unicode} {zone : Zone} {view : View} {month name : String} {employmentId : Option Int} {bulk : Option Bool}
  {entries : List (String × String)} {start finish : Int}

theorem entryName_eq_iff {first second : Employment} :
    entryName unicode view month first = entryName unicode view month second ↔
      ReadAlike unicode (employmentDisplayName view first) (employmentDisplayName view second) := by
  rw [← filenameSafe_eq_iff]
  constructor
  · intro same
    apply String.toList_inj.mp
    have characters := congrArg String.toList same
    simpa [entryName] using characters
  · intro same
    rw [entryName, entryName, same]

theorem zip_entries (exported : exportCsvOrZip unicode zone view month employmentId bulk = .ok (.zip name entries)) :
    ∃ start finish, monthRange month = .ok (start, finish) ∧
      (loadRelevantEmployments zone view start finish).mapM (zipEntry unicode zone view month start) = some entries := by
  simp only [exportCsvOrZip, bind_eq_ok] at exported
  obtain ⟨⟨start, finish⟩, range, _, -, rest⟩ := exported
  refine ⟨start, finish, range, ?_⟩
  split at rest
  · simp only [bind_eq_ok, pure_eq_ok] at rest
    obtain ⟨_, -, _, -, _, -, _, -, _, -, other⟩ := rest
    cases other
  · simp only [bind_eq_ok, pure_eq_ok, require_eq_ok] at rest
    obtain ⟨found, loaded, _, -, same⟩ := rest
    cases same
    exact loaded

/-- The archive holds the CSV of each relevant employment, in their order. The names of its entries are distinct exactly
when no two of these employments have display names that read alike. -/
theorem bulk_names (exported : exportCsvOrZip unicode zone view month employmentId bulk = .ok (.zip name entries)) :
    ∃ start finish, monthRange month = .ok (start, finish) ∧
      List.Forall₂ (fun employment entry => csvForEmployment zone view employment start = some entry.2)
        (loadRelevantEmployments zone view start finish) entries ∧
      ((entries.map Prod.fst).Nodup ↔ (loadRelevantEmployments zone view start finish).Pairwise fun first second =>
        ¬ ReadAlike unicode (employmentDisplayName view first) (employmentDisplayName view second)) := by
  obtain ⟨start, finish, range, loaded⟩ := zip_entries exported
  have written := mapM_forall₂ loaded
  have named : entries.map Prod.fst = (loadRelevantEmployments zone view start finish).map (entryName unicode view month) := by
    apply Eq.symm
    rw [← List.forall₂_eq_eq_eq, List.forall₂_map_left_iff, List.forall₂_map_right_iff]
    apply written.imp
    intro employment entry made
    obtain ⟨content, -, rfl⟩ := Option.map_eq_some_iff.mp made
    rfl
  refine ⟨start, finish, range, ?_, ?_⟩
  · apply written.imp
    intro employment entry made
    obtain ⟨content, text, rfl⟩ := Option.map_eq_some_iff.mp made
    exact text
  · rw [named, List.Nodup, List.pairwise_map]
    apply iff_of_eq
    congr
    funext first second
    rw [Ne, entryName_eq_iff]

end Archives

section Samples

/-- On names in ASCII. -/
def sampleUnicode : Unicode := ⟨id, fun _ => false, fun text => String.ofList (text.toList.map Char.toLower)⟩

/-- Two people of one name, each with one employment. -/
def namesakes : Db :=
  Db.blank ⟨[⟨1, true, some "instance"⟩, ⟨2, true, some "instance"⟩], by simp⟩
    ⟨[sampleEmployment, { sampleEmployment with id := 2, userId := 2 }], by simp [sampleEmployment]⟩ 3

def twoTitles (id : Int) : String := if id = 1 then "Recepce" else "Sklad"

def namesakesView (title : Int → String) : View := ⟨sampleClock, namesakes, ⟨title, fun _ => "Jan Novak", fun _ => 0⟩⟩

def zipNames (outcome : Api Exported) : Option (List String) :=
  match outcome with
  | .ok (.zip _ entries) => some (entries.map Prod.fst)
  | _ => none

theorem zipNames_eq_some {outcome : Api Exported} {names : List String} (shown : zipNames outcome = some names) :
    ∃ name entries, outcome = .ok (.zip name entries) ∧ entries.map Prod.fst = names := by
  unfold zipNames at shown
  split at shown
  · rename_i name entries
    exact ⟨name, entries, rfl, Option.some.inj shown⟩
  · cases shown

/-- Titles tell the two apart. -/
theorem sample_bulk_names : ∃ name entries start finish,
    exportCsvOrZip sampleUnicode sampleZone (namesakesView twoTitles) "2026-08" none (some true) = .ok (.zip name entries) ∧
    ((entries.map Prod.fst).Nodup ↔
      (loadRelevantEmployments sampleZone (namesakesView twoTitles) start finish).Pairwise fun first second =>
        ¬ ReadAlike sampleUnicode (employmentDisplayName (namesakesView twoTitles) first)
          (employmentDisplayName (namesakesView twoTitles) second)) := by
  have shown : zipNames (exportCsvOrZip sampleUnicode sampleZone (namesakesView twoTitles) "2026-08" none (some true)) =
      some ["jan_novak_-_dpp_dpc_-_recepce_2026-08.csv", "jan_novak_-_dpp_dpc_-_sklad_2026-08.csv"] := by decide +kernel
  obtain ⟨name, entries, exported, -⟩ := zipNames_eq_some shown
  obtain ⟨start, finish, -, -, distinct⟩ := bulk_names exported
  exact ⟨name, entries, start, finish, exported, distinct⟩

/-- With one title, the second entry has the name of the first. -/
theorem namesakes_share_name : ∃ name entries,
    exportCsvOrZip sampleUnicode sampleZone (namesakesView fun _ => "Recepce") "2026-08" none (some true) = .ok (.zip name entries) ∧
    ¬ (entries.map Prod.fst).Nodup := by
  have shown : zipNames (exportCsvOrZip sampleUnicode sampleZone (namesakesView fun _ => "Recepce") "2026-08" none (some true)) =
      some ["jan_novak_-_dpp_dpc_-_recepce_2026-08.csv", "jan_novak_-_dpp_dpc_-_recepce_2026-08.csv"] := by decide +kernel
  obtain ⟨name, entries, exported, names⟩ := zipNames_eq_some shown
  refine ⟨name, entries, exported, ?_⟩
  rw [names]
  simp

end Samples

end Dagmar.AdminExport.Proofs
