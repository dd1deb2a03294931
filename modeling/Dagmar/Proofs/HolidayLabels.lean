import Dagmar.HolidayCalendars
import Dagmar.Library.Computus

/-! Easter as the services and the browser compute it is the Easter of the Gregorian computus, and
both give a date the same Czech holiday. -/

namespace Dagmar.Proofs
open Library.Calendar Library.Computus

section Easter
variable {year : Int}

/-- The moon's motion in the formula is that of the table. -/
theorem lunar_eq (century : Int) : (century - (century + 8) / 25 + 1) / 3 = (8 * century + 13) / 25 := by omega

/-- `h` is the age of the moon. -/
theorem moonAge_eq (year : Int) :
    (19 * (year % 19) + year / 100 - year / 100 / 4 - (year / 100 - (year / 100 + 8) / 25 + 1) / 3 + 15) % 30 = moonAge year := by
  rw [lunar_eq, moonAge, epact, goldenNumber, solarEquation, lunarEquation]
  omega

/-- The days from the day after the moon's until a Sunday. -/
def untilSunday (year : Int) : Int :=
  (32 + 2 * (year / 100 % 4) + 2 * (year % 100 / 4) - moonAge year - year % 100 % 4) % 7

theorem moonAge_bounds (year : Int) : 0 ≤ moonAge year ∧ moonAge year < 30 := by
  rw [moonAge]
  omega

theorem untilSunday_bounds (year : Int) : 0 ≤ untilSunday year ∧ untilSunday year < 7 := by
  rw [untilSunday]
  omega

/-- What the year adds to the days of the week, `untilSunday` takes away. -/
theorem sunday_untilSunday (year : Int) : IsSunday (ordinal year 3 (22 + moonAge year + untilSunday year)) := by
  have century : year / 100 = 4 * (year / 100 / 4) + year / 100 % 4 := by omega
  have leaps : year / 4 = 25 * (year / 100) + year % 100 / 4 := by omega
  have reforms : year / 400 = year / 100 / 4 := by omega
  have years : year = 100 * (year / 100) + (4 * (year % 100 / 4) + year % 100 % 4) := by omega
  obtain ⟨weeks, days⟩ : ∃ weeks, untilSunday year =
      32 + 2 * (year / 100 % 4) + 2 * (year % 100 / 4) - moonAge year - year % 100 % 4 - 7 * weeks :=
    ⟨_, by rw [untilSunday, Int.emod_def]⟩
  have total : ordinal year 3 (22 + moonAge year + untilSunday year) = 7 * (20871 * (year / 100 / 4) +
      5218 * (year / 100 % 4) + 209 * (year % 100 / 4) + 52 * (year % 100 % 4) - 36 - weeks) := by
    rw [ordinal_march, days, leaps, reforms]
    omega
  rw [IsSunday, weekday, total]
  omega

/-- The correction with 451: Easter is a week earlier when the moved moon is full on the day before a Sunday. -/
def correction (year : Int) : Int := (year % 19 + 11 * moonAge year + 22 * untilSunday year) / 451

theorem correction_eq (year : Int) : correction year = if Moved year ∧ untilSunday year = 6 then 1 else 0 := by
  have age := moonAge_bounds year
  have days := untilSunday_bounds year
  rw [correction]
  split
  next early =>
    simp only [Moved, goldenNumber] at early
    omega
  next late =>
    simp only [Moved, goldenNumber] at late
    omega

/-- The day of Easter, counted from the first of March. -/
def easterDay (year : Int) : Int := 22 + moonAge year + untilSunday year - 7 * correction year

theorem easterDay_week (year : Int) : paschalDay year < easterDay year ∧ easterDay year ≤ paschalDay year + 7 := by
  have age := moonAge_bounds year
  have days := untilSunday_bounds year
  have moon := paschalDay_cases year
  have corrected := correction_eq year
  rw [easterDay]
  by_cases early : Moved year ∧ untilSunday year = 6
  · rw [if_pos early] at corrected
    have moved := moon.resolve_right fun kept => kept.1 early.1
    omega
  · rw [if_neg early] at corrected
    rcases moon with moved | kept
    · have other : untilSunday year ≠ 6 := fun sunday => early ⟨moved.1, sunday⟩
      omega
    · omega

theorem easterDay_bounds (year : Int) : 22 ≤ easterDay year ∧ easterDay year ≤ 56 := by
  have week := easterDay_week year
  have moon := paschalDay_bounds year
  omega

theorem isEaster_easterDay (year : Int) : IsEaster year (ordinal year 3 (easterDay year)) := by
  have week := easterDay_week year
  apply isEaster_of_week _ week.1 week.2
  have sunday := sunday_untilSunday year
  rw [IsSunday, weekday, ordinal_march] at sunday ⊢
  rw [easterDay]
  omega

/-- The last line of the formula turns the day into one of March or April. -/
theorem easterMonthDay_eq (year : Int) :
    easterMonthDay year = if easterDay year ≤ 31 then (3, easterDay year) else (4, easterDay year - 31) := by
  have bounds := easterDay_bounds year
  have value : moonAge year + untilSunday year - 7 * correction year + 114 = easterDay year + 92 := by
    rw [easterDay]
    omega
  have parts : easterMonthDay year = (((easterDay year + 92) / 31).toNat, (easterDay year + 92) % 31 + 1) := by
    rw [← value, correction, untilSunday, ← moonAge_eq]
    rfl
  rw [parts]
  split
  next march =>
    rw [Prod.mk.injEq]
    omega
  next april =>
    rw [Prod.mk.injEq]
    omega

theorem ordinal_easterMonthDay (year : Int) :
    ordinal year (easterMonthDay year).1 (easterMonthDay year).2 = ordinal year 3 (easterDay year) := by
  rw [easterMonthDay_eq]
  split
  · rfl
  · simp only [ordinal, daysBeforeMonth, daysInMonth]
    norm_num
    omega

theorem easterSunday_march (year : Int) : easterSunday year = ordinal year 3 (easterDay year) := by
  rw [easterSunday_eq, ordinal_easterMonthDay]

/-- Only the year can be refused. -/
theorem easterSunday?_eq (year : Int) :
    easterSunday? year = if 1 ≤ year ∧ year ≤ 9999 then some (easterSunday year) else none := by
  have bounds := easterDay_bounds year
  have valid : 1 ≤ (easterMonthDay year).1 ∧ (easterMonthDay year).1 ≤ 12 ∧ 1 ≤ (easterMonthDay year).2 ∧
      (easterMonthDay year).2 ≤ daysInMonth year (easterMonthDay year).1 := by
    rw [easterMonthDay_eq]
    split
    · simp only [daysInMonth]
      norm_num
      omega
    · simp only [daysInMonth]
      norm_num
      omega
  rw [easterSunday?, date?, easterSunday_eq]
  by_cases years : 1 ≤ year ∧ year ≤ 9999
  · rw [if_pos years, if_pos ⟨years.1, years.2, valid⟩]
  · rw [if_neg years, if_neg fun all => years ⟨all.1, all.2.1⟩]

theorem yearOf_march {day : Int} (low : 1 ≤ day) (high : day ≤ 300) : yearOf (ordinal year 3 day) = year := by
  rw [yearOf_eq_iff, ordinal_march, daysBeforeYear, daysBeforeYear]
  omega

end Easter

section Dates
open Browser
variable {time : Int}

theorem dayNumber_makeDate (day : Int) {time : Int} (inside : 0 ≤ time ∧ time < msPerDay) : dayNumber (makeDate day time) = day := by
  simp only [dayNumber, makeDate, msPerDay] at inside ⊢
  omega

theorem ordinal_dayOf (date day : Int) : ordinal (yearOf date) (monthOf date) day = date + (day - dayOf date) := by
  rw [ordinal, dayOf]
  omega

theorem makeDay_month {month : Nat} (valid : 1 ≤ month ∧ month ≤ 12) (year date : Int) :
    makeDay year (month - 1) date = ordinal year month date := by
  have years : year + ((month : Int) - 1) / 12 = year := by omega
  have months : (((month : Int) - 1) % 12).toNat + 1 = month := by omega
  rw [makeDay, years, months]

/-- Setting the day moves a date by as many days, across the ends of its month too. -/
theorem dayNumber_setUTCDate (time days : Int) : dayNumber (setUTCDate time (getUTCDate time + days)) = dayNumber time + days := by
  have inside : 0 ≤ time % msPerDay ∧ time % msPerDay < msPerDay := by
    simp only [msPerDay]
    omega
  rw [setUTCDate, dayNumber_makeDate _ inside, getUTCFullYear, getUTCMonth, makeDay_month (monthOf_bounds _), ordinal_dayOf, getUTCDate]
  omega

/-- Every dividend of the browser's formula is positive in the years of the reform, so truncation is the floor. -/
theorem easterSunday_dateUTC {year : Int} (reformed : 1583 ≤ year) :
    Browser.easterSunday year = dateUTC year ((easterMonthDay year).1 - 1) (easterMonthDay year).2 12 := by
  have century : 15 ≤ year / 100 := by omega
  have age := moonAge_bounds year
  have days := untilSunday_bounds year
  have bounds := easterDay_bounds year
  have moon : (19 * year.tmod 19 + year.tdiv 100 - (year.tdiv 100).tdiv 4 - (year.tdiv 100 - (year.tdiv 100 + 8).tdiv 25 + 1).tdiv 3 +
      15).tmod 30 = moonAge year := by
    rw [← moonAge_eq]
    simp (disch := omega) only [Int.tdiv_eq_ediv_of_nonneg, Int.tmod_eq_emod_of_nonneg]
  have week : (32 + 2 * (year.tdiv 100).tmod 4 + 2 * (year.tmod 100).tdiv 4 - moonAge year - (year.tmod 100).tmod 4).tmod 7 =
      untilSunday year := by
    rw [untilSunday]
    simp (disch := omega) only [Int.tdiv_eq_ediv_of_nonneg, Int.tmod_eq_emod_of_nonneg]
  have corrected : (year.tmod 19 + 11 * moonAge year + 22 * untilSunday year).tdiv 451 = correction year := by
    rw [correction]
    simp (disch := omega) only [Int.tdiv_eq_ediv_of_nonneg, Int.tmod_eq_emod_of_nonneg]
  have value : moonAge year + untilSunday year - 7 * correction year + 114 = easterDay year + 92 := by
    rw [easterDay]
    omega
  have parts : Browser.easterSunday year = dateUTC year ((easterDay year + 92).tdiv 31 - 1) ((easterDay year + 92).tmod 31 + 1) 12 := by
    rw [← value, ← corrected, ← week, ← moon]
    rfl
  rw [parts, easterMonthDay_eq]
  simp (disch := omega) only [Int.tdiv_eq_ediv_of_nonneg, Int.tmod_eq_emod_of_nonneg]
  split
  next march =>
    have month : (easterDay year + 92) / 31 = 3 := by omega
    have day : (easterDay year + 92) % 31 + 1 = easterDay year := by omega
    rw [month, day]
    rfl
  next april =>
    have month : (easterDay year + 92) / 31 = 4 := by omega
    have day : (easterDay year + 92) % 31 + 1 = easterDay year - 31 := by omega
    rw [month, day]
    rfl

theorem dayNumber_easterSunday {year : Int} (reformed : 1583 ≤ year) :
    dayNumber (Browser.easterSunday year) = Dagmar.easterSunday year := by
  have month : 1 ≤ (easterMonthDay year).1 ∧ (easterMonthDay year).1 ≤ 12 := by
    rw [easterMonthDay_eq]
    split <;> simp
  rw [easterSunday_dateUTC reformed, dateUTC, if_neg (by omega), dayNumber_makeDate _ (by decide), makeDay_month month,
    easterSunday_eq]

end Dates

section Labels
open Browser
variable {time : Int} {language : Option String} {toLowerCase : String → String}

/-- A number of the calendar with two digits. -/
def twoDigits (n : Nat) : String := padStart2 (toString (n : Int))

theorem twoDigits_length : ∀ n < 32, (twoDigits n).toList.length = 2 := by decide +kernel

theorem twoDigits_injective : ∀ n < 32, ∀ other < 32, twoDigits n = twoDigits other → n = other := by decide +kernel

theorem dayOf_small (date : Int) : 1 ≤ dayOf date ∧ dayOf date ≤ 31 := by
  have bounds := dayOf_bounds date
  have month : daysInMonth (yearOf date) (monthOf date) ≤ 31 := by
    simp only [daysInMonth]
    repeat' split
    all_goals omega
  omega

/-- The key of a month and a day in the table of the browser. -/
def dayKey (key : Nat × Int) : String := twoDigits key.1 ++ "-" ++ twoDigits key.2.toNat

/-- Parts of a date that take two digits. -/
def TwoDigits (key : Nat × Int) : Prop := key.1 < 32 ∧ 0 ≤ key.2 ∧ key.2 < 32

instance (key : Nat × Int) : Decidable (TwoDigits key) := inferInstanceAs (Decidable (_ ∧ _))

theorem twoDigits_fields (date : Int) : TwoDigits (monthOf date, dayOf date) := by
  have month := monthOf_bounds date
  have day := dayOf_small date
  exact ⟨by omega, by omega, by omega⟩

theorem dayKey_injective {key other : Nat × Int} (short : TwoDigits key) (short' : TwoDigits other) (same : dayKey key = dayKey other) :
    key = other := by
  obtain ⟨month, low, high⟩ := short
  obtain ⟨month', low', high'⟩ := short'
  have texts := congrArg String.toList same
  simp only [dayKey, String.toList_append, List.append_assoc] at texts
  obtain ⟨months, rest⟩ := List.append_inj texts (by rw [twoDigits_length _ month, twoDigits_length _ month'])
  have sameMonth := twoDigits_injective _ month _ month' (String.toList_inj.mp months)
  have sameDay := twoDigits_injective _ (by omega) _ (by omega) (String.toList_inj.mp (List.append_cancel_left rest))
  exact Prod.ext sameMonth (by omega)

theorem dateKey_eq (time : Int) : dateKey time = dayKey (monthOf (dayNumber time), dayOf (dayNumber time)) := by
  have day := dayOf_small (dayNumber time)
  rw [dateKey, getUTCMonth, getUTCDate, dayKey, twoDigits, twoDigits, Int.toNat_of_nonneg (by omega), Int.sub_add_cancel]

/-- The texts of two days of a year are the same when the days are. -/
theorem isoKey_eq_iff {other : Int} (years : yearOf (dayNumber time) = yearOf (dayNumber other)) :
    isoKey time = isoKey other ↔ dayNumber time = dayNumber other := by
  constructor
  · intro same
    have texts := congrArg String.toList same
    simp only [isoKey, getUTCFullYear, years, dateKey_eq, String.toList_append, List.append_assoc, List.append_cancel_left_eq] at texts
    have keys := dayKey_injective (twoDigits_fields _) (twoDigits_fields _) (String.toList_inj.mp texts)
    obtain ⟨sameMonth, sameDay⟩ := Prod.mk.inj keys
    rw [← ordinal_fields (dayNumber time), ← ordinal_fields (dayNumber other), years, sameMonth, sameDay]
  · intro same
    rw [isoKey, isoKey, getUTCFullYear, getUTCFullYear, dateKey_eq, dateKey_eq, same]

/-- A lookup does not depend on how the keys are written, when the key is written unlike all others. -/
theorem lookup_written {table : List ((Nat × Int) × String)} {key : Nat × Int}
    (apart : ∀ entry ∈ table, dayKey entry.1 = dayKey key → entry.1 = key) :
    (table.map fun entry => (dayKey entry.1, entry.2)).lookup (dayKey key) = table.lookup key := by
  induction table with
  | nil => rfl
  | cons entry table ih =>
    obtain ⟨first, rest⟩ := List.forall_mem_cons.mp apart
    have same : (dayKey key == dayKey entry.1) = (key == entry.1) := by
      rw [Bool.eq_iff_iff, beq_iff_eq, beq_iff_eq]
      exact ⟨fun equal => (first equal.symm).symm, congrArg dayKey⟩
    rw [List.map_cons, List.lookup_cons, List.lookup_cons, same, ih rest]

theorem czech_labels : holidayLabels .cs = (Payloads.fixedHolidayLabels.map fun entry => (dayKey entry.1, entry.2)) ++
    [("easterFriday", "Velký pátek"), ("easterMonday", "Velikonoční pondělí")] := by decide +kernel

theorem short_labels : ∀ entry ∈ Payloads.fixedHolidayLabels, TwoDigits entry.1 ∧ entry.2 ≠ "" := by decide

theorem dayKey_length {key : Nat × Int} (short : TwoDigits key) : (dayKey key).toList.length = 5 := by
  obtain ⟨month, low, high⟩ := short
  simp [dayKey, twoDigits_length _ month, twoDigits_length key.2.toNat (by omega)]

/-- Both tables have the same labels on the same fixed days. -/
theorem fixed_labels {key : Nat × Int} (short : TwoDigits key) :
    ((holidayLabels .cs).lookup (dayKey key)).filter (· ≠ "") = Payloads.fixedHolidayLabels.lookup key := by
  have unnamed : ([("easterFriday", "Velký pátek"), ("easterMonday", "Velikonoční pondělí")] : List (String × String)).lookup
      (dayKey key) = none := by
    have longer : ∀ entry ∈ ([("easterFriday", "Velký pátek"), ("easterMonday", "Velikonoční pondělí")] : List (String × String)),
        entry.1.toList.length ≠ 5 := by decide
    apply List.lookup_eq_none_iff.mpr
    intro entry listed
    rw [bne_iff_ne]
    intro same
    exact longer entry listed (same ▸ dayKey_length short)
  have apart : ∀ entry ∈ Payloads.fixedHolidayLabels, dayKey entry.1 = dayKey key → entry.1 = key :=
    fun entry listed same => dayKey_injective (short_labels entry listed).1 short same
  rw [czech_labels, List.lookup_append, lookup_written apart, unnamed, Option.or_none]
  cases found : Payloads.fixedHolidayLabels.lookup key with
  | none => rfl
  | some label =>
    obtain ⟨front, back, table, -⟩ := List.lookup_eq_some_iff.mp found
    have listed : (key, label) ∈ Payloads.fixedHolidayLabels := by simp [table]
    have named := (short_labels _ listed).2
    simp [named]

/-- The browser and the services name the same holidays. -/
theorem getHolidayLabel_eq (czech : toLanguage toLowerCase language = .cs) (reformed : 1583 ≤ yearOf (dayNumber time)) :
    getHolidayLabel toLowerCase time language = Payloads.czechPublicHolidayLabel (dayNumber time) := by
  have fixed := fixed_labels (twoDigits_fields (dayNumber time))
  rw [← dateKey_eq] at fixed
  have easter := dayNumber_easterSunday reformed
  have sunday := easterDay_bounds (yearOf (dayNumber time))
  have near (days : Int) (around : -2 ≤ days ∧ days ≤ 1) :
      yearOf (Dagmar.easterSunday (yearOf (dayNumber time)) + days) = yearOf (dayNumber time) := by
    have moved : Dagmar.easterSunday (yearOf (dayNumber time)) + days =
        ordinal (yearOf (dayNumber time)) 3 (easterDay (yearOf (dayNumber time)) + days) := by
      rw [easterSunday_march, ordinal, ordinal]
      omega
    rw [moved, yearOf_march (by omega) (by omega)]
  have keyed (days : Int) (around : -2 ≤ days ∧ days ≤ 1) :
      isoKey time = isoKey (setUTCDate (Browser.easterSunday (getUTCFullYear time))
        (getUTCDate (Browser.easterSunday (getUTCFullYear time)) + days)) ↔
      dayNumber time = Dagmar.easterSunday (yearOf (dayNumber time)) + days := by
    have shifted := dayNumber_setUTCDate (Browser.easterSunday (getUTCFullYear time)) days
    rw [getUTCFullYear, easter] at shifted
    rw [getUTCFullYear, isoKey_eq_iff (by rw [shifted, near days around]), shifted]
  have labels : (holidayLabels .cs).lookup "easterFriday" = some "Velký pátek" ∧
      (holidayLabels .cs).lookup "easterMonday" = some "Velikonoční pondělí" := by decide +kernel
  unfold getHolidayLabel Payloads.czechPublicHolidayLabel
  rw [czech]
  dsimp only
  rw [fixed]
  cases Payloads.fixedHolidayLabels.lookup (monthOf (dayNumber time), dayOf (dayNumber time)) with
  | some label => rfl
  | none => exact if_congr (keyed (-2) (by omega)) labels.1 (if_congr (keyed 1 (by omega)) labels.2 rfl)

/-- From 1583 on, the formula gives a Sunday between 22 March and 25 April, the one Easter of the computus; `date` takes its year up
to 9999. A date of these years has the same label in Czech in the browser, at any time of the day. -/
theorem holidays_agree (year : Int) (reformed : 1583 ≤ year) :
    (easterSunday? year = if year ≤ 9999 then some (easterSunday year) else none) ∧
    IsSunday (easterSunday year) ∧ ordinal year 3 22 ≤ easterSunday year ∧ easterSunday year ≤ ordinal year 4 25 ∧
    (∀ date, IsEaster year date ↔ date = easterSunday year) ∧
    ∀ (toLowerCase : String → String) (language : Option String) (time : Int), toLanguage toLowerCase language = .cs →
      yearOf (dayNumber time) = year → year ≤ 9999 →
      getHolidayLabel toLowerCase time language = Payloads.czechPublicHolidayLabel (dayNumber time) := by
  have bounds := easterDay_bounds year
  have easter := isEaster_easterDay year
  have april : ordinal year 4 25 = ordinal year 3 56 := by
    simp only [ordinal, daysBeforeMonth, daysInMonth]
    norm_num
    omega
  refine ⟨?_, ?_, ?_, ?_, ?_, ?_⟩
  · rw [easterSunday?_eq]
    exact if_congr (and_iff_right (by omega)) rfl rfl
  · rw [easterSunday_march]
    obtain ⟨-, -, -, sunday, -⟩ := easter
    exact sunday
  · rw [easterSunday_march, ordinal_march, ordinal_march]
    omega
  · rw [easterSunday_march, april, ordinal_march, ordinal_march]
    omega
  · intro date
    rw [easterSunday_march]
    constructor
    · intro other
      exact other.unique easter
    · intro same
      rwa [same]
  · intro toLowerCase language time czech same _
    exact getHolidayLabel_eq czech (by rwa [same])

/-- No date has the year 10000. -/
theorem no_easter_10000 : ¬ ∀ year : Int, 1583 ≤ year → ∃ date, easterSunday? year = some date := by
  intro every
  obtain ⟨date, found⟩ := every 10000 (by decide)
  have refused : easterSunday? 10000 = none := by decide
  rw [refused] at found
  cases found

/-- Good Friday of 2026, at noon in UTC. -/
theorem good_friday_2026 :
    getHolidayLabel id (dateUTC 2026 3 3 12) none = Payloads.czechPublicHolidayLabel (dayNumber (dateUTC 2026 3 3 12)) := by
  obtain ⟨-, -, -, -, -, labels⟩ := holidays_agree 2026 (by decide)
  exact labels id none (dateUTC 2026 3 3 12) rfl (by decide) (by decide)

example : Payloads.czechPublicHolidayLabel (dayNumber (dateUTC 2026 3 3 12)) = some "Velký pátek" := by decide +kernel

end Labels

end Dagmar.Proofs
