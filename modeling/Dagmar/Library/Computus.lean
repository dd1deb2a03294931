import Dagmar.Library.Calendar

/-! The Gregorian computus. A table gives the days of spring on which the ecclesiastical moon
of a year is new; it is full on the fourteenth day, and Easter is the Sunday after the first
full moon that is not before 21 March. -/

namespace Dagmar.Library.Computus
open Calendar

section Tables

/-- The place of a year in the cycle of nineteen. -/
def goldenNumber (year : Int) : Int := year % 19 + 1

/-- The leap days that the reform has dropped after 1600. -/
def solarEquation (century : Int) : Int := century - century / 4 - 12

/-- The days by which the moon was moved after 1600, eight times in 2500 years. -/
def lunarEquation (century : Int) : Int := (8 * century + 13) / 25 - 5

/-- The age of the moon at the beginning of a year; it grows by eleven each year of a cycle. -/
def epact (year : Int) : Int :=
  (1 + 11 * (goldenNumber year - 1) - solarEquation (year / 100) + lunarEquation (year / 100)) % 30

/-- The table from 1 March to 5 April, which is day 36. The epacts 25 and 24 share the last day,
except that 25 moves to the day of 26 in the years of the later golden numbers. -/
def NewMoon (year day : Int) : Prop :=
  (1 ≤ day ∧ day ≤ 34 ∧ epact year = (31 - day) % 30) ∨
    (day = 35 ∧ (epact year = 26 ∨ epact year = 25 ∧ 11 < goldenNumber year)) ∨
    (day = 36 ∧ (epact year = 24 ∨ epact year = 25 ∧ goldenNumber year ≤ 11))

def FullMoon (year date : Int) : Prop := ∃ day, NewMoon year day ∧ date = ordinal year 3 (day + 13)

/-- The first full moon on or after 21 March. -/
structure PaschalMoon (year moon : Int) : Prop where
  full : FullMoon year moon
  spring : ordinal year 3 21 ≤ moon
  first : ∀ other, FullMoon year other → ordinal year 3 21 ≤ other → moon ≤ other

def IsSunday (date : Int) : Prop := weekday date = 6

/-- The first Sunday strictly after the paschal moon. -/
def IsEaster (year date : Int) : Prop :=
  ∃ moon, PaschalMoon year moon ∧ moon < date ∧ IsSunday date ∧ ∀ other, moon < other → IsSunday other → date ≤ other

end Tables

section Moons
variable {year : Int}

/-- A year has one Easter at most. -/
theorem IsEaster.unique {date other : Int} (easter : IsEaster year date) (easter' : IsEaster year other) : date = other := by
  obtain ⟨moon, paschal, after, sunday, first⟩ := easter
  obtain ⟨moon', paschal', after', sunday', first'⟩ := easter'
  have same : moon = moon' :=
    le_antisymm (paschal.first moon' paschal'.full paschal'.spring) (paschal'.first moon paschal.full paschal.spring)
  subst same
  exact le_antisymm (first other after' sunday') (first' date after sunday)

/-- Days after 21 March until the moon is full, before the table moves two of the epacts. -/
def moonAge (year : Int) : Int := (23 - epact year) % 30

/-- The moons of the last two epacts are full a day earlier. -/
def Moved (year : Int) : Prop := moonAge year = 29 ∨ moonAge year = 28 ∧ 11 < goldenNumber year

instance (year : Int) : Decidable (Moved year) := inferInstanceAs (Decidable (_ ∨ _))

/-- The day of the paschal moon, counted from the first of March. -/
def paschalDay (year : Int) : Int := if Moved year then 20 + moonAge year else 21 + moonAge year

theorem ordinal_march (year day : Int) :
    ordinal year 3 day = year * 365 + year / 4 - year / 100 + year / 400 - 306 + day := by
  have february : daysBeforeMonth year 3 = 31 + daysInMonth year 2 := by
    simp [daysBeforeMonth, daysInMonth]
  rw [ordinal, february]
  simp only [daysBeforeYear, daysInMonth, isLeap, Bool.and_eq_true, Bool.or_eq_true, decide_eq_true_eq, if_true]
  split <;> omega

theorem epact_bounds (year : Int) : 0 ≤ epact year ∧ epact year < 30 := by
  simp only [epact]
  omega

theorem paschalDay_cases (year : Int) :
    Moved year ∧ paschalDay year = 20 + moonAge year ∨ ¬ Moved year ∧ paschalDay year = 21 + moonAge year := by
  by_cases moved : Moved year
  · exact .inl ⟨moved, if_pos moved⟩
  · exact .inr ⟨moved, if_neg moved⟩

theorem newMoon_paschalDay (year : Int) : NewMoon year (paschalDay year - 13) := by
  have age := epact_bounds year
  have cases := paschalDay_cases year
  simp only [NewMoon, Moved, moonAge] at cases ⊢
  omega

theorem paschalDay_le {year day : Int} (new : NewMoon year day) (spring : 21 ≤ day + 13) : paschalDay year ≤ day + 13 := by
  have age := epact_bounds year
  have cases := paschalDay_cases year
  simp only [NewMoon, Moved, moonAge] at new cases
  omega

theorem paschalDay_bounds (year : Int) : 21 ≤ paschalDay year ∧ paschalDay year ≤ 49 := by
  have age := epact_bounds year
  have cases := paschalDay_cases year
  simp only [Moved, moonAge] at cases
  omega

theorem paschalMoon_paschalDay (year : Int) : PaschalMoon year (ordinal year 3 (paschalDay year)) where
  full := ⟨paschalDay year - 13, newMoon_paschalDay year, by rw [Int.sub_add_cancel]⟩
  spring := by
    rw [ordinal_march, ordinal_march]
    exact Int.add_le_add_left (paschalDay_bounds year).1 _
  first := by
    intro other full spring
    obtain ⟨day, new, rfl⟩ := full
    rw [ordinal_march, ordinal_march] at *
    have later := paschalDay_le new (by omega)
    omega

/-- The Sunday in the week after the paschal moon is Easter. -/
theorem isEaster_of_week {day : Int} (sunday : IsSunday (ordinal year 3 day)) (after : paschalDay year < day)
    (week : day ≤ paschalDay year + 7) : IsEaster year (ordinal year 3 day) := by
  refine ⟨ordinal year 3 (paschalDay year), paschalMoon_paschalDay year, ?_, sunday, ?_⟩
  · rw [ordinal_march, ordinal_march]
    omega
  · intro other later sunday'
    rw [ordinal_march] at *
    simp only [IsSunday, weekday] at sunday sunday'
    omega

end Moons

end Dagmar.Library.Computus
