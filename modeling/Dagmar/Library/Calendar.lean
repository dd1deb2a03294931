import Mathlib.Order.Monotone.Basic
import Mathlib.Tactic.IntervalCases

/-! The proleptic Gregorian calendar over day ordinals, day 1 being the first of
January of year 1. A month is the half-open run of days between two first days,
and every day lies in exactly one month. -/

namespace Dagmar.Library.Calendar

def isLeap (year : Int) : Bool := year % 4 = 0 && (year % 100 ≠ 0 || year % 400 = 0)

/-- Days before the first of January. -/
def daysBeforeYear (year : Int) : Int :=
  (year - 1) * 365 + (year - 1) / 4 - (year - 1) / 100 + (year - 1) / 400

def daysInMonth (year : Int) (month : Nat) : Int :=
  if month = 2 then (if isLeap year then 29 else 28)
  else if month = 4 ∨ month = 6 ∨ month = 9 ∨ month = 11 then 30
  else 31

/-- Days between the first of January and the first of the month. -/
def daysBeforeMonth (year : Int) : Nat → Int
  | 0 => 0
  | 1 => 0
  | month + 2 => daysBeforeMonth year (month + 1) + daysInMonth year (month + 1)

def ordinal (year : Int) (month : Nat) (day : Int) : Int :=
  daysBeforeYear year + daysBeforeMonth year month + day

/-- The year of a day: the mean year length guesses it to within one. -/
def yearOf (date : Int) : Int :=
  let guess := date * 400 / 146097 + 1
  if date ≤ daysBeforeYear guess then guess - 1
  else if daysBeforeYear (guess + 1) < date then guess + 1
  else guess

/-- The last month, counting down, that starts before day `n` of its year. -/
def lastMonth (before : Nat → Int) (n : Int) : Nat → Nat
  | 0 => 0
  | month + 1 => if before (month + 1) < n then month + 1 else lastMonth before n month

def monthOf (date : Int) : Nat :=
  lastMonth (daysBeforeMonth (yearOf date)) (date - daysBeforeYear (yearOf date)) 12

def dayOf (date : Int) : Int := date - daysBeforeYear (yearOf date) - daysBeforeMonth (yearOf date) (monthOf date)

def yearMonth (date : Int) : Int × Nat := (yearOf date, monthOf date)

/-- Monday is 0. -/
def weekday (date : Int) : Int := (date + 6) % 7

/-- The first day of a month; month 13 is the next January. -/
def firstDay (year : Int) (month : Nat) : Int := ordinal year month 1

theorem yearOf_bounds (date : Int) :
    daysBeforeYear (yearOf date) < date ∧ date ≤ daysBeforeYear (yearOf date + 1) := by
  have guessed (guess : Int) (near : guess = date * 400 / 146097 + 1) :
      daysBeforeYear (guess - 1) < date ∧ date ≤ daysBeforeYear (guess + 2) := by
    simp only [daysBeforeYear]
    omega
  have near := guessed _ rfl
  simp only [yearOf]
  split
  next low => exact ⟨near.1, by simpa using low⟩
  next low =>
    split
    next high => exact ⟨high, by simpa [Int.add_assoc] using near.2⟩
    next high => exact ⟨by omega, by omega⟩

theorem daysBeforeYear_mono {first second : Int} (below : first ≤ second) :
    daysBeforeYear first ≤ daysBeforeYear second := by
  simp only [daysBeforeYear]
  omega

theorem yearOf_eq_iff (date year : Int) :
    yearOf date = year ↔ daysBeforeYear year < date ∧ date ≤ daysBeforeYear (year + 1) := by
  have bounds := yearOf_bounds date
  constructor
  · rintro rfl
    exact bounds
  · intro ⟨low, high⟩
    rcases Int.lt_trichotomy (yearOf date) year with earlier | same | later
    · have := daysBeforeYear_mono (show yearOf date + 1 ≤ year by omega)
      omega
    · exact same
    · have := daysBeforeYear_mono (show year + 1 ≤ yearOf date by omega)
      omega

theorem daysInMonth_pos (year : Int) (month : Nat) : 28 ≤ daysInMonth year month := by
  simp only [daysInMonth]
  repeat' split
  all_goals omega

theorem daysBeforeMonth_mono (year : Int) ⦃first last : Nat⦄ (below : first ≤ last) :
    daysBeforeMonth year first ≤ daysBeforeMonth year last := by
  refine monotone_nat_of_le_succ ?_ below
  intro month
  cases month with
  | zero => simp [daysBeforeMonth]
  | succ month =>
    have := daysInMonth_pos year (month + 1)
    simp only [daysBeforeMonth]
    omega

private theorem year_length (year : Int) :
    daysBeforeYear (year + 1) = daysBeforeYear year + daysBeforeMonth year 13 := by
  have days : daysBeforeMonth year 13 = 337 + daysInMonth year 2 := by
    simp only [daysBeforeMonth, daysInMonth]
    norm_num
    omega
  rw [days]
  simp only [daysBeforeYear, daysInMonth, isLeap, Bool.and_eq_true, Bool.or_eq_true, decide_eq_true_eq, if_true]
  split <;> omega

theorem firstDay_thirteen (year : Int) : firstDay year 13 = firstDay (year + 1) 1 := by
  have length := year_length year
  simp only [firstDay, ordinal]
  simp only [daysBeforeMonth] at length ⊢
  omega

theorem lastMonth_le (before : Nat → Int) (n : Int) (limit : Nat) : lastMonth before n limit ≤ limit := by
  induction limit with
  | zero => simp [lastMonth]
  | succ limit ih =>
    simp only [lastMonth]
    split <;> omega

theorem lastMonth_pos {before : Nat → Int} {n : Int} (starts : before 1 < n) (limit : Nat) :
    1 ≤ lastMonth before n (limit + 1) := by
  induction limit with
  | zero => simp [lastMonth, starts]
  | succ limit ih =>
    rw [lastMonth]
    split <;> omega

theorem lastMonth_eq_iff {before : Nat → Int} (mono : ∀ ⦃first last : Nat⦄, first ≤ last → before first ≤ before last)
    (n : Int) (limit month : Nat) (valid : 1 ≤ month ∧ month ≤ limit) :
    lastMonth before n limit = month ↔ before month < n ∧ (month < limit → n ≤ before (month + 1)) := by
  induction limit with
  | zero => omega
  | succ limit ih =>
    simp only [lastMonth]
    split
    next starts =>
      constructor
      · rintro rfl
        exact ⟨starts, fun less => absurd less (Nat.lt_irrefl _)⟩
      · intro ⟨_, later⟩
        by_contra different
        have := later (by omega)
        have := mono (show month + 1 ≤ limit + 1 by omega)
        omega
    next late =>
      rcases Nat.lt_or_eq_of_le valid.2 with less | rfl
      · rw [ih ⟨valid.1, by omega⟩]
        constructor
        · intro ⟨starts, later⟩
          refine ⟨starts, fun _ => ?_⟩
          rcases Nat.lt_or_eq_of_le (show month ≤ limit by omega) with inner | rfl
          · exact later inner
          · omega
        · exact fun ⟨starts, later⟩ => ⟨starts, fun _ => later less⟩
      · constructor
        · intro same
          have := lastMonth_le before n limit
          omega
        · intro ⟨starts, _⟩
          omega

/-- A day belongs to a month exactly when it lies between the first day of that
month and the first day of the next one. -/
theorem yearMonth_eq_iff (date year : Int) (month : Nat) (valid : 1 ≤ month ∧ month ≤ 12) :
    yearMonth date = (year, month) ↔ firstDay year month ≤ date ∧ date < firstDay year (month + 1) := by
  have length := year_length year
  have inner := daysBeforeMonth_mono year (show month + 1 ≤ 13 by omega)
  have outer := daysBeforeMonth_mono year (show 0 ≤ month by omega)
  have start : daysBeforeMonth year 0 = 0 := rfl
  simp only [yearMonth, monthOf, Prod.mk.injEq, firstDay, ordinal]
  constructor
  · rintro ⟨rfl, sameMonth⟩
    have bounds := yearOf_bounds date
    have chosen := (lastMonth_eq_iff (daysBeforeMonth_mono _) _ 12 month valid).mp sameMonth
    refine ⟨by omega, ?_⟩
    rcases Nat.lt_or_eq_of_le valid.2 with less | rfl
    · have := chosen.2 less
      omega
    · change date < daysBeforeYear (yearOf date) + daysBeforeMonth (yearOf date) 13 + 1
      omega
  · intro ⟨low, high⟩
    have sameYear : yearOf date = year := (yearOf_eq_iff date year).mpr (by omega)
    rw [sameYear, lastMonth_eq_iff (daysBeforeMonth_mono _) _ 12 month valid]
    exact ⟨rfl, by omega, fun _ => by omega⟩

theorem monthOf_bounds (date : Int) : 1 ≤ monthOf date ∧ monthOf date ≤ 12 := by
  have bounds := yearOf_bounds date
  refine ⟨lastMonth_pos ?_ 11, lastMonth_le _ _ 12⟩
  simp only [daysBeforeMonth]
  omega

theorem firstDay_le (date : Int) : firstDay (yearOf date) (monthOf date) ≤ date :=
  ((yearMonth_eq_iff date _ _ (monthOf_bounds date)).mp rfl).1

theorem lt_firstDay_succ (date : Int) : date < firstDay (yearOf date) (monthOf date + 1) :=
  ((yearMonth_eq_iff date _ _ (monthOf_bounds date)).mp rfl).2

section Numbers

/-- The months numbered through the years. -/
def monthNumber (date : Int) : Int := yearOf date * 12 + monthOf date - 1

/-- The first day of a numbered month. -/
def monthStart (number : Int) : Int := firstDay (number / 12) (number % 12 + 1).toNat

theorem monthStart_succ (number : Int) :
    monthStart (number + 1) = monthStart number + daysInMonth (number / 12) (number % 12 + 1).toNat := by
  have next (year : Int) (month : Nat) (positive : 1 ≤ month) :
      firstDay year (month + 1) = firstDay year month + daysInMonth year month := by
    obtain ⟨earlier, rfl⟩ := Nat.exists_eq_add_of_le' positive
    simp only [firstDay, ordinal, daysBeforeMonth]
    omega
  by_cases last : number % 12 = 11
  · have year : (number + 1) / 12 = number / 12 + 1 := by omega
    have month : (number + 1) % 12 = 0 := by omega
    have successor := next (number / 12) 12 (by omega)
    rw [firstDay_thirteen] at successor
    rw [monthStart, monthStart, year, month, last]
    exact successor
  · have year : (number + 1) / 12 = number / 12 := by omega
    have month : ((number + 1) % 12 + 1).toNat = (number % 12 + 1).toNat + 1 := by omega
    rw [monthStart, monthStart, year, month]
    exact next _ _ (by omega)

theorem monthStart_mono ⦃first second : Int⦄ (below : first ≤ second) : monthStart first ≤ monthStart second := by
  refine monotone_int_of_le_succ (fun number => ?_) below
  have := monthStart_succ number
  have := daysInMonth_pos (number / 12) (number % 12 + 1).toNat
  omega

theorem monthNumber_eq_iff (date number : Int) :
    monthNumber date = number ↔ monthStart number ≤ date ∧ date < monthStart (number + 1) := by
  have months := monthOf_bounds date
  have start (year : Int) (month : Nat) (valid : 1 ≤ month ∧ month ≤ 12) :
      monthStart (year * 12 + month - 1) = firstDay year month := by
    have quotient : (year * 12 + month - 1) / 12 = year := by omega
    have remainder : ((year * 12 + (month : Int) - 1) % 12 + 1).toNat = month := by omega
    rw [monthStart, quotient, remainder]
  have follows (year : Int) (month : Nat) (valid : 1 ≤ month ∧ month ≤ 12) :
      monthStart (year * 12 + month - 1 + 1) = firstDay year (month + 1) := by
    rcases Nat.lt_or_eq_of_le valid.2 with less | rfl
    · rw [← start year (month + 1) (by omega)]
      congr 1
      omega
    · rw [firstDay_thirteen, ← start (year + 1) 1 (by omega)]
      congr 1
      omega
  constructor
  · rintro rfl
    rw [monthNumber, start _ _ months, follows _ _ months]
    exact ⟨firstDay_le date, lt_firstDay_succ date⟩
  · rintro ⟨low, high⟩
    have month : 1 ≤ (number % 12 + 1).toNat ∧ (number % 12 + 1).toNat ≤ 12 := by omega
    have whole : number = number / 12 * 12 + ((number % 12 + 1).toNat : Nat) - 1 := by omega
    rw [whole, start _ _ month] at low
    rw [whole, follows _ _ month] at high
    have same := (yearMonth_eq_iff date _ _ month).mpr ⟨low, high⟩
    simp only [yearMonth, Prod.mk.injEq] at same
    rw [monthNumber, same.1, same.2]
    omega

theorem le_monthNumber_iff {date number : Int} : number ≤ monthNumber date ↔ monthStart number ≤ date := by
  obtain ⟨low, high⟩ := (monthNumber_eq_iff date _).mp rfl
  constructor
  · intro below
    exact (monthStart_mono below).trans low
  · intro begun
    by_contra later
    have := monthStart_mono (show monthNumber date + 1 ≤ number by omega)
    omega

theorem monthNumber_lt_iff {date number : Int} : monthNumber date < number ↔ date < monthStart number := by
  rw [← not_le, ← not_le, le_monthNumber_iff]

end Numbers

section Moving

/-- The same day of another month, or its last day. -/
def movedMonths (date months : Int) : Int :=
  monthStart (monthNumber date + months) + min (date - monthStart (monthNumber date))
    (monthStart (monthNumber date + months + 1) - monthStart (monthNumber date + months) - 1)

theorem movedMonths_bounds (date months : Int) : monthStart (monthNumber date + months) ≤ movedMonths date months ∧
    movedMonths date months < monthStart (monthNumber date + months + 1) := by
  have start := ((monthNumber_eq_iff date _).mp rfl).1
  have length := monthStart_succ (monthNumber date + months)
  have := daysInMonth_pos ((monthNumber date + months) / 12) ((monthNumber date + months) % 12 + 1).toNat
  rw [movedMonths]
  omega

theorem movedMonths_mono {first second : Int} (below : first ≤ second) (months : Int) :
    movedMonths first months ≤ movedMonths second months := by
  have order : monthNumber first ≤ monthNumber second :=
    le_monthNumber_iff.mpr ((((monthNumber_eq_iff first _).mp rfl).1).trans below)
  rcases order.eq_or_lt with same | before
  · rw [movedMonths, movedMonths, same]
    omega
  · have := (movedMonths_bounds first months).2
    have := monthStart_mono (show monthNumber first + months + 1 ≤ monthNumber second + months by omega)
    have := (movedMonths_bounds second months).1
    omega

theorem movedMonths_back (date : Int) : movedMonths date (-1) < date := by
  have moved := (movedMonths_bounds date (-1)).2
  rw [neg_add_cancel_right] at moved
  exact moved.trans_le ((monthNumber_eq_iff date _).mp rfl).1

theorem lt_movedMonths (date : Int) : date < movedMonths date 1 :=
  ((monthNumber_eq_iff date _).mp rfl).2.trans_le (movedMonths_bounds date 1).1

end Moving

end Dagmar.Library.Calendar
