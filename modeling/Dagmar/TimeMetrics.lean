import Dagmar.TimeIntervals

/-! The hours of one day: how many minutes of its intervals fall into each band a
profile tracks, and the hours a full-day status is credited with. -/

namespace Dagmar
open Library.Calendar

section Holidays

/-- Month and day of the public holidays that do not move. -/
def fixedHolidays : List (Nat × Int) :=
  [(1, 1), (5, 1), (5, 8), (7, 5), (7, 6), (9, 28), (10, 28), (11, 17), (12, 24), (12, 25), (12, 26)]

def easterSunday (year : Int) : Int :=
  let a := year % 19
  let b := year / 100
  let c := year % 100
  let d := b / 4
  let e := b % 4
  let f := (b + 8) / 25
  let g := (b - f + 1) / 3
  let h := (19 * a + b - d - g + 15) % 30
  let i := c / 4
  let k := c % 4
  let weekday := (32 + 2 * e + 2 * i - h - k) % 7
  let m := (a + 11 * h + 22 * weekday) / 451
  let month := (h + weekday - 7 * m + 114) / 31
  ordinal year month.toNat ((h + weekday - 7 * m + 114) % 31 + 1)

def isCzechPublicHoliday (date : Int) : Bool :=
  (monthOf date, dayOf date) ∈ fixedHolidays ||
    date = easterSunday (yearOf date) - 2 || date = easterSunday (yearOf date) + 1

end Holidays

structure MetricValue where
  minutes : Int
  tenths : Int
deriving DecidableEq, Repr

structure DailyMetrics where
  total : MetricValue
  afternoon : Option MetricValue
  night : Option MetricValue
  weekend : Option MetricValue
  publicHoliday : Option MetricValue
deriving DecidableEq, Repr

structure DayStatusMetrics where
  holiday : Option MetricValue
  sickness : Option MetricValue
  paragraph : Option MetricValue
deriving DecidableEq, Repr

/-- Minutes are never negative here, so the guard of the source has nothing to refuse. -/
def roundMinutesToTenths (minutes : Int) : Int := (minutes + 3) / 6

def metricValue (minutes : Int) : MetricValue := ⟨minutes, roundMinutesToTenths minutes⟩

def fullDayStatusMinutes : Int := 8 * 60

def emptyDailyMetrics (employment : Employment) : Option DailyMetrics :=
  if employment.employmentType = .taskShiftBased then none
  else some {
    total := metricValue 0
    afternoon := if employment.profile.afternoonHoursEnabled then some (metricValue 0) else none
    night := if employment.profile.nightHoursEnabled then some (metricValue 0) else none
    weekend := if employment.profile.weekendHoursEnabled then some (metricValue 0) else none
    publicHoliday := if employment.profile.publicHolidayHoursEnabled then some (metricValue 0) else none }

def calculateDayStatusMetrics (employment : Employment) (status : Option DayStatus) : DayStatusMetrics :=
  let value :=
    if employment.employmentType = .taskShiftBased then none
    else if status = some .holiday ∨ status = some .sickness ∨ status = some .paragraph
    then some (metricValue fullDayStatusMinutes) else none
  { holiday := if status = some .holiday then value else none
    sickness := if status = some .sickness then value else none
    paragraph := if status = some .paragraph then value else none }

/-- Overlap with the band between two minutes of a day. -/
def windowMinutes (date : Int) (start finish : Int) (interval : WorkInterval) : Int :=
  overlapMinutes interval (midnight date + start * minute) (midnight date + finish * minute)

/-- The parts of the intervals that fall on a day. -/
def dayIntervals (date : Int) (intervals : List WorkInterval) : List WorkInterval :=
  intervals.flatMap fun interval => ((splitByDay interval).filter (·.1 = date)).map Prod.snd

def calculateDailyMetrics (employment : Employment) (date : Int) (intervals : List WorkInterval) : Option DailyMetrics :=
  if employment.employmentType = .taskShiftBased then none
  else
    let profile := employment.profile
    let parts := dayIntervals date intervals
    let total := (parts.map WorkInterval.minutes).sum
    let afternoon := (parts.map (windowMinutes date (profile.afternoonStartMinutes.getD 0) (22 * 60))).sum
    let night := (parts.map fun part => windowMinutes date 0 (6 * 60) part + windowMinutes date (22 * 60) (24 * 60) part).sum
    let weekend := if 5 ≤ weekday date then total else 0
    let publicHoliday := if isCzechPublicHoliday date then total else 0
    some {
      total := metricValue total
      afternoon := if profile.afternoonHoursEnabled then some (metricValue afternoon) else none
      night := if profile.nightHoursEnabled then some (metricValue night) else none
      weekend := if profile.weekendHoursEnabled then some (metricValue weekend) else none
      publicHoliday := if profile.publicHolidayHoursEnabled then some (metricValue publicHoliday) else none }

end Dagmar
