import Dagmar.TimeMetrics
import Dagmar.Library.Coverage
import Mathlib.Algebra.BigOperators.Ring.Finset

/-! The hours of a day are counts of minutes. The parts of an interval at its
midnights meet a band of a day as the whole interval does, and intervals that do
not overlap cover no minute twice. -/

namespace Dagmar.Proofs
open Library Library.Coverage

/-- Work on whole minutes: every interval has a length, and no two overlap. -/
structure DisjointWork (intervals : List WorkInterval) : Prop where
  aligned : ∀ interval ∈ intervals, interval.start % minute = 0 ∧ interval.finish % minute = 0
  positive : ∀ interval ∈ intervals, interval.start < interval.finish
  disjoint : intervals.Pairwise fun left right => left.finish ≤ right.start ∨ right.finish ≤ left.start

/-- A minute, counted from the midnight that begins day 0, that some interval covers. -/
def CoveredMinute (intervals : List WorkInterval) (point : Int) : Prop :=
  ∃ interval ∈ intervals, interval.start ≤ point * minute ∧ point * minute < interval.finish

instance (intervals : List WorkInterval) : DecidablePred (CoveredMinute intervals) :=
  fun _ => inferInstanceAs (Decidable (∃ interval ∈ intervals, _))

/-- How many minutes of a day are covered from one minute of it to another. -/
def coveredMinutes (date first last : Int) (intervals : List WorkInterval) : Int :=
  ((stretch (date * (24 * 60) + first) (date * (24 * 60) + last)).filter (CoveredMinute intervals)).card

section Parts
variable {interval : WorkInterval} {date : Int}

/-- The part of an interval on a day. -/
def dayPart (date : Int) (interval : WorkInterval) : WorkInterval :=
  ⟨max interval.start (midnight date), min interval.finish (midnight (date + 1))⟩

def dayParts (date : Int) (interval : WorkInterval) : List WorkInterval :=
  if (dayPart date interval).start < (dayPart date interval).finish then [dayPart date interval] else []

/-- Cutting at every midnight leaves one part for each day that the interval meets. -/
theorem splitFrom_day (finish : Int) (remaining : Nat) (cursor : Int) (reach : dateOf cursor + remaining = dateOf finish) :
    (((splitFrom finish remaining cursor).filter fun part => part.2.start < part.2.finish).filter (·.1 = date)).map Prod.snd =
      dayParts date ⟨cursor, finish⟩ := by
  induction remaining generalizing cursor with
  | zero =>
    have today : date = dateOf cursor → dayPart date ⟨cursor, finish⟩ = ⟨cursor, finish⟩ := by
      rintro rfl
      simp only [dayPart, WorkInterval.mk.injEq, midnight, dateOf, day] at reach ⊢
      omega
    have other : date ≠ dateOf cursor → ¬ (dayPart date ⟨cursor, finish⟩).start < (dayPart date ⟨cursor, finish⟩).finish := by
      intro different
      simp only [dayPart, midnight, dateOf, day] at reach different ⊢
      omega
    rw [splitFrom, dayParts]
    by_cases same : date = dateOf cursor
    · rw [today same]
      by_cases below : cursor < finish <;> simp [below, same]
    · rw [if_neg (other same)]
      by_cases below : cursor < finish <;> simp [below, Ne.symm same]
  | succ remaining ih =>
    have next : dateOf (midnight (dateOf cursor + 1)) = dateOf cursor + 1 := by
      simp only [midnight, dateOf, day]
      omega
    have rest := ih (midnight (dateOf cursor + 1)) (by rw [next]; omega)
    have below : cursor < midnight (dateOf cursor + 1) := by
      simp only [midnight, dateOf, day]
      omega
    rw [splitFrom, List.filter_cons_of_pos (by simpa using below), List.filter_cons]
    by_cases same : date = dateOf cursor
    · have first : dayPart date ⟨cursor, finish⟩ = ⟨cursor, midnight (dateOf cursor + 1)⟩ := by
        simp only [dayPart, WorkInterval.mk.injEq, same, midnight, dateOf, day] at reach ⊢
        omega
      have later : ¬ (dayPart date ⟨midnight (dateOf cursor + 1), finish⟩).start <
          (dayPart date ⟨midnight (dateOf cursor + 1), finish⟩).finish := by
        simp only [dayPart, same]
        omega
      rw [if_pos (by simp [same]), List.map_cons, rest, dayParts, dayParts, if_neg later, first, if_pos below]
    · -- Every other day sees the same of what is left as of the whole.
      have unchanged : dayParts date ⟨midnight (dateOf cursor + 1), finish⟩ = dayParts date ⟨cursor, finish⟩ := by
        rcases lt_or_gt_of_ne same with before | after
        · rw [dayParts, dayParts, if_neg, if_neg]
          · simp only [dayPart, midnight, dateOf, day] at before ⊢
            omega
          · simp only [dayPart, midnight, dateOf, day] at before ⊢
            omega
        · have starts : max (midnight (dateOf cursor + 1)) (midnight date) = max cursor (midnight date) := by
            simp only [midnight, dateOf, day] at after ⊢
            omega
          have part : dayPart date ⟨midnight (dateOf cursor + 1), finish⟩ = dayPart date ⟨cursor, finish⟩ := by
            simp only [dayPart, starts]
          rw [dayParts, dayParts, part]
      rw [if_neg (by simpa using Ne.symm same), rest, unchanged]

theorem splitByDay_day (below : interval.start < interval.finish) :
    ((splitByDay interval).filter (·.1 = date)).map Prod.snd = dayParts date interval := by
  refine splitFrom_day interval.finish _ interval.start ?_
  have order : dateOf interval.start ≤ dateOf interval.finish := by
    simp only [dateOf, day]
    omega
  omega

/-- A band of the day meets the parts of an interval as it meets the interval. -/
theorem windowMinutes_parts {first last : Int} (within : 0 ≤ first ∧ last ≤ 24 * 60) :
    ((dayParts date interval).map (windowMinutes date first last)).sum = windowMinutes date first last interval := by
  rw [dayParts]
  split
  next inside =>
    simp only [List.map_cons, List.map_nil, List.sum_cons, List.sum_nil, windowMinutes, overlapMinutes, dayPart] at inside ⊢
    have starts : max (max interval.start (midnight date)) (midnight date + first * minute) =
        max interval.start (midnight date + first * minute) := by
      simp only [midnight, day, minute] at inside ⊢
      omega
    have ends : min (min interval.finish (midnight (date + 1))) (midnight date + last * minute) =
        min interval.finish (midnight date + last * minute) := by
      simp only [midnight, day, minute] at inside ⊢
      omega
    rw [starts, ends, add_zero]
  next outside =>
    simp only [List.map_nil, List.sum_nil, windowMinutes, overlapMinutes, dayPart] at outside ⊢
    simp only [midnight, day, minute] at outside ⊢
    omega

/-- The minutes of a part are those of the whole day. -/
theorem minutes_part {part : WorkInterval} (inside : part ∈ dayParts date interval) :
    part.minutes = windowMinutes date 0 (24 * 60) part := by
  rw [dayParts] at inside
  split at inside
  next below =>
    rw [List.mem_singleton] at inside
    subst inside
    simp only [WorkInterval.minutes, windowMinutes, overlapMinutes, dayPart] at below ⊢
    simp only [midnight, day, minute] at below ⊢
    omega
  next => cases inside

end Parts

section Counting
variable {intervals : List WorkInterval} {date first last : Int}

def minuteSpan (interval : WorkInterval) : Int × Int := (interval.start / minute, interval.finish / minute)

def minuteSpans (intervals : List WorkInterval) : List (Int × Int) := intervals.map minuteSpan

theorem DisjointWork.nonOverlapping (work : DisjointWork intervals) : NonOverlapping (minuteSpans intervals) := by
  rw [NonOverlapping, minuteSpans, List.pairwise_map]
  apply work.disjoint.imp
  intro left right apart
  simp only [minuteSpan, minute]
  omega

theorem DisjointWork.forward (work : DisjointWork intervals) : ∀ span ∈ minuteSpans intervals, span.1 ≤ span.2 := by
  intro span member
  obtain ⟨interval, listed, rfl⟩ := List.mem_map.mp member
  have := work.positive interval listed
  simp only [minuteSpan, minute]
  omega

theorem DisjointWork.covers (work : DisjointWork intervals) (point : Int) :
    Covers (minuteSpans intervals) point ↔ CoveredMinute intervals point := by
  simp only [Covers, minuteSpans, List.mem_map, exists_exists_and_eq_and, CoveredMinute]
  refine exists_congr fun interval => and_congr_right fun member => ?_
  have aligned := work.aligned interval member
  simp only [minuteSpan, minute] at aligned ⊢
  omega

theorem DisjointWork.perm {other : List WorkInterval} (work : DisjointWork intervals) (same : intervals.Perm other) :
    DisjointWork other where
  aligned interval member := work.aligned interval (same.mem_iff.mpr member)
  positive interval member := work.positive interval (same.mem_iff.mpr member)
  disjoint := (same.pairwise_iff fun apart => apart.symm).mp work.disjoint

theorem coveredMinutes_perm {other : List WorkInterval} (same : intervals.Perm other) :
    coveredMinutes date first last intervals = coveredMinutes date first last other := by
  have covered : ∀ point, CoveredMinute intervals point ↔ CoveredMinute other point := by
    intro point
    simp only [CoveredMinute, same.mem_iff]
  rw [coveredMinutes, coveredMinutes, Finset.filter_congr fun point _ => covered point]

theorem DisjointWork.card (work : DisjointWork intervals) (date first last : Int) :
    coveredMinutes date first last intervals = ((cover (minuteSpans intervals)).filter fun point =>
      date * (24 * 60) + first ≤ point ∧ point < date * (24 * 60) + last).card := by
  rw [coveredMinutes]
  congr 2
  ext point
  rw [Finset.mem_filter, Finset.mem_filter, mem_stretch, mem_cover, work.covers]
  exact and_comm

/-- The overlaps with a band add up to the covered minutes in it. -/
theorem DisjointWork.windows (work : DisjointWork intervals) (date first last : Int) :
    (intervals.map (windowMinutes date first last)).sum = coveredMinutes date first last intervals := by
  rw [work.card, card_filter_cover work.nonOverlapping, Nat.cast_list_sum, minuteSpans, List.map_map, List.map_map]
  congr 1
  apply List.map_congr_left
  intro interval member
  have aligned := work.aligned interval member
  have count := card_overlap (minuteSpan interval) (date * (24 * 60) + first, date * (24 * 60) + last)
  rw [Function.comp_apply, Function.comp_apply, count]
  simp only [windowMinutes, overlapMinutes, minuteSpan, midnight, day, minute] at aligned ⊢
  omega

theorem DisjointWork.dayWindows (work : DisjointWork intervals) (date first last : Int) (within : 0 ≤ first ∧ last ≤ 24 * 60) :
    ((dayIntervals date intervals).map (windowMinutes date first last)).sum = coveredMinutes date first last intervals := by
  rw [← work.windows, dayIntervals, List.map_flatMap, List.flatMap_def, List.sum_flatten, List.map_map]
  congr 1
  apply List.map_congr_left
  intro interval member
  rw [Function.comp_apply, splitByDay_day (work.positive interval member), windowMinutes_parts within]

theorem DisjointWork.dayTotal (work : DisjointWork intervals) :
    ((dayIntervals date intervals).map WorkInterval.minutes).sum = coveredMinutes date 0 (24 * 60) intervals := by
  rw [← work.dayWindows date 0 (24 * 60) ⟨le_rfl, le_rfl⟩]
  congr 1
  apply List.map_congr_left
  intro part member
  obtain ⟨interval, listed, inside⟩ := List.mem_flatMap.mp member
  rw [splitByDay_day (work.positive interval listed)] at inside
  exact minutes_part inside

/-- The covered minutes of two bands that follow one another. -/
theorem coveredMinutes_add (date : Int) (intervals : List WorkInterval) {first middle last : Int}
    (order : first ≤ middle ∧ middle ≤ last) :
    coveredMinutes date first middle intervals + coveredMinutes date middle last intervals =
      coveredMinutes date first last intervals := by
  have whole := stretch_union (show date * (24 * 60) + first ≤ date * (24 * 60) + middle by omega)
    (show date * (24 * 60) + middle ≤ date * (24 * 60) + last by omega)
  have disjoint := stretch_disjoint (date * (24 * 60) + first) (date * (24 * 60) + middle) (date * (24 * 60) + last)
  rw [coveredMinutes, coveredMinutes, coveredMinutes, ← whole, Finset.filter_union,
    Finset.card_union_of_disjoint (disjoint.mono (Finset.filter_subset _ _) (Finset.filter_subset _ _)), Nat.cast_add]

/-- Over all days that the work touches, the covered minutes are its whole length. -/
theorem DisjointWork.sum_days (work : DisjointWork intervals) (days : Finset Int)
    (touched : ∀ interval ∈ intervals, ∀ date, dateOf interval.start ≤ date → date ≤ dateOf interval.finish → date ∈ days) :
    ∑ date ∈ days, coveredMinutes date 0 (24 * 60) intervals = (intervals.map WorkInterval.minutes).sum := by
  have onDay (date : Int) : coveredMinutes date 0 (24 * 60) intervals =
      ((cover (minuteSpans intervals)).filter fun point => point / (24 * 60) = date).card := by
    rw [work.card]
    congr 2
    apply Finset.filter_congr
    intro point _
    omega
  have inDays : ∀ point ∈ cover (minuteSpans intervals), point / (24 * 60) ∈ days := by
    intro point member
    obtain ⟨interval, listed, bounds⟩ := (work.covers point).mp (mem_cover.mp member)
    apply touched interval listed
    · simp only [dateOf, day, minute] at bounds ⊢
      omega
    · simp only [dateOf, day, minute] at bounds ⊢
      omega
  have fibres := Finset.card_eq_sum_card_fiberwise inDays
  have lengths : size (minuteSpans intervals) = (intervals.map WorkInterval.minutes).sum := by
    rw [size, minuteSpans, List.map_map]
    congr 1
    apply List.map_congr_left
    intro interval member
    have aligned := work.aligned interval member
    simp only [Function.comp_apply, minuteSpan, WorkInterval.minutes, minute] at aligned ⊢
    omega
  rw [← lengths, ← card_cover work.nonOverlapping work.forward, fibres, Nat.cast_sum]
  exact Finset.sum_congr rfl fun date _ => onDay date

end Counting

section Metrics
variable {employment : Employment} {intervals : List WorkInterval}

/-- A profile with hours, under the checks of its table. -/
structure HourlyProfile (employment : Employment) : Prop where
  hourly : employment.employmentType ≠ .taskShiftBased
  afternoon : ∀ start ∈ employment.profile.afternoonStartMinutes, 0 ≤ start ∧ start ≤ 1319

def counted (minutes : Int) : MetricValue := ⟨minutes, (minutes + 3) / 6⟩

/-- What the hours of a day are: the covered minutes in each band that the profile tracks. -/
def countedMetrics (employment : Employment) (date : Int) (intervals : List WorkInterval) : DailyMetrics :=
  let covered (first last : Int) : Int := coveredMinutes date first last intervals
  let total := covered 0 (24 * 60)
  let band (enabled : Bool) (minutes : Int) : Option MetricValue := if enabled then some (counted minutes) else none
  { total := counted total
    afternoon := band employment.profile.afternoonHoursEnabled
      (covered (employment.profile.afternoonStartMinutes.getD 0) (22 * 60))
    night := band employment.profile.nightHoursEnabled (covered 0 (6 * 60) + covered (22 * 60) (24 * 60))
    weekend := band employment.profile.weekendHoursEnabled (if 5 ≤ Calendar.weekday date then total else 0)
    publicHoliday := band employment.profile.publicHolidayHoursEnabled (if isCzechPublicHoliday date then total else 0) }

theorem HourlyProfile.afternoonStart (profile : HourlyProfile employment) :
    0 ≤ employment.profile.afternoonStartMinutes.getD 0 := by
  cases start : employment.profile.afternoonStartMinutes with
  | none => exact le_rfl
  | some start' => exact (profile.afternoon start' start).1

theorem daily_metrics_counted (profile : HourlyProfile employment) (work : DisjointWork intervals) (date : Int) :
    calculateDailyMetrics employment date intervals = some (countedMetrics employment date intervals) := by
  have night : ((dayIntervals date intervals).map fun part =>
      windowMinutes date 0 (6 * 60) part + windowMinutes date (22 * 60) (24 * 60) part).sum =
      coveredMinutes date 0 (6 * 60) intervals + coveredMinutes date (22 * 60) (24 * 60) intervals := by
    rw [List.sum_map_add, work.dayWindows date 0 (6 * 60) ⟨le_rfl, by omega⟩,
      work.dayWindows date (22 * 60) (24 * 60) ⟨by omega, le_rfl⟩]
  have afternoon := work.dayWindows date (employment.profile.afternoonStartMinutes.getD 0) (22 * 60)
    ⟨profile.afternoonStart, by omega⟩
  simp only [calculateDailyMetrics, if_neg profile.hourly, night, afternoon, work.dayTotal]
  rfl

/-- Daily metrics are counts of covered minutes, whatever the order of the intervals. -/
theorem daily_metrics_count_minutes (profile : HourlyProfile employment) (work : DisjointWork intervals) :
    (∀ date, calculateDailyMetrics employment date intervals = some (countedMetrics employment date intervals)) ∧
    (∀ days : Finset Int, (∀ interval ∈ intervals, ∀ date, dateOf interval.start ≤ date → date ≤ dateOf interval.finish → date ∈ days) →
      ∑ date ∈ days, (((calculateDailyMetrics employment date intervals).map (·.total.minutes)).getD 0) =
        (intervals.map WorkInterval.minutes).sum) ∧
    (∀ other, intervals.Perm other → ∀ date,
      calculateDailyMetrics employment date other = calculateDailyMetrics employment date intervals) ∧
    (∀ start ∈ employment.profile.afternoonStartMinutes, 6 * 60 ≤ start → ∀ date metrics afternoon night,
      calculateDailyMetrics employment date intervals = some metrics → metrics.afternoon = some afternoon →
      metrics.night = some night →
      afternoon.minutes + night.minutes = metrics.total.minutes - coveredMinutes date (6 * 60) start intervals) := by
  refine ⟨daily_metrics_counted profile work, ?_, ?_, ?_⟩
  · intro days touched
    rw [← work.sum_days days touched]
    apply Finset.sum_congr rfl
    intro date _
    rw [daily_metrics_counted profile work]
    rfl
  · intro other same date
    rw [daily_metrics_counted profile work, daily_metrics_counted profile (work.perm same)]
    simp only [countedMetrics, coveredMinutes_perm same]
  · intro start configured late date metrics afternoon night found hasAfternoon hasNight
    rw [daily_metrics_counted profile work] at found
    obtain rfl := Option.some.inj found
    have bounds := profile.afternoon start configured
    have early := coveredMinutes_add date intervals (show (0 : Int) ≤ 6 * 60 ∧ 6 * 60 ≤ start by omega)
    have middle := coveredMinutes_add date intervals (show (0 : Int) ≤ start ∧ start ≤ 22 * 60 by omega)
    have whole := coveredMinutes_add date intervals (show (0 : Int) ≤ 22 * 60 ∧ 22 * 60 ≤ 24 * 60 by omega)
    have starts : employment.profile.afternoonStartMinutes.getD 0 = start := by
      rw [Option.mem_def] at configured
      rw [configured]
      rfl
    obtain rfl : counted (coveredMinutes date start (22 * 60) intervals) = afternoon := by
      simp only [countedMetrics, starts] at hasAfternoon
      split at hasAfternoon
      · exact Option.some.inj hasAfternoon
      · cases hasAfternoon
    obtain rfl : counted (coveredMinutes date 0 (6 * 60) intervals + coveredMinutes date (22 * 60) (24 * 60) intervals) = night := by
      simp only [countedMetrics] at hasNight
      split at hasNight
      · exact Option.some.inj hasNight
      · cases hasNight
    simp only [counted, countedMetrics]
    omega

/-- A Friday night shift that ends on Saturday morning, and a morning before it. -/
def sampleWork : List WorkInterval :=
  [⟨midnight 739303 + 1290 * minute, midnight 739304 + 390 * minute⟩, ⟨midnight 739303 + 480 * minute, midnight 739303 + 540 * minute⟩]

def sampleHourly : Employment :=
  ⟨1, 1, .workContract, { afternoonHoursEnabled := true, afternoonStartMinutes := some 840, nightHoursEnabled := true, weekendHoursEnabled := true },
    739000, none⟩

theorem sampleHourly_profile : HourlyProfile sampleHourly := ⟨by decide, by decide⟩

theorem sampleWork_disjoint : DisjointWork sampleWork := ⟨by decide, by decide, by decide⟩

theorem sample_daily_metrics_count_minutes :
    calculateDailyMetrics sampleHourly 739304 sampleWork = some (countedMetrics sampleHourly 739304 sampleWork) ∧
      countedMetrics sampleHourly 739304 sampleWork =
        ⟨⟨390, 65⟩, some ⟨0, 0⟩, some ⟨360, 60⟩, some ⟨390, 65⟩, none⟩ := by
  refine ⟨(daily_metrics_count_minutes sampleHourly_profile sampleWork_disjoint).1 739304, ?_⟩
  have computed : calculateDailyMetrics sampleHourly 739304 sampleWork =
      some ⟨⟨390, 65⟩, some ⟨0, 0⟩, some ⟨360, 60⟩, some ⟨390, 65⟩, none⟩ := by decide
  rw [daily_metrics_counted sampleHourly_profile sampleWork_disjoint] at computed
  exact Option.some.inj computed

end Metrics

end Dagmar.Proofs
