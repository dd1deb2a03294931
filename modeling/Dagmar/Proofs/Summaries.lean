import Dagmar.DailyMetrics
import Dagmar.Proofs.Pairs

/-! A summary of a month reads only the facts of that month. -/

namespace Dagmar.Proofs
open Library Library.Calendar

section ClockTimes

private theorem decimal_le {c : Char} {value : Nat} (read : decimal? c = some value) : value ≤ 9 := by
  obtain ⟨first, found, rfl⟩ := Option.map_eq_some_iff.mp read
  have bounds := List.find?_some found
  simp only [decide_eq_true_eq] at bounds
  omega

theorem digit_le (c : Char) : (decimal? c).getD 0 ≤ 9 := by
  cases read : decimal? c with
  | none => simp
  | some value => exact decimal_le read

/-- The digits of a clock text name an hour before 24 and a minute before 60. -/
private theorem isClock_digits {text : List Char} (clock : isClock text) :
    ∃ h o m i rest, text = h :: o :: ':' :: m :: i :: rest ∧
      (decimal? h).getD 0 * 10 + (decimal? o).getD 0 ≤ 23 ∧ (decimal? m).getD 0 * 10 + (decimal? i).getD 0 ≤ 59 := by
  unfold isClock at clock
  split at clock
  next h o m i =>
    simp only [decide_eq_true_eq] at clock
    obtain ⟨hour, minute, -⟩ := clock
    refine ⟨h, o, m, i, [], rfl, ?_, ?_⟩
    · have ones := digit_le o
      rcases hour with ⟨rfl | rfl, -⟩ | ⟨rfl, hour⟩
      · have : (decimal? '0').getD 0 = 0 := by decide
        omega
      · have : (decimal? '1').getD 0 = 1 := by decide
        omega
      · have tens : (decimal? '2').getD 0 = 2 := by decide
        have : (decimal? o).getD 0 ≤ 3 := by
          simp only [List.mem_cons, List.not_mem_nil, or_false] at hour
          rcases hour with rfl | rfl | rfl | rfl <;> decide
        omega
    · have ones := digit_le i
      have : (decimal? m).getD 0 ≤ 5 := by
        simp only [List.mem_cons, List.not_mem_nil, or_false] at minute
        rcases minute with rfl | rfl | rfl | rfl | rfl | rfl <;> decide
      omega
  · cases clock

theorem clockTime_shape (time : ClockTime) : ∃ h o m i rest, time.text.toList = h :: o :: ':' :: m :: i :: rest ∧
    (decimal? h).getD 0 * 10 + (decimal? o).getD 0 ≤ 23 ∧ (decimal? m).getD 0 * 10 + (decimal? i).getD 0 ≤ 59 := by
  have valid := time.valid
  simp only [isValidHhmm, Bool.or_eq_true, Bool.and_eq_true] at valid
  rcases valid with clock | ⟨newline, clock⟩
  · exact isClock_digits clock
  · obtain ⟨h, o, m, i, rest, same, bounds⟩ := isClock_digits clock
    have last := List.dropLast_append_getLast? _ (of_decide_eq_true newline)
    exact ⟨h, o, m, i, rest ++ ['\n'], by rw [← last, same]; rfl, bounds⟩

theorem clockTime_minutes (time : ClockTime) : 0 ≤ time.minutes ∧ time.minutes < 24 * 60 := by
  obtain ⟨h, o, m, i, rest, same, hour, minute⟩ := clockTime_shape time
  simp only [ClockTime.minutes, same]
  simp only [List.getElem?_cons_zero, List.getElem?_cons_succ, Option.bind_some]
  omega

end ClockTimes

section Plans

theorem shiftPlanInterval_sameDay {plan : ShiftPlan} {interval : WorkInterval}
    (planned : shiftPlanInterval plan = some interval) :
    interval.start < interval.finish ∧ dateOf interval.start = plan.date ∧ dateOf interval.finish = plan.date := by
  unfold shiftPlanInterval at planned
  split at planned
  next arrival departure _ _ =>
    have starts := clockTime_minutes arrival
    have ends := clockTime_minutes departure
    dsimp only at planned
    split at planned
    · cases planned
    next below =>
      cases planned
      simp only [dateOf, midnight, minute, day] at below ⊢
      omega
  · cases planned

/-- The planned part of a day comes from the plan of that day alone. -/
theorem dayIntervals_plans (db : Db) (employmentId start finish date : Int) (inside : start ≤ date ∧ date < finish) :
    dayIntervals date (shiftPlanIntervals (db.plansBetween employmentId start finish)) =
      ((db.shiftPlans.get (employmentId, date)).bind shiftPlanInterval).toList := by
  have single (plan : ShiftPlan) : dayIntervals date (shiftPlanInterval plan).toList =
      if plan.date = date then (shiftPlanInterval plan).toList else [] := by
    cases planned : shiftPlanInterval plan with
    | none => simp [dayIntervals]
    | some interval =>
      obtain ⟨below, first, second⟩ := shiftPlanInterval_sameDay planned
      simp only [dayIntervals, Option.toList_some, List.flatMap_cons, List.flatMap_nil, List.append_nil,
        splitByDay_sameDay below (first.trans second.symm), first]
      by_cases same : plan.date = date <;> simp [same]
  have spread (plans : List ShiftPlan) : dayIntervals date (shiftPlanIntervals plans) =
      plans.flatMap fun plan => dayIntervals date (shiftPlanInterval plan).toList := by
    induction plans with
    | nil => rfl
    | cons plan plans ih =>
      rw [List.flatMap_cons, ← ih]
      cases planned : shiftPlanInterval plan <;> simp [shiftPlanIntervals, dayIntervals, planned]
  rw [spread, Db.plansBetween]
  simp only [single]
  rw [db.shiftPlans.flatMap_select _ (employmentId, date)]
  · cases found : db.shiftPlans.get (employmentId, date) with
    | none => rfl
    | some plan =>
      have same := (Table.get_eq_some_iff.mp found).2
      simp only [ShiftPlan.key, Prod.mk.injEq] at same
      simp [same.2]
  · intro plan same
    simp only [ShiftPlan.key, Prod.mk.injEq] at same
    exact ⟨same.1, by omega⟩
  · intro plan selected other
    rw [if_neg]
    intro same
    exact other (Prod.ext selected.1 same)

end Plans

section Months

/-- The months whose first day and whose successor's first day are dates. -/
def Representable (month : Int × Nat) : Prop :=
  1 ≤ month.1 ∧ month.1 ≤ 9999 ∧ 1 ≤ month.2 ∧ month.2 ≤ 12 ∧ ¬ (month.1 = 9999 ∧ month.2 = 12)

instance (month : Int × Nat) : Decidable (Representable month) := inferInstanceAs (Decidable (_ ∧ _))

theorem monthRange_eq_some {year : Int} {month : Nat} {start finish : Int} :
    monthRange year month = some (start, finish) ↔
      Representable (year, month) ∧ start = firstDay year month ∧ finish = firstDay year (month + 1) := by
  have thirteen := firstDay_thirteen year
  have first (y : Int) (m : Nat) : (1 : Int) ≤ daysInMonth y m := by
    have := daysInMonth_pos y m
    omega
  unfold firstDay at *
  simp only [monthRange, date?, Representable, Option.bind_eq_bind, Option.bind_eq_some_iff]
  by_cases last : month = 12
  · subst last
    simp [first, Option.bind_eq_some_iff, thirteen]
    omega
  · simp [first, last, Option.bind_eq_some_iff]
    omega

/-- The days of a month are the days from its first one to the next month's. -/
theorem monthRange_days {year : Int} {month : Nat} {start finish : Int}
    (range : monthRange year month = some (start, finish)) (date : Int) :
    start ≤ date ∧ date < finish ↔ yearMonth date = (year, month) := by
  obtain ⟨valid, rfl, rfl⟩ := monthRange_eq_some.mp range
  exact (yearMonth_eq_iff date year month ⟨valid.2.2.1, valid.2.2.2.1⟩).symm

theorem monthRange_lt {year : Int} {month : Nat} {start finish : Int}
    (range : monthRange year month = some (start, finish)) : start < finish := by
  obtain ⟨valid, rfl, rfl⟩ := monthRange_eq_some.mp range
  obtain ⟨before, rfl⟩ : ∃ before, month = before + 1 := ⟨month - 1, by have := valid.2.2.1; omega⟩
  have length := daysInMonth_pos year (before + 1)
  simp only [firstDay, ordinal, daysBeforeMonth]
  omega

theorem mem_monthDays {start finish date : Int} : date ∈ monthDays start finish ↔ start ≤ date ∧ date < finish := by
  simp only [monthDays, List.mem_map, List.mem_range]
  constructor
  · intro found
    obtain ⟨offset, small, rfl⟩ := found
    omega
  · intro inside
    exact ⟨(date - start).toNat, by omega, by omega⟩

theorem monthDays_nodup (start finish : Int) : (monthDays start finish).Nodup := by
  apply List.Nodup.map _ List.nodup_range
  intro left right same
  simp only [add_right_inj, Nat.cast_inj] at same
  exact same

theorem buildMonthSummary_eq (db : Db) (employment : Employment) (year : Int) (month : Nat) (usePersisted : Bool) :
    buildMonthSummary db employment year month usePersisted = (monthRange year month).map fun range =>
      monthSummary ((monthDays range.1 range.2).map (daySummary db employment range.1 range.2 usePersisted)) := by
  unfold buildMonthSummary buildMonthSummaries
  cases monthRange year month <;> simp

end Months

section Locality

/-- Two databases hold the same facts of an employment on a day. -/
structure SameFacts (first second : Db) (employmentId date : Int) : Prop where
  events : ∀ event : AttendanceEvent, event.employmentId = employmentId → event.occurredAt.date = date →
    (event ∈ first.events ↔ event ∈ second.events)
  attendance : ∀ row : Attendance, row.key = (employmentId, date) → (row ∈ first.attendance ↔ row ∈ second.attendance)
  plans : ∀ plan : ShiftPlan, plan.key = (employmentId, date) → (plan ∈ first.shiftPlans ↔ plan ∈ second.shiftPlans)

variable {first second : Db} {employmentId date : Int}

theorem SameFacts.eventsOf (facts : SameFacts first second employmentId date) (event : AttendanceEvent)
    (same : event.occurredAt.date = date) : event ∈ first.eventsOf employmentId ↔ event ∈ second.eventsOf employmentId := by
  rw [Db.mem_eventsOf, Db.mem_eventsOf]
  exact and_congr_left fun owner => facts.events event owner same

theorem calculateDailyMetrics_congr {employment : Employment} {left right : List WorkInterval}
    (same : dayIntervals date left = dayIntervals date right) :
    calculateDailyMetrics employment date left = calculateDailyMetrics employment date right := by
  simp only [calculateDailyMetrics, same]

/-- An event is closed exactly when a pair of its own day holds it. -/
theorem mem_pairedEventIds {events : List AttendanceEvent} (numbered : Numbered events) {event : AttendanceEvent}
    (member : event ∈ eventsOn events date) : event.id ∈ pairedEventIds events ↔
      ∃ pair ∈ dayPairs (orderedEvents (eventsOn events date)), event = pair.1 ∨ event = pair.2 := by
  obtain ⟨inside, sameDate⟩ := mem_eventsOn.mp member
  simp only [pairedEventIds, List.mem_flatMap, List.mem_cons, List.not_mem_nil, or_false]
  constructor
  · intro found
    obtain ⟨pair, paired, ids⟩ := found
    obtain ⟨other, local'⟩ := mem_pairEventRows.mp paired
    obtain ⟨left, right, -, -⟩ := mem_dayPairs local'
    rw [mem_orderedEvents, mem_eventsOn] at left right
    have ends : event = pair.1 ∨ event = pair.2 := by
      rcases ids with same | same
      · exact .inl (numbered.2 _ inside _ left.1 same)
      · exact .inr (numbered.2 _ inside _ right.1 same)
    have day : other = date := by
      rcases ends with rfl | rfl
      · exact left.2.symm.trans sameDate
      · exact right.2.symm.trans sameDate
    exact ⟨pair, day ▸ local', ends⟩
  · intro found
    obtain ⟨pair, local', ends⟩ := found
    refine ⟨pair, mem_pairEventRows.mpr ⟨date, local'⟩, ?_⟩
    rcases ends with rfl | rfl
    · exact .inl rfl
    · exact .inr rfl

theorem workedState_congr {left right : List AttendanceEvent} (numbered : Numbered left) (numbered' : Numbered right)
    (same : ∀ event : AttendanceEvent, event.occurredAt.date = date → (event ∈ left ↔ event ∈ right)) :
    workedState left date = workedState right date := by
  have members (event : AttendanceEvent) : event ∈ eventsOn left date ↔ event ∈ eventsOn right date := by
    rw [mem_eventsOn, mem_eventsOn]
    exact and_congr_left (same event)
  have order := orderedEvents_congr (numbered.eventsOn date) (numbered'.eventsOn date) members
  have none : eventsOn left date = [] ↔ eventsOn right date = [] := by
    simp only [List.eq_nil_iff_forall_not_mem, members]
  have closed : (∀ event ∈ eventsOn left date, event.id ∈ pairedEventIds left) ↔
      ∀ event ∈ eventsOn right date, event.id ∈ pairedEventIds right := by
    apply forall_congr'
    intro event
    constructor
    · intro holds member
      rw [mem_pairedEventIds numbered' member, ← order, ← mem_pairedEventIds numbered ((members event).mpr member)]
      exact holds ((members event).mpr member)
    · intro holds member
      rw [mem_pairedEventIds numbered member, order, ← mem_pairedEventIds numbered' ((members event).mp member)]
      exact holds ((members event).mp member)
  unfold eventsOn at none closed
  simp only [workedState, none, closed]

/-- The computed summary of a day reads only the facts of that day. -/
theorem daySummary_congr {employment : Employment} {start finish : Int}
    (facts : SameFacts first second employment.id date) (inside : start ≤ date ∧ date < finish) :
    daySummary first employment start finish false date = daySummary second employment start finish false date := by
  have attendance := Table.get_congr facts.attendance
  have plans := Table.get_congr facts.plans
  have work : dayWork (first.eventsOf employment.id) date = dayWork (second.eventsOf employment.id) date :=
    dayWork_congr (numbered_eventsOf first _) (numbered_eventsOf second _) facts.eventsOf
  have worked : calculateDailyMetrics employment date (pairEvents (first.eventsOf employment.id)) =
      calculateDailyMetrics employment date (pairEvents (second.eventsOf employment.id)) := by
    apply calculateDailyMetrics_congr
    rw [dayIntervals_pairEvents, dayIntervals_pairEvents, work]
  have planned : calculateDailyMetrics employment date
      (shiftPlanIntervals (first.plansBetween employment.id start finish)) =
        calculateDailyMetrics employment date (shiftPlanIntervals (second.plansBetween employment.id start finish)) := by
    apply calculateDailyMetrics_congr
    rw [dayIntervals_plans first _ _ _ _ inside, dayIntervals_plans second _ _ _ _ inside, plans]
  have state := workedState_congr (numbered_eventsOf first employment.id) (numbered_eventsOf second employment.id)
    facts.eventsOf
  simp only [daySummary, attendance, plans, worked, planned, state, Bool.false_eq_true, if_false]

end Locality

end Dagmar.Proofs
