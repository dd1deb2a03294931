import Dagmar.Schema
import Dagmar.Library.Pairing
import Mathlib.Data.List.SplitBy
import Mathlib.Data.List.Dedup

/-! Closed work intervals from stored times and from planned shifts, and where
pauses go in them. Every computation here is on wall time. -/

namespace Dagmar
open Library.Pairing

structure WorkInterval where
  start : Int
  finish : Int
deriving DecidableEq, Repr

def WorkInterval.minutes (interval : WorkInterval) : Int := (interval.finish - interval.start) / minute

section Plans

def shiftPlanInterval (plan : ShiftPlan) : Option WorkInterval :=
  match plan.arrivalTime, plan.departureTime with
  | some arrival, some departure =>
    let start := midnight plan.date + arrival.minutes * minute
    let finish := midnight plan.date + departure.minutes * minute
    if finish ≤ start then none else some ⟨start, finish⟩
  | _, _ => none

def shiftPlanIntervals (plans : List ShiftPlan) : List WorkInterval := plans.filterMap shiftPlanInterval

def shiftPlanMonths (plan : Option ShiftPlan) : List (Int × Nat) :=
  (plan.map fun plan => Library.Calendar.yearMonth plan.date).toList

def shiftPlanDays (plan : Option ShiftPlan) : List Int := (plan.map ShiftPlan.date).toList

def shiftPlansOverlap (left right : ShiftPlan) : Bool :=
  match shiftPlanInterval left, shiftPlanInterval right with
  | some left, some right => left.start < right.finish && right.start < left.finish
  | _, _ => false

end Plans

section Pairs

/-- The sort key of an event is its wall time, then its number. -/
def eventLe (left right : AttendanceEvent) : Prop :=
  left.occurredAt.wall < right.occurredAt.wall ∨
    left.occurredAt.wall = right.occurredAt.wall ∧ left.id ≤ right.id

instance : DecidableRel eventLe := fun _ _ => inferInstanceAs (Decidable (_ ∨ _))

def orderedEvents (events : List AttendanceEvent) : List AttendanceEvent := events.insertionSort eventLe

/-- The pairs of one day, from its events in order. -/
def dayPairs (events : List AttendanceEvent) : List (AttendanceEvent × AttendanceEvent) :=
  (pairUp events).filter fun pair =>
    0 < pair.2.occurredAt.wall - pair.1.occurredAt.wall ∧ pair.2.occurredAt.wall - pair.1.occurredAt.wall < day

def pairEventRows (events : List AttendanceEvent) : List (AttendanceEvent × AttendanceEvent) :=
  let ordered := orderedEvents events
  (ordered.map (·.occurredAt.date)).dedup.flatMap fun date => dayPairs (ordered.filter (·.occurredAt.date = date))

def pairedEventIds (events : List AttendanceEvent) : List Int :=
  (pairEventRows events).flatMap fun pair => [pair.1.id, pair.2.id]

def pairInterval (pair : AttendanceEvent × AttendanceEvent) : WorkInterval :=
  ⟨pair.1.occurredAt.wall, pair.2.occurredAt.wall⟩

def pairEvents (events : List AttendanceEvent) : List WorkInterval := (pairEventRows events).map pairInterval

end Pairs

section Days

/-- The parts of an interval up to its last midnight, `remaining` of which lie ahead. -/
def splitFrom (finish : Int) : Nat → Int → List (Int × WorkInterval)
  | 0, cursor => [(dateOf cursor, ⟨cursor, finish⟩)]
  | remaining + 1, cursor =>
    (dateOf cursor, ⟨cursor, midnight (dateOf cursor + 1)⟩) :: splitFrom finish remaining (midnight (dateOf cursor + 1))

def splitByDay (interval : WorkInterval) : List (Int × WorkInterval) :=
  (splitFrom interval.finish (dateOf interval.finish - dateOf interval.start).toNat interval.start).filter
    fun part => part.2.start < part.2.finish

def overlapMinutes (interval : WorkInterval) (start finish : Int) : Int :=
  max 0 ((min interval.finish finish - max interval.start start) / minute)

end Days

section Breaks

/-- The first number of pauses after which the work fits into pieces of one to 360 minutes. -/
def breakCount (duration : Int) : Nat → Nat → Nat
  | 0, breaks => breaks
  | fuel + 1, breaks =>
    if breaks + 1 ≤ duration - breaks * 30 ∧ duration - breaks * 30 ≤ (breaks + 1) * 360 then breaks
    else breakCount duration fuel (breaks + 1)

def segmentsFrom : Nat → Int → List Int
  | 0, _ => []
  | remaining + 1, work => min 360 (work - remaining) :: segmentsFrom remaining (work - min 360 (work - remaining))

def breakSegments (duration : Int) : List Int × Nat :=
  if duration ≤ 360 then ([duration], 0)
  else
    let breaks := breakCount duration duration.toNat 0
    (segmentsFrom (breaks + 1) (duration - breaks * 30), breaks)

def breakTimes : List Int → Int → List Int
  | [], _ => []
  | segment :: segments, cursor =>
    let pause := cursor + segment * minute
    pause :: (pause + 30 * minute) :: breakTimes segments (pause + 30 * minute)

def automaticBreakEvents (start finish : Int) : List Int :=
  let (segments, breaks) := breakSegments ((finish - start) / minute)
  if breaks = 0 then [] else breakTimes segments.dropLast start

def intervalLe (left right : WorkInterval) : Prop :=
  left.start < right.start ∨ left.start = right.start ∧ left.finish ≤ right.finish

instance : DecidableRel intervalLe := fun _ _ => inferInstanceAs (Decidable (_ ∨ _))

/-- A pause of half an hour ends a session. -/
def workSessions (intervals : List WorkInterval) : List (List WorkInterval) :=
  (intervals.insertionSort intervalLe).splitBy fun left right => right.start - left.finish < 30 * minute

/-- The last interval tried that has room, stopping at the first one that holds the target. -/
def breakPlacement (target duration : Int) : List WorkInterval → Option Int → Option Int
  | [], placement => placement
  | interval :: session, placement =>
    let earliest := interval.start + minute
    let latest := interval.finish - (duration + 1) * minute
    if earliest ≤ latest then
      if earliest ≤ target ∧ target ≤ latest then some (min (max target earliest) latest)
      else breakPlacement target duration session (some (min (max target earliest) latest))
    else breakPlacement target duration session placement

/-- The pauses of a session from number `index` on, and the minutes left unplaced. -/
def placeBreaks (session : List WorkInterval) (start : Int) : Nat → Nat → Int → List Int × Int
  | 0, _, remaining => ([], remaining)
  | count + 1, index, remaining =>
    let duration := min 30 remaining
    if duration ≤ 0 then ([], remaining)
    else
      match breakPlacement (start + 360 * (index + 1) * minute) duration session none with
      | none => ([], remaining)
      | some placement =>
        let (rest, left) := placeBreaks session start count (index + 1) (remaining - duration)
        (placement :: (placement + duration * minute) :: rest, left)

def sessionStart (session : List WorkInterval) : Int := (session.head?.map WorkInterval.start).getD 0
def sessionEnd (session : List WorkInterval) : Int := (session.getLast?.map WorkInterval.finish).getD 0

def requiredBreaks (session : List WorkInterval) : Nat :=
  (breakSegments ((sessionEnd session - sessionStart session) / minute)).2

def existingBreakMinutes (session : List WorkInterval) : Int :=
  ((session.zip session.tail).map fun pair => max 0 ((pair.2.start - pair.1.finish) / minute)).sum

def missingMinutes (session : List WorkInterval) : Int :=
  max 0 (requiredBreaks session * 30 - existingBreakMinutes session)

/-- The additions of one session, if it needs any and they all find a place. -/
def sessionAdditions (rangeStart rangeEnd : Int) (session : List WorkInterval) : Option (List Int) :=
  if sessionEnd session ≤ rangeStart ∨ rangeEnd ≤ sessionStart session then none
  else if missingMinutes session = 0 then none
  else
    let (additions, remaining) :=
      placeBreaks session (sessionStart session) (requiredBreaks session) 0 (missingMinutes session)
    if remaining = 0 then some additions else none

def missingBreakEventGroups (intervals : List WorkInterval) (rangeStart rangeEnd : Int) : List (List Int) :=
  (workSessions intervals).filterMap (sessionAdditions rangeStart rangeEnd)

end Breaks

end Dagmar
