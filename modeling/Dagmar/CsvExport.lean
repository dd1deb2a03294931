import Dagmar.Library.Csv
import Dagmar.MonthPayloads

/-! The CSV of one employment and month. The number of its time columns is counted over
the days of the month before any row is written. -/

namespace Dagmar.Payloads
open Library Library.Calendar Integration

section Cells

/-- `csv.writer` with its defaults. -/
def excel : Csv.Dialect Char where
  delimiter := ','
  quote := '"'
  carriage := '\r'
  feed := '\n'
  distinct := by decide

def statusValue : DayStatus → String
  | .holiday => "HOLIDAY"
  | .off => "OFF"
  | .sickness => "SICKNESS"
  | .paragraph => "PARAGRAPH"

def metricLabel : MetricKey → String
  | .total => "odpracovano_h"
  | .afternoon => "odpoledni_h"
  | .night => "nocni_h"
  | .weekend => "vikend_h"
  | .publicHoliday => "svatek_h"

def statusMetricLabels : List String := ["dovolena_h", "nemoc_h", "paragraf_h"]

def MetricsOut.get (metrics : MetricsOut) : MetricKey → Option MetricOut
  | .total => metrics.total
  | .afternoon => metrics.afternoon
  | .night => metrics.night
  | .weekend => metrics.weekend
  | .publicHoliday => metrics.publicHoliday

def StatusMetricsOut.values (metrics : StatusMetricsOut) : List (Option MetricOut) :=
  [metrics.holiday, metrics.sickness, metrics.paragraph]

/-- The `repr` of the float `hours`, which has one decimal place; nothing for a metric that is not there. -/
def hoursText : Option MetricOut → String
  | none => ""
  | some metric =>
    (if metric.tenths < 0 then "-" else "") ++ toString (metric.tenths.natAbs / 10) ++ "." ++ toString (metric.tenths.natAbs % 10)

/-- `strftime("%H:%M")`. -/
def clockText (wall : Int) : String :=
  let minutes := (wall % day / minute).toNat
  String.ofList (padded 2 (minutes / 60) ++ ':' :: padded 2 (minutes % 60))

/-- The Prague time of an event of the payload; `none` is a `ValueError`. The text of an event has an offset. -/
def eventTime (zone : Zone) (event : AttendanceEventOut) : Option String :=
  match datetimeFromIsoformat event.occurredAt with
  | some (.aware utc) => some (clockText (zone.load utc).wall)
  | _ => none

end Cells

section Rows

def eventColumnCount (days : List AttendanceDayOut) : Nat := max 4 ((days.map fun day => day.events.length).max?.getD 0)

def planColumnCount (days : List AttendanceDayOut) : Nat :=
  max 2 ((days.map fun day => ([day.plannedArrivalTime, day.plannedDepartureTime].filter Option.isSome).length).max?.getD 0)

def numbered (title : String) (count : Nat) : List String := (List.range' 1 count).map fun index => title ++ " " ++ toString index

def csvHeader (month : AttendanceMonthOut) : List String :=
  ["zamestnanec", "uvazek", "typ_uvazku", "datum", "stav_dne"] ++ statusMetricLabels ++
    numbered "PRŮCHOD" (eventColumnCount month.days) ++ numbered "PLÁN – PRŮCHOD" (planColumnCount month.days) ++
    month.displayMetrics.map metricLabel

def displayedHours (day : AttendanceDayOut) (key : MetricKey) : String := hoursText (day.worked.bind (·.get key))

def isNonzero (metric : Option MetricOut) : Bool := metric.any fun metric => metric.tenths ≠ 0

def hasDisplayedWork (month : AttendanceMonthOut) (day : AttendanceDayOut) : Bool :=
  month.displayMetrics.any fun key => isNonzero (day.worked.bind (·.get key))

def hasStatusHours (day : AttendanceDayOut) : Bool := day.statusMetrics.values.any isNonzero

/-- The days that get a row. -/
def isWritten (month : AttendanceMonthOut) (day : AttendanceDayOut) : Bool :=
  day.events ≠ [] || day.effectiveStatus.isSome || day.plannedArrivalTime.isSome || day.plannedDepartureTime.isSome ||
    hasDisplayedWork month day || hasStatusHours day

def csvRow (zone : Zone) (view : View) (employment : Employment) (month : AttendanceMonthOut) (day : AttendanceDayOut) :
    Option (List String) := do
  let times ← (List.range (eventColumnCount month.days)).mapM fun index => (day.events[index]?).elim (some "") (eventTime zone)
  return [(view.userName employment).getD ("Uzivatel " ++ toString employment.userId), view.columns.title employment.id,
      typeValue employment.employmentType, String.ofList (isoDate day.date), (day.effectiveStatus.map statusValue).getD ""] ++
    day.statusMetrics.values.map hoursText ++ times ++
    [day.plannedArrivalTime, day.plannedDepartureTime].map (fun time => (time.map ClockTime.text).getD "") ++
    List.replicate (planColumnCount month.days - 2) "" ++ month.displayMetrics.map (displayedHours day)

/-- The header and the rows that `_csv_for_employment` writes; `none` is an exception. -/
def csvTable (zone : Zone) (view : View) (employment : Employment) (start : Int) : Option (List (List String)) := do
  let month ← buildMonth zone view employment (yearOf start) (monthOf start)
  let rows ← (month.days.filter (isWritten month)).mapM (csvRow zone view employment month)
  return csvHeader month :: rows

/-- `_csv_for_employment`, before its text is encoded in UTF-8. -/
def csvForEmployment (zone : Zone) (view : View) (employment : Employment) (start : Int) : Option String := do
  let table ← csvTable zone view employment start
  return String.ofList (excel.write (table.map fun row => row.map String.toList))

end Rows

end Dagmar.Payloads
