import Dagmar.Library.Calendar
import Mathlib.Data.List.DropRight
import Mathlib.Data.List.TakeWhile

/-! The texts a request carries for clock times and dates. The patterns follow
Python: `\d` admits every Unicode decimal digit, `$` also stands before one final
newline, and `date.fromisoformat` reads ASCII only. -/

namespace Dagmar
open Library.Calendar

/-- The zero of each block of ten Unicode decimal digits. -/
def decimalZeros : List Nat :=
  [0x30, 0x660, 0x6f0, 0x7c0, 0x966, 0x9e6, 0xa66, 0xae6, 0xb66, 0xbe6, 0xc66, 0xce6, 0xd66, 0xde6, 0xe50, 0xed0,
    0xf20, 0x1040, 0x1090, 0x17e0, 0x1810, 0x1946, 0x19d0, 0x1a80, 0x1a90, 0x1b50, 0x1bb0, 0x1c40, 0x1c50, 0xa620,
    0xa8d0, 0xa900, 0xa9d0, 0xa9f0, 0xaa50, 0xabf0, 0xff10, 0x104a0, 0x10d30, 0x11066, 0x110f0, 0x11136, 0x111d0,
    0x112f0, 0x11450, 0x114d0, 0x11650, 0x116c0, 0x11730, 0x118e0, 0x11950, 0x11c50, 0x11d50, 0x11da0, 0x11f50,
    0x16a60, 0x16ac0, 0x16b50, 0x1d7ce, 0x1d7d8, 0x1d7e2, 0x1d7ec, 0x1d7f6, 0x1e140, 0x1e2f0, 0x1e4f0, 0x1e950,
    0x1fbf0]

/-- The value of a character that `\d` admits. -/
def decimal? (c : Char) : Option Nat :=
  (decimalZeros.find? fun first => first ≤ c.toNat ∧ c.toNat ≤ first + 9).map (c.toNat - ·)

def isDecimal (c : Char) : Bool := (decimal? c).isSome

/-- `str.isspace` of one character. -/
def isSpace (c : Char) : Bool :=
  c.toNat ∈ [0x9, 0xa, 0xb, 0xc, 0xd, 0x1c, 0x1d, 0x1e, 0x1f, 0x20, 0x85, 0xa0, 0x1680, 0x2000, 0x2001, 0x2002, 0x2003,
    0x2004, 0x2005, 0x2006, 0x2007, 0x2008, 0x2009, 0x200a, 0x2028, 0x2029, 0x202f, 0x205f, 0x3000]

/-- `str.strip`. -/
def strip (value : String) : String :=
  String.ofList ((value.toList.dropWhile isSpace).reverse.dropWhile isSpace).reverse

theorem strip_strip (value : String) : strip (strip value) = strip value := by
  have tail : (value.toList.dropWhile isSpace).rdropWhile isSpace <+: value.toList.dropWhile isSpace :=
    List.rdropWhile_prefix _ _
  have head : ((value.toList.dropWhile isSpace).rdropWhile isSpace).dropWhile isSpace =
      (value.toList.dropWhile isSpace).rdropWhile isSpace := by
    apply List.dropWhile_eq_self_iff.mpr
    intro filled
    rw [tail.getElem filled]
    exact List.dropWhile_get_zero_not _ _ (filled.trans_le tail.length_le)
  change String.ofList (List.rdropWhile isSpace ((String.ofList (List.rdropWhile isSpace _)).toList.dropWhile isSpace)) = _
  rw [String.toList_ofList, head, List.rdropWhile_idempotent]
  rfl

/-- The five characters of `^(?:[01]\d|2[0-3]):[0-5]\d$`. -/
def isClock : List Char → Bool
  | [h, o, ':', m, i] =>
    ((h = '0' ∨ h = '1') ∧ isDecimal o ∨ h = '2' ∧ o ∈ ['0', '1', '2', '3']) ∧
      m ∈ ['0', '1', '2', '3', '4', '5'] ∧ isDecimal i
  | _ => false

def isValidHhmm (value : String) : Bool :=
  isClock value.toList || (value.toList.getLast? = some '\n' && isClock value.toList.dropLast)

/-- A clock time as the plan tables hold it: a text that passed `_TIME_RE`. -/
structure ClockTime where
  text : String
  valid : isValidHhmm text
deriving DecidableEq

/-- Minutes since midnight; the texts of the two halves go through `int`. -/
def ClockTime.minutes (time : ClockTime) : Int :=
  let digit (index : Nat) : Int := ((time.text.toList[index]?).bind decimal?).getD 0
  (digit 0 * 10 + digit 1) * 60 + (digit 3 * 10 + digit 4)

/-- `normalize_hhmm_or_none`: `none` is a `TimeParseError`. -/
def normalizeHhmmOrNone (value : Option String) : Option (Option ClockTime) :=
  match value with
  | none => some none
  | some text =>
    if text.toList.all isSpace then some none
    else if valid : isValidHhmm text then some (some ⟨text, valid⟩)
    else none

/-- `parse_hhmm_or_none` is an alias at the API layer. -/
def parseHhmmOrNone (value : Option String) : Option (Option ClockTime) := normalizeHhmmOrNone value

/-- `date(year, month, day)`: `none` is a `ValueError`. -/
def date? (year : Int) (month : Nat) (day : Int) : Option Int :=
  if 1 ≤ year ∧ year ≤ 9999 ∧ 1 ≤ month ∧ month ≤ 12 ∧ 1 ≤ day ∧ day ≤ daysInMonth year month
  then some (ordinal year month day) else none

def ascii? (c : Char) : Option Nat := if '0' ≤ c ∧ c ≤ '9' then some (c.toNat - '0'.toNat) else none

/-- `_DATE_RE`, which tells the two errors of `parse_yyyy_mm_dd` apart. -/
def isYyyyMmDd : List Char → Bool
  | [y1, y2, y3, y4, '-', m1, m2, '-', d1, d2] => [y1, y2, y3, y4, m1, m2, d1, d2].all isDecimal
  | [y1, y2, y3, y4, '-', m1, m2, '-', d1, d2, '\n'] => [y1, y2, y3, y4, m1, m2, d1, d2].all isDecimal
  | _ => false

/-- `parse_yyyy_mm_dd`. `strptime` takes any decimal digit in the year and in
the second place of the tens and twenties, and ASCII digits elsewhere. -/
def parseYyyyMmDd (value : String) : Option Int :=
  match value.toList with
  | [y1, y2, y3, y4, '-', m1, m2, '-', d1, d2] => do
    let year := (← decimal? y1) * 1000 + (← decimal? y2) * 100 + (← decimal? y3) * 10 + (← decimal? y4)
    let month := (← ascii? m1) * 10 + (← ascii? m2)
    let tens ← ascii? d1
    let ones ← if tens = 1 ∨ tens = 2 then decimal? d2 else ascii? d2
    date? year month (tens * 10 + ones : Nat)
  | _ => none

/-- The Monday of ISO week 1. -/
def isoWeek1Monday (year : Int) : Int :=
  let first := ordinal year 1 1
  if 3 < weekday first then first - weekday first + 7 else first - weekday first

/-- The day an ISO week date names. Week 53 exists in a year that begins on a
Thursday, or on a Wednesday when it is a leap year. -/
def isoWeekDate? (year : Int) (week day : Nat) : Option Int :=
  let long := weekday (ordinal year 1 1) = 3 ∨ weekday (ordinal year 1 1) = 2 ∧ isLeap year
  let named := isoWeek1Monday year + (week - 1) * 7 + (day - 1)
  if 1 ≤ year ∧ year ≤ 9999 ∧ 1 ≤ week ∧ (week ≤ 52 ∨ week = 53 ∧ long) ∧ 1 ≤ day ∧ day ≤ 7 ∧
      1 ≤ named ∧ named ≤ ordinal 9999 12 31
  then some named else none

def digits? (text : List Char) : Option Nat :=
  text.foldlM (fun value c => (ascii? c).map (value * 10 + ·)) 0

/-- `date.fromisoformat`: calendar and week dates, with or without separators. -/
def dateFromIsoformat (value : String) : Option Int :=
  match value.toList with
  | [y1, y2, y3, y4, '-', 'W', w1, w2, '-', d] => do
    isoWeekDate? (← digits? [y1, y2, y3, y4]) (← digits? [w1, w2]) (← digits? [d])
  | [y1, y2, y3, y4, '-', 'W', w1, w2] => do isoWeekDate? (← digits? [y1, y2, y3, y4]) (← digits? [w1, w2]) 1
  | [y1, y2, y3, y4, 'W', w1, w2, d] => do
    isoWeekDate? (← digits? [y1, y2, y3, y4]) (← digits? [w1, w2]) (← digits? [d])
  | [y1, y2, y3, y4, 'W', w1, w2] => do isoWeekDate? (← digits? [y1, y2, y3, y4]) (← digits? [w1, w2]) 1
  | [y1, y2, y3, y4, '-', m1, m2, '-', d1, d2] => do
    date? (← digits? [y1, y2, y3, y4]) (← digits? [m1, m2]) (← digits? [d1, d2])
  | [y1, y2, y3, y4, m1, m2, d1, d2] => do
    date? (← digits? [y1, y2, y3, y4]) (← digits? [m1, m2]) (← digits? [d1, d2])
  | _ => none

end Dagmar
