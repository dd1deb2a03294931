import Dagmar.MonthPayloads

/-! Public holidays on both sides: `date` of Python as the services use it, and `Date` of the
browser, whose divisions truncate and whose days are compared by their texts. -/

namespace Dagmar
open Library.Calendar

section Services

/-- The month and the day that `_easter_sunday` computes. -/
def easterMonthDay (year : Int) : Nat × Int :=
  let a := year % 19
  let b := year / 100
  let c := year % 100
  let d := b / 4
  let e := b % 4
  let f := (b + 8) / 25
  let g := (b - f + 1) / 3
  let h := (19 * a + b - d - g + 15) % 30
  let i := c / 4
  let k := c % 4
  let m := (a + 11 * h + 22 * ((32 + 2 * e + 2 * i - h - k) % 7)) / 451
  let month := (h + ((32 + 2 * e + 2 * i - h - k) % 7) - 7 * m + 114) / 31
  (month.toNat, (h + ((32 + 2 * e + 2 * i - h - k) % 7) - 7 * m + 114) % 31 + 1)

/-- `_easter_sunday`, which ends in `date`; `none` is a `ValueError`. -/
def easterSunday? (year : Int) : Option Int := date? year (easterMonthDay year).1 (easterMonthDay year).2

theorem easterSunday_eq (year : Int) : easterSunday year = ordinal year (easterMonthDay year).1 (easterMonthDay year).2 := rfl

end Services

namespace Browser

section Dates

def msPerDay : Int := 86400000

/-- The day of a valid `Date`, which is its time value in milliseconds since 1970. -/
def dayNumber (time : Int) : Int := time / msPerDay + ordinal 1970 1 1

def getUTCFullYear (time : Int) : Int := yearOf (dayNumber time)
def getUTCMonth (time : Int) : Int := monthOf (dayNumber time) - 1
def getUTCDate (time : Int) : Int := dayOf (dayNumber time)

/-- `MakeDay`: months count from zero, and both of them and the days may overflow. -/
def makeDay (year month date : Int) : Int := ordinal (year + month / 12) ((month % 12).toNat + 1) date

def makeDate (day time : Int) : Int := (day - ordinal 1970 1 1) * msPerDay + time

/-- `Date.UTC`; the years of two digits are those of the twentieth century. -/
def dateUTC (year month date hours : Int) : Int :=
  makeDate (makeDay (if 0 ≤ year ∧ year ≤ 99 then 1900 + year else year) month date) (hours * 3600000)

/-- `setUTCDate` keeps the time of the day. -/
def setUTCDate (time date : Int) : Int := makeDate (makeDay (getUTCFullYear time) (getUTCMonth time) date) (time % msPerDay)

def padStart2 (text : String) : String := String.ofList (List.replicate (2 - text.length) '0') ++ text

def dateKey (time : Int) : String := padStart2 (toString (getUTCMonth time + 1)) ++ "-" ++ padStart2 (toString (getUTCDate time))

def isoKey (time : Int) : String := toString (getUTCFullYear time) ++ "-" ++ dateKey time

/-- Operators on numbers are those on integers here: `%` has the sign of the dividend, and `Math.trunc` of a quotient truncates. -/
def easterSunday (year : Int) : Int :=
  let a := year.tmod 19
  let b := year.tdiv 100
  let c := year.tmod 100
  let d := b.tdiv 4
  let e := b.tmod 4
  let f := (b + 8).tdiv 25
  let g := (b - f + 1).tdiv 3
  let h := (19 * a + b - d - g + 15).tmod 30
  let i := c.tdiv 4
  let k := c.tmod 4
  let l := (32 + 2 * e + 2 * i - h - k).tmod 7
  let m := (a + 11 * h + 22 * l).tdiv 451
  let value := h + l - 7 * m + 114
  dateUTC year (value.tdiv 31 - 1) (value.tmod 31 + 1) 12

end Dates

section Labels

inductive AppLanguage where
  | cs
  | en
  | sk
  | de
  | hi
deriving DecidableEq

def appLanguages : List (String × AppLanguage) := [("cs", .cs), ("en", .en), ("sk", .sk), ("de", .de), ("hi", .hi)]

/-- `toLowerCase` is a parameter; a text before the first dash that names no language is read as Czech. -/
def toLanguage (toLowerCase : String → String) (language : Option String) : AppLanguage :=
  match language with
  | none => .cs
  | some language =>
    if language = "" then .cs
    else (appLanguages.lookup (String.ofList ((toLowerCase language).toList.takeWhile (· ≠ '-')))).getD .cs

def holidayLabels : AppLanguage → List (String × String)
  | .cs => [("01-01", "Nový rok / Den obnovy samostatného českého státu"), ("05-01", "Svátek práce"),
      ("05-08", "Den vítězství"), ("07-05", "Den slovanských věrozvěstů Cyrila a Metoděje"),
      ("07-06", "Den upálení mistra Jana Husa"), ("09-28", "Den české státnosti"),
      ("10-28", "Den vzniku samostatného československého státu"),
      ("11-17", "Den boje za svobodu a demokracii a Mezinárodní den studentstva"), ("12-24", "Štědrý den"),
      ("12-25", "1. svátek vánoční"), ("12-26", "2. svátek vánoční"), ("easterFriday", "Velký pátek"),
      ("easterMonday", "Velikonoční pondělí")]
  | .en => [("01-01", "New Year's Day / Restoration of the Independent Czech State Day"), ("05-01", "Labour Day"),
      ("05-08", "Victory Day"), ("07-05", "Saints Cyril and Methodius Day"), ("07-06", "Jan Hus Day"),
      ("09-28", "Czech Statehood Day"), ("10-28", "Independent Czechoslovak State Day"),
      ("11-17", "Struggle for Freedom and Democracy Day and International Students' Day"), ("12-24", "Christmas Eve"),
      ("12-25", "Christmas Day"), ("12-26", "St Stephen's Day"), ("easterFriday", "Good Friday"),
      ("easterMonday", "Easter Monday")]
  | .sk => [("01-01", "Nový rok / Deň obnovy samostatného českého štátu"), ("05-01", "Sviatok práce"),
      ("05-08", "Deň víťazstva"), ("07-05", "Deň slovanských vierozvestcov Cyrila a Metoda"),
      ("07-06", "Deň upálenia majstra Jána Husa"), ("09-28", "Deň českej štátnosti"),
      ("10-28", "Deň vzniku samostatného československého štátu"),
      ("11-17", "Deň boja za slobodu a demokraciu a Medzinárodný deň študentstva"), ("12-24", "Štedrý deň"),
      ("12-25", "Prvý sviatok vianočný"), ("12-26", "Druhý sviatok vianočný"), ("easterFriday", "Veľký piatok"),
      ("easterMonday", "Veľkonočný pondelok")]
  | .de => [("01-01", "Neujahr / Tag der Erneuerung des unabhängigen tschechischen Staates"), ("05-01", "Tag der Arbeit"),
      ("05-08", "Tag des Sieges"), ("07-05", "Tag der Slawenapostel Kyrill und Method"),
      ("07-06", "Gedenktag der Verbrennung von Jan Hus"), ("09-28", "Tag der tschechischen Staatlichkeit"),
      ("10-28", "Tag der Gründung des unabhängigen tschechoslowakischen Staates"),
      ("11-17", "Tag des Kampfes für Freiheit und Demokratie und Internationaler Studententag"), ("12-24", "Heiligabend"),
      ("12-25", "Erster Weihnachtstag"), ("12-26", "Zweiter Weihnachtstag"), ("easterFriday", "Karfreitag"),
      ("easterMonday", "Ostermontag")]
  | .hi => [("01-01", "नववर्ष / स्वतंत्र चेक राज्य की पुनर्स्थापना दिवस"), ("05-01", "श्रम दिवस"), ("05-08", "विजय दिवस"),
      ("07-05", "संत सिरिल और मेथोडियस दिवस"), ("07-06", "यान हुस स्मृति दिवस"), ("09-28", "चेक राज्यत्व दिवस"),
      ("10-28", "स्वतंत्र चेकोस्लोवाक राज्य की स्थापना दिवस"),
      ("11-17", "स्वतंत्रता और लोकतंत्र के संघर्ष का दिवस तथा अंतरराष्ट्रीय छात्र दिवस"), ("12-24", "क्रिसमस की पूर्वसंध्या"),
      ("12-25", "क्रिसमस दिवस"), ("12-26", "क्रिसमस का दूसरा दिन"), ("easterFriday", "गुड फ़्राइडे"),
      ("easterMonday", "ईस्टर सोमवार")]

/-- `getHolidayLabel`; an empty label would count as none. -/
def getHolidayLabel (toLowerCase : String → String) (time : Int) (language : Option String) : Option String :=
  let labels := holidayLabels (toLanguage toLowerCase language)
  match (labels.lookup (dateKey time)).filter (· ≠ "") with
  | some fixed => some fixed
  | none =>
    let easter := easterSunday (getUTCFullYear time)
    let friday := setUTCDate easter (getUTCDate easter - 2)
    let monday := setUTCDate easter (getUTCDate easter + 1)
    if isoKey time = isoKey friday then labels.lookup "easterFriday"
    else if isoKey time = isoKey monday then labels.lookup "easterMonday"
    else none

end Labels

end Browser

end Dagmar
