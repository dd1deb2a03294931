import Dagmar.CsvExport
import Dagmar.Library.Slug
import Dagmar.LoginWindow

/-! The export of one employment or of all of them, under file names that are made from
the names shown to people. -/

namespace Dagmar.AdminExport
open Library Library.Outcome Library.Slug Integration Payloads

section FileNames

/-- What the names take from `unicodedata` and `str.lower`. -/
structure Unicode where
  nfkd : String → String
  combining : Char → Bool
  lower : String → String

variable (unicode : Unicode)

def stripDiacritics (value : String) : String :=
  String.ofList ((unicode.nfkd value).toList.filter fun c => ! unicode.combining c)

/-- The characters that `_ALLOWED_RE` does not match. -/
def isAllowed (c : Char) : Bool := ('a' ≤ c ∧ c ≤ 'z') ∨ ('0' ≤ c ∧ c ≤ '9') ∨ c = '_' ∨ c = '-'

def isSeparator (c : Char) : Bool := c = '_' ∨ c = '-'

def orInstance (value : List Char) : List Char := if value = [] then "instance".toList else value

/-- The enforced length; zero stands for none. -/
def shortened (maxLen : Nat) (value : List Char) : List Char :=
  if maxLen ≠ 0 ∧ maxLen < value.length then orInstance ((value.take maxLen).rdropWhile isSeparator) else value

def slugifyFilename (value : Option String) (maxLen : Nat) : String :=
  let value := unicode.lower (stripDiacritics unicode (strip (value.getD "")))
  let value := subRuns isSpace '_' value.toList
  let value := subRuns (fun c => ! isAllowed c) '_' value
  let value := collapse '-' (collapse '_' value)
  let value := (value.dropWhile isSeparator).rdropWhile isSeparator
  String.ofList (shortened maxLen (orInstance value))

/-- `filename_safe` with its default length. -/
def filenameSafe (value : Option String) : String := slugifyFilename unicode value 80

end FileNames

section Months

/-- The spaces that `int` skips. -/
def isIntSpace (c : Char) : Bool := isSpace c && ! (0x1c ≤ c.toNat && c.toNat ≤ 0x1f)

/-- Decimal digits with single underscores between them. -/
def intDigits : List Char → Option (List Nat)
  | [] => none
  | [c] => (decimal? c).map fun digit => [digit]
  | c :: '_' :: text => do return (← decimal? c) :: (← intDigits text)
  | c :: text => do return (← decimal? c) :: (← intDigits text)

/-- `int` of a text; `none` is a `ValueError`. -/
def int (text : List Char) : Option Int := do
  let text := (text.dropWhile isIntSpace).rdropWhile isIntSpace
  let (sign, text) : Int × List Char := match text with
    | '-' :: text => (-1, text)
    | '+' :: text => (1, text)
    | text => (1, text)
  let digits ← intDigits text
  if 4300 < digits.length then none
  else some (sign * (digits.foldl (fun value digit => value * 10 + digit) 0 : Nat))

def yearAndMonth (text : List Char) : Option (Int × Nat) :=
  match text.dropWhile (· ≠ '-') with
  | [] => none
  | _ :: monthText => do
    let year ← int (text.takeWhile (· ≠ '-'))
    let month ← int monthText
    if 1 ≤ month ∧ month ≤ 12 then some (year, month.toNat) else none

/-- `_month_range`; the dates are made outside its `try`. -/
def monthRange (text : String) : Api (Int × Int) := do
  let (year, month) ← require (yearAndMonth text.toList) (.http 400 "Invalid month. Expected YYYY-MM")
  require (Dagmar.monthRange year month) (.uncaught (if year.natAbs < 2 ^ 31 then "ValueError" else "OverflowError"))

end Months

section Exports
variable (unicode : Unicode) (zone : Zone)

def employmentDisplayName (view : View) (employment : Employment) : String :=
  (view.userName employment).getD ("Uzivatel " ++ toString employment.userId) ++ " - " ++
    typeValue employment.employmentType ++ " - " ++ view.columns.title employment.id

/-- The order of `(user.name, start_date, id)`. -/
def relevantLe (view : View) (first second : Employment) : Prop :=
  let name (employment : Employment) := (view.userName employment).getD ""
  name first < name second ∨ name first = name second ∧ startsFirst first second

instance (view : View) : DecidableRel (relevantLe view) := fun _ _ => inferInstanceAs (Decidable (_ ∨ _))

def loadRelevantEmployments (view : View) (start finish : Int) : List Employment :=
  let candidates := (view.db.employments.rows.filter fun employment =>
    employmentOverlapsMonth employment start finish).insertionSort startsFirst
  let relevant := candidates.filter fun employment =>
    employmentIsValidOnDay employment (pragueToday zone view.clock) ∧ userIsActive view.db employment
  relevant.insertionSort (relevantLe view)

/-- A file, with its name and its text or its entries. -/
inductive Exported where
  | csv (filename content : String)
  | zip (filename : String) (entries : List (String × String))

def entryName (view : View) (month : String) (employment : Employment) : String :=
  filenameSafe unicode (some (employmentDisplayName view employment)) ++ "_" ++ month ++ ".csv"

/-- The header with the name of the file is encoded in Latin-1. -/
def encodedHeader (filename : String) : Api Unit :=
  raiseIf (filename.toList.any fun c => 0xff < c.toNat) (.uncaught "UnicodeEncodeError")

/-- An entry of the archive; `none` is an exception. -/
def zipEntry (view : View) (month : String) (start : Int) (employment : Employment) : Option (String × String) :=
  (csvForEmployment zone view employment start).map fun content => (entryName unicode view month employment, content)

/-- `export_csv_or_zip`, where an id of zero counts as none. -/
def exportCsvOrZip (view : View) (month : String) (employmentId : Option Int) (bulk : Option Bool) : Api Exported := do
  let (start, finish) ← monthRange month
  raiseIf (bulk = some true ∧ employmentId.getD 0 ≠ 0) (.http 400 "Use either bulk=true or employment_id, not both")
  if bulk ≠ some true then
    raiseIf (employmentId.getD 0 = 0) (.http 400 "employment_id is required unless bulk=true")
    let employment ← require (view.db.employments.get (employmentId.getD 0)) (.http 404 "Employment not found")
    raiseIf (¬ (employmentIsValidOnDay employment (pragueToday zone view.clock) ∧ userIsActive view.db employment ∧
      employmentOverlapsMonth employment start finish)) (.http 404 "Employment not found")
    let content ← require (csvForEmployment zone view employment start) (.uncaught "ValueError")
    encodedHeader (entryName unicode view month employment)
    return .csv (entryName unicode view month employment) content
  else
    let entries ← require ((loadRelevantEmployments zone view start finish).mapM (zipEntry unicode zone view month start))
      (.uncaught "ValueError")
    encodedHeader ("export_" ++ month ++ ".zip")
    return .zip ("export_" ++ month ++ ".zip") entries

end Exports

end Dagmar.AdminExport
