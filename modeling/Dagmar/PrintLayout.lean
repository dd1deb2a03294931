import Dagmar.CsvExport
import Dagmar.Library.Boxes
import Dagmar.Library.Wrapping
import Dagmar.PlanPayloads
import Mathlib.Algebra.Order.Ring.Rat

/-! The printed shift plan of a month: the texts of its pages and where they stand. A
text is wrapped at the greatest size at which it fits its box; a font and its measures
are the renderer's. -/

namespace Dagmar.Payloads
open Library Library.Calendar Library.Outcome

section Words

inductive PrintLocale where
  | cs
  | en
  | sk
  | de
deriving DecidableEq

structure Translation where
  en : String
  sk : String
  de : String

def Translation.text (translation : Translation) : PrintLocale → Option String
  | .cs => none
  | .en => some translation.en
  | .sk => some translation.sk
  | .de => some translation.de

def printWords : List (String × Translation) :=
  [("Plán směn", ⟨"Shift schedule", "Plán zmien", "Dienstplan"⟩),
    ("Měsíc", ⟨"Month", "Mesiac", "Monat"⟩),
    ("Vygenerováno", ⟨"Generated", "Vygenerované", "Erstellt"⟩),
    ("Strana", ⟨"Page", "Strana", "Seite"⟩),
    ("Úvazek / osoba", ⟨"Employment / person", "Úväzok / osoba", "Arbeitsverhältnis / Person"⟩),
    ("Časy PRŮCHOD 1, PRŮCHOD 2", ⟨"Times ENTRY 1, ENTRY 2", "Časy PRIECHOD 1, PRIECHOD 2", "Zeiten BUCHUNG 1, BUCHUNG 2"⟩),
    ("v každé buňce shora dolů", ⟨"top to bottom in each cell", "v každej bunke zhora nadol", "in jeder Zelle von oben nach unten"⟩),
    ("Měsíční součet (h)", ⟨"Monthly total (h)", "Mesačný súčet (h)", "Summe (h)"⟩),
    ("Plán", ⟨"Scheduled", "Plán", "Geplant"⟩),
    ("Odpoledne", ⟨"Afternoon", "Popoludnie", "Nachmittag"⟩),
    ("Noc", ⟨"Night", "Noc", "Nacht"⟩),
    ("Víkend", ⟨"Weekend", "Víkend", "Wochenende"⟩),
    ("Svátek", ⟨"Public holiday", "Sviatok", "Feiertag"⟩),
    ("Dovolená", ⟨"Annual leave", "Dovolenka", "Urlaub"⟩),
    ("Nemoc", ⟨"Sickness", "Choroba", "Krankheit"⟩),
    ("Paragraf", ⟨"Statutory leave", "Paragraf", "Gesetzliche Freistellung"⟩),
    ("Volno", ⟨"Day off", "Voľno", "Frei"⟩),
    ("směn", ⟨"shifts", "zmien", "Schichten"⟩),
    ("Pracovní smlouva", ⟨"Employment contract", "Pracovná zmluva", "Arbeitsvertrag"⟩),
    ("DPP / DPČ", ⟨"Work agreement (DPP / DPČ)", "DPP / DPČ", "Arbeitsvereinbarung (DPP / DPČ)"⟩),
    ("Úkolová / směnová odměna", ⟨"Task / shift-based pay", "Úkolová / zmenová odmena", "Aufgaben- / Schichtvergütung"⟩),
    ("Externí hodinová fakturace", ⟨"External hourly billing", "Externá hodinová fakturácia", "Externe Stundenabrechnung"⟩),
    ("Legenda", ⟨"Legend", "Legenda", "Legende"⟩),
    ("V buňce jsou chronologické plánované časy nebo celodenní stav.", ⟨"Each cell shows chronological planned times or a full-day status.", "V bunke sú chronologické plánované časy alebo celodenný stav.", "Jede Zelle zeigt chronologische Planzeiten oder einen ganztägigen Status."⟩),
    ("Dovolená = celodenní stav z plánu směn.", ⟨"Annual leave = full-day status from the shift schedule.", "Dovolenka = celodenný stav z plánu zmien.", "Urlaub = ganztägiger Status aus dem Dienstplan."⟩),
    ("Volno = celodenní stav bez plánované směny.", ⟨"Day off = full-day status without a planned shift.", "Voľno = celodenný stav bez plánovanej zmeny.", "Frei = ganztägiger Status ohne geplante Schicht."⟩),
    ("Šedé buňky označují víkend, béžové státní svátek.", ⟨"Grey cells mark weekends; beige cells mark public holidays.", "Sivé bunky označujú víkend, béžové štátny sviatok.", "Graue Zellen markieren Wochenenden, beige Zellen Feiertage."⟩),
    ("Hodiny: P plán, O odpoledne, N noc, V víkend, S svátek; DOV dovolená, NEM nemoc, PAR paragraf.", ⟨"Hours: P scheduled, O afternoon, N night, V weekend, S public holiday; DOV annual leave, NEM sickness, PAR statutory leave.", "Hodiny: P plán, O popoludnie, N noc, V víkend, S sviatok; DOV dovolenka, NEM choroba, PAR paragraf.", "Stunden: P geplant, O Nachmittag, N Nacht, V Wochenende, S Feiertag; DOV Urlaub, NEM Krankheit, PAR gesetzliche Freistellung."⟩),
    ("Výstup je optimalizovaný pro A4 na šířku a stránkuje po nejvýše pěti úvazcích.", ⟨"Optimized for A4 landscape, with up to five employments per page.", "Výstup je optimalizovaný pre A4 na šírku, najviac päť úväzkov na stranu.", "Für A4 quer optimiert, mit höchstens fünf Arbeitsverhältnissen pro Seite."⟩),
    ("Nový rok", ⟨"New Year's Day", "Nový rok", "Neujahr"⟩),
    ("Svátek práce", ⟨"Labour Day", "Sviatok práce", "Tag der Arbeit"⟩),
    ("Den vítězství", ⟨"Victory Day", "Deň víťazstva", "Tag des Sieges"⟩),
    ("Cyril a Metoděj", ⟨"Cyril and Methodius", "Cyril a Metod", "Kyrill und Method"⟩),
    ("Jan Hus", ⟨"Jan Hus", "Jan Hus", "Jan Hus"⟩),
    ("Den české státnosti", ⟨"Czech Statehood Day", "Deň českej štátnosti", "Tag der tschechischen Staatlichkeit"⟩),
    ("Den vzniku ČSR", ⟨"Czechoslovak Independence Day", "Deň vzniku ČSR", "Gründung der Tschechoslowakei"⟩),
    ("Den boje za svobodu", ⟨"Freedom and Democracy Day", "Deň boja za slobodu", "Tag der Freiheit und Demokratie"⟩),
    ("Štědrý den", ⟨"Christmas Eve", "Štedrý deň", "Heiligabend"⟩),
    ("1. svátek vánoční", ⟨"Christmas Day", "1. sviatok vianočný", "1. Weihnachtstag"⟩),
    ("2. svátek vánoční", ⟨"Boxing Day", "2. sviatok vianočný", "2. Weihnachtstag"⟩),
    ("Velký pátek", ⟨"Good Friday", "Veľký piatok", "Karfreitag"⟩),
    ("Velikonoční pondělí", ⟨"Easter Monday", "Veľkonočný pondelok", "Ostermontag"⟩)]

def printWeekdays : List (String × Translation) :=
  [("Po", ⟨"Mon", "Po", "Mo"⟩), ("Út", ⟨"Tue", "Ut", "Di"⟩), ("St", ⟨"Wed", "St", "Mi"⟩), ("Čt", ⟨"Thu", "Št", "Do"⟩),
    ("Pá", ⟨"Fri", "Pi", "Fr"⟩), ("So", ⟨"Sat", "So", "Sa"⟩), ("Ne", ⟨"Sun", "Ne", "So"⟩)]

def printMonths : PrintLocale → List String
  | .cs => monthLabels
  | .en => ["January", "February", "March", "April", "May", "June", "July", "August", "September", "October", "November", "December"]
  | .sk => ["január", "február", "marec", "apríl", "máj", "jún", "júl", "august", "september", "október", "november", "december"]
  | .de => ["Januar", "Februar", "März", "April", "Mai", "Juni", "Juli", "August", "September", "Oktober", "November", "Dezember"]

/-- A text that is not in a table is printed as it is. -/
def printText (value : String) (locale : PrintLocale) : String :=
  (((printWords.lookup value).or (printWeekdays.lookup value)).bind fun found => found.text locale).getD value

/-- The hours of a metric have one decimal. -/
def printHours (hours : ℚ) (locale : PrintLocale) : String :=
  let tenths := (hours * 10).floor
  toString (tenths / 10) ++ (if locale = .en then "." else ",") ++ toString (tenths % 10)

def joinLines (lines : List String) : String := String.intercalate "\n" lines

def employmentTypeLabels : List (String × String) :=
  [("WORK_CONTRACT", "Pracovní smlouva"), ("DPP_DPC", "DPP / DPČ"), ("TASK_SHIFT_BASED", "Úkolová / směnová odměna"),
    ("EXTERNAL_HOURLY", "Externí hodinová fakturace")]

def printMetricLabel : MetricKey → String
  | .total => "Plán"
  | .afternoon => "Odpoledne"
  | .night => "Noc"
  | .weekend => "Víkend"
  | .publicHoliday => "Svátek"

def metricAbbreviation : MetricKey → String
  | .total => "P"
  | .afternoon => "O"
  | .night => "N"
  | .weekend => "V"
  | .publicHoliday => "S"

def printStatusLabel : StatusKey → String
  | .holiday => "Dovolená"
  | .sickness => "Nemoc"
  | .paragraph => "Paragraf"

def statusMetricAbbreviation : StatusKey → String
  | .holiday => "DOV"
  | .sickness => "NEM"
  | .paragraph => "PAR"

def metricSummaryLabel (locale : PrintLocale) (metrics : List (MetricKey × MetricPayload)) : String :=
  joinLines (metrics.map fun item => printText (printMetricLabel item.1) locale ++ " " ++ printHours item.2.hours locale ++ " h")

def metricCellLabel (locale : PrintLocale) (metrics : List (MetricKey × MetricPayload)) : String :=
  joinLines (metrics.map fun item => metricAbbreviation item.1 ++ " " ++ printHours item.2.hours locale)

def statusMetricSummaryLabel (locale : PrintLocale) (metrics : List (StatusKey × MetricPayload)) : String :=
  joinLines (metrics.map fun item => printText (printStatusLabel item.1) locale ++ " " ++ printHours item.2.hours locale ++ " h")

def statusMetricCellLabel (locale : PrintLocale) (metrics : List (StatusKey × MetricPayload)) : String :=
  joinLines (metrics.map fun item => statusMetricAbbreviation item.1 ++ " " ++ printHours item.2.hours locale)

end Words

section Boxes

/-- The fonts of the renderer by their size, the length of a line in a font, and the edges of the ink
of lines that are drawn from the origin. -/
structure Face (φ : Type) where
  loadFont : Nat → φ
  textlength : φ → String → ℚ
  multilineTextbbox : φ → String → Box ℚ

/-- What is drawn: a shape that covers its box, or a text that is fitted into it. -/
inductive Operation where
  | shape (box : Box Int)
  | text (box : Box Int) (content : String) (size : Nat)

def Operation.box : Operation → Box Int
  | .shape box => box
  | .text box _ _ => box

structure Drawing (φ : Type) where
  font : φ
  wrapped : String
  x : ℚ
  y : ℚ

variable {φ : Type} (face : Face φ)

/-- Where the ink of a drawn text is. -/
def Drawing.ink (drawing : Drawing φ) : Box ℚ := (face.multilineTextbbox drawing.font drawing.wrapped).translate drawing.x drawing.y

/-- `str.split` without a separator. -/
def splitWords (text : List Char) : List (List Char) := Wrapping.words isSpace text

def lineFits (font : φ) (width : Int) (line : List Char) : Bool := face.textlength font (String.ofList line) ≤ width

/-- The lines of a text that is split at `width`. -/
def wrapText (font : φ) (width : Int) (text : String) : String :=
  String.ofList (['\n'].intercalate ((text.toList.splitOn '\n').flatMap fun paragraph =>
    Wrapping.wrap ' ' (lineFits face font width) (splitWords paragraph)))

def boxFits (font : φ) (width height : Int) (wrapped : String) : Prop :=
  let ink := face.multilineTextbbox font wrapped
  ink.right - ink.left ≤ width ∧ ink.bottom - ink.top ≤ height

instance (font : φ) (width height : Int) (wrapped : String) : Decidable (boxFits face font width height wrapped) :=
  inferInstanceAs (Decidable (_ ∧ _))

/-- `range(size, 9, -1)`. -/
def fontSizes (size : Nat) : List Nat := (List.range (size - 9)).map (size - ·)

def fitTextBox (text : String) (width height : Int) (size : Nat) : Except String (String × φ) :=
  match (fontSizes size).find? fun fontSize =>
      boxFits face (face.loadFont fontSize) width height (wrapText face (face.loadFont fontSize) width text) with
  | some fontSize => .ok (wrapText face (face.loadFont fontSize) width text, face.loadFont fontSize)
  | none => .error "print_capacity_exceeded"

/-- An empty text is not drawn. -/
def drawTextBox (box : Box Int) (text : String) (size : Nat) : Except String (Option (Drawing φ)) :=
  if text = "" then .ok none
  else do
    let (wrapped, font) ← fitTextBox face text (box.right - box.left) (box.bottom - box.top) size
    let offset := face.multilineTextbbox font wrapped
    return some ⟨font, wrapped, box.left - offset.left, box.top - offset.top⟩

def Operation.draw : Operation → Except String (Option (Drawing φ))
  | .shape _ => .ok none
  | .text box content size => drawTextBox face box content size

end Boxes

section Layout

def pageWidth : Int := 2339
def pageHeight : Int := 1654
def pageMarginX : Int := 72
def pageMarginY : Int := 56
def headerHeight : Int := 170
def legendHeight : Int := 160
def footerHeight : Int := 44
def labelColumnWidth : Int := 420
def summaryColumnWidth : Int := 118

def tableTop : Int := pageMarginY + headerHeight

def rowHeight : Int := (pageHeight - tableTop - legendHeight - footerHeight - pageMarginY) / (employmentsPerPage + 1)

def summaryX : Int := pageMarginX + labelColumnWidth

def daysX : Int := summaryX + summaryColumnWidth

def dayWidth (daysCount : Nat) : Int := (pageWidth - 2 * pageMarginX - labelColumnWidth - summaryColumnWidth) / daysCount

/-- The right edge of the table. -/
def tableRight (daysCount : Nat) : Int := pageMarginX + (labelColumnWidth + summaryColumnWidth + dayWidth daysCount * daysCount)

def legend : List String :=
  ["V buňce jsou chronologické plánované časy nebo celodenní stav.", "Dovolená = celodenní stav z plánu směn.",
    "Volno = celodenní stav bez plánované směny.", "Šedé buňky označují víkend, béžové státní svátek.",
    "Hodiny: P plán, O odpoledne, N noc, V víkend, S svátek; DOV dovolená, NEM nemoc, PAR paragraf."]

/-- `strftime("%d.%m.%Y %H:%M")`. -/
def generatedAtLabel (wall : Int) : String :=
  String.ofList (padded 2 (dayOf (dateOf wall)).toNat ++ '.' :: padded 2 (monthOf (dateOf wall)) ++
    '.' :: padded 4 (yearOf (dateOf wall)).toNat) ++ " " ++ clockText wall

def printMonthLabel (locale : PrintLocale) (report : ShiftPlanReport) : String :=
  if locale = .cs then report.monthLabel
  else ((printMonths locale)[report.month - 1]?).getD "" ++ " " ++ toString report.year

def titleOperations (locale : PrintLocale) (report : ShiftPlanReport) (page : ShiftPlanReportPage) (right : Int) : List Operation :=
  [.shape ⟨pageMarginX, pageMarginY, right, tableTop - 24⟩,
    .text ⟨pageMarginX + 24, pageMarginY + 20, right - 340, tableTop - 36⟩
      (printText "Plán směn" locale ++ "\n" ++ printText "Měsíc" locale ++ ": " ++ printMonthLabel locale report ++ "\n" ++
        printText "Vygenerováno" locale ++ ": " ++ generatedAtLabel report.generatedAt.wall) 24,
    .text ⟨right - 325, pageMarginY + 28, right - 20, tableTop - 36⟩
      (printText "Strana" locale ++ " " ++ toString page.pageNumber ++ "/" ++ toString (max 1 report.pages.length) ++
        "\nKájovoDocházka") 16]

def headingOperations (locale : PrintLocale) (right : Int) : List Operation :=
  [.shape ⟨pageMarginX, tableTop, right, tableTop + rowHeight⟩,
    .text ⟨pageMarginX + 12, tableTop + 12, summaryX - 12, tableTop + rowHeight - 12⟩
      (joinLines (["Úvazek / osoba", "Časy PRŮCHOD 1, PRŮCHOD 2", "v každé buňce shora dolů"].map (printText · locale))) 18,
    .text ⟨summaryX + 8, tableTop + 12, daysX - 8, tableTop + rowHeight - 12⟩ (printText "Měsíční součet (h)" locale) 16]

def headerOperations (locale : PrintLocale) (width : Int) (header : DayHeader) (dayIndex : Nat) : List Operation :=
  let x := daysX + dayIndex * width
  [.shape ⟨x, tableTop, x + width, tableTop + rowHeight⟩,
    .text ⟨x + 5, tableTop + 10, x + width - 5, tableTop + 65⟩
      (toString header.dayNumber ++ "\n" ++ printText header.weekdayShort locale) 18,
    .text ⟨x + 4, tableTop + 80, x + width - 4, tableTop + rowHeight - 10⟩ (printText (header.holidayLabel.getD "") locale) 12]

/-- The lines that are not empty. -/
def joinPresent (lines : List String) : String := joinLines (lines.filter (· ≠ ""))

def summaryText (locale : PrintLocale) (employment : ShiftPlanReportEmployment) : String :=
  joinPresent
    [printText "Plán" locale ++ " " ++ printHours employment.plannedHours locale ++ " h",
      metricSummaryLabel locale (employment.plannedMetrics.filter (·.1 ≠ .total)),
      statusMetricSummaryLabel locale employment.statusMetrics,
      toString employment.scheduledDays ++ " " ++ printText "směn" locale,
      "D " ++ toString employment.holidayDays ++ " · V " ++ toString employment.offDays]

def labelOperations (locale : PrintLocale) (employment : ShiftPlanReportEmployment) (top : Int) : List Operation :=
  [.text ⟨pageMarginX + 12, top + 12, summaryX - 12, top + rowHeight - 12⟩
      (employment.userName ++ "\n" ++ employment.title ++ "\n" ++
        printText ((employmentTypeLabels.lookup employment.employmentType).getD employment.employmentType) locale) 16,
    .text ⟨summaryX + 8, top + 10, daysX - 8, top + rowHeight - 10⟩ (summaryText locale employment) 14]

/-- Above each other the times of a day, and its status or its metrics. -/
def cellOperations (locale : PrintLocale) (width top : Int) (cell : ShiftPlanReportCell) (dayIndex : Nat) : List Operation :=
  let left := daysX + dayIndex * width
  [.shape ⟨left, top, left + width, top + rowHeight⟩,
    .text ⟨left + 4, top + 10, left + width - 4, top + 54⟩
      (joinPresent ([cell.arrivalTime, cell.departureTime].map fun time => (time.map ClockTime.text).getD "")) 14,
    .text ⟨left + 4, top + 60, left + width - 4, top + rowHeight - 10⟩
      (joinPresent [(cell.statusLabel.map (printText · locale)).getD "", statusMetricCellLabel locale cell.statusMetrics]) 12,
    .text ⟨left + 4, top + 65, left + width - 4, top + rowHeight - 10⟩
      (if cell.statusLabel.isSome then "" else metricCellLabel locale cell.plannedMetrics) 12]

def rowOperations (locale : PrintLocale) (width : Int) (employment : ShiftPlanReportEmployment) (rowIndex : Nat) : List Operation :=
  let top := tableTop + (rowIndex + 1) * rowHeight
  labelOperations locale employment top ++ (employment.cells.zipIdx.flatMap fun item => cellOperations locale width top item.1 item.2)

def gridOperations (daysCount : Nat) : List Operation :=
  ((List.range (employmentsPerPage + 2)).map fun (index : Nat) =>
    .shape ⟨pageMarginX, tableTop + index * rowHeight, tableRight daysCount, tableTop + index * rowHeight⟩) ++
  ([pageMarginX, summaryX] ++ (List.range (daysCount + 1)).map fun (index : Nat) => daysX + index * dayWidth daysCount).map fun x =>
    .shape ⟨x, tableTop, x, tableTop + (employmentsPerPage + 1) * rowHeight⟩

def footerOperations (locale : PrintLocale) (right : Int) : List Operation :=
  let legendTop := pageHeight - legendHeight - footerHeight
  [.shape ⟨pageMarginX, legendTop, right, pageHeight - footerHeight - 12⟩,
    .text ⟨pageMarginX + 18, legendTop + 12, right - 18, pageHeight - footerHeight - 24⟩
      (printText "Legenda" locale ++ "\n" ++ joinLines (legend.map fun item => "• " ++ printText item locale)) 15,
    .text ⟨pageMarginX, pageHeight - footerHeight, right, pageHeight - 8⟩
      (printText "Výstup je optimalizovaný pro A4 na šířku a stránkuje po nejvýše pěti úvazcích." locale) 13]

/-- What is drawn on a page, in the order in which it is drawn. -/
def pageOperations (locale : PrintLocale) (report : ShiftPlanReport) (page : ShiftPlanReportPage) : List Operation :=
  let daysCount := max 1 report.dayHeaders.length
  titleOperations locale report page (tableRight daysCount) ++ headingOperations locale (tableRight daysCount) ++
    (report.dayHeaders.zipIdx.flatMap fun item => headerOperations locale (dayWidth daysCount) item.1 item.2) ++
    (page.employments.zipIdx.flatMap fun item => rowOperations locale (dayWidth daysCount) item.1 item.2) ++
    gridOperations daysCount ++ footerOperations locale (tableRight daysCount)

/-- The texts that are drawn on each page, by operation; an error is the text of the exception. -/
def renderShiftPlanReportPdf {φ : Type} (face : Face φ) (report : ShiftPlanReport) (locale : PrintLocale) :
    Except String (List (List (Option (Drawing φ)))) := do
  let images ← report.pages.mapM fun page => (pageOperations locale report page).mapM (Operation.draw face)
  raiseIf (images = []) "Nepodařilo se vytvořit žádnou stránku PDF exportu plánu směn."
  return images

end Layout

end Dagmar.Payloads
