import Dagmar.Proofs.PrintedTexts
import Dagmar.Proofs.ReportPages

/-! On the pages of a printed report every text is whole, nothing is drawn over a text,
and no text leaves the page. A text of the table keeps a margin within its slot: the part
of a row that belongs to a column. -/

namespace Dagmar.Payloads.Proofs
open Library Library.Calendar Library.Outcome Integration Groups Dagmar.Proofs

section Operations

/-- Whether an operation leaves a text that is to be read. -/
def IsWritten : Operation → Prop
  | .shape _ => False
  | .text _ content _ => content ≠ ""

/-- Whether an operation leaves anything. -/
def IsDrawn : Operation → Prop
  | .shape _ => True
  | .text _ content _ => content ≠ ""

theorem box_shape (box : Box Int) : (Operation.shape box).box = box := rfl

theorem IsWritten.isDrawn {operation : Operation} (written : IsWritten operation) : IsDrawn operation := by
  cases operation with
  | shape box => trivial
  | text box content size => exact written

/-- What is drawn after a text stays off its box. -/
def KeepsOff (first second : Operation) : Prop := IsWritten first → IsDrawn second → first.box.Apart second.box

end Operations

section Slots

/-- A column of a row; the row of the headings comes first. -/
structure Slot where
  row : Nat
  left : Int
  right : Int

def Slot.box (slot : Slot) : Box Int :=
  ⟨slot.left, tableTop + slot.row * rowHeight, slot.right, tableTop + (slot.row + 1) * rowHeight⟩

/-- A drawing stays within its slot, and a text off the edges. -/
structure InSlot (slot : Slot) (operation : Operation) : Prop where
  within : operation.box.Within slot.box
  margin : IsWritten operation → slot.left < operation.box.left ∧ operation.box.right < slot.right ∧
    tableTop + slot.row * rowHeight < operation.box.top ∧ operation.box.bottom < tableTop + (slot.row + 1) * rowHeight

def Slot.Beside (first second : Slot) : Prop :=
  first.row ≠ second.row ∨ first.right ≤ second.left ∨ second.right ≤ first.left

theorem rowHeight_eq : rowHeight = 194 := rfl

theorem tableTop_eq : tableTop = 226 := rfl

theorem summaryX_eq : summaryX = 492 := rfl

theorem daysX_eq : daysX = 610 := rfl

theorem pageMarginX_eq : pageMarginX = 72 := rfl

theorem InSlot.keepsOff {first second : Slot} {text drawn : Operation} (inside : InSlot first text) (within : InSlot second drawn)
    (beside : first.Beside second) : KeepsOff text drawn := by
  intro written _
  obtain ⟨left, right, top, bottom⟩ := inside.margin written
  have bounds := within.within
  obtain ⟨farLeft, above, farRight, below⟩ := bounds
  simp only [Slot.box, rowHeight_eq, tableTop_eq] at *
  simp only [Slot.Beside, Box.Apart] at *
  omega

/-- The columns of the page. -/
def dayColumn (width : Int) (row dayIndex : Nat) : Slot := ⟨row, daysX + dayIndex * width, daysX + (dayIndex + 1) * width⟩

def labelColumn (row : Nat) : Slot := ⟨row, pageMarginX, summaryX⟩

def summaryColumn (row : Nat) : Slot := ⟨row, summaryX, daysX⟩

variable {width : Int}

theorem dayColumn_beside {row first second : Nat} (wide : 0 ≤ width) (before : first < second) :
    (dayColumn width row first).Beside (dayColumn width row second) := by
  right
  left
  have columns : ((first : Int) + 1) * width ≤ second * width := by
    apply Int.mul_le_mul_of_nonneg_right _ wide
    omega
  simp only [dayColumn]
  omega

theorem labelColumn_beside_day {row dayIndex : Nat} (wide : 0 ≤ width) : (labelColumn row).Beside (dayColumn width row dayIndex) := by
  right
  left
  have reached : 0 ≤ (dayIndex : Int) * width := Int.mul_nonneg (by omega) wide
  simp only [labelColumn, dayColumn, summaryX_eq, daysX_eq]
  omega

theorem summaryColumn_beside_day {row dayIndex : Nat} (wide : 0 ≤ width) :
    (summaryColumn row).Beside (dayColumn width row dayIndex) := by
  right
  left
  have reached : 0 ≤ (dayIndex : Int) * width := Int.mul_nonneg (by omega) wide
  simp only [summaryColumn, dayColumn]
  omega

theorem labelColumn_beside_summary (row : Nat) : (labelColumn row).Beside (summaryColumn row) := .inr (.inl (le_refl _))

end Slots

section Groups

variable {locale : PrintLocale} {width : Int}

theorem zipIdx_ascending {α : Type} (items : List α) : items.zipIdx.Pairwise fun first second => first.2 < second.2 := by
  apply List.pairwise_map.mp
  rw [List.zipIdx_map_snd]
  exact List.pairwise_lt_range'

theorem inSlot_header (header : DayHeader) (dayIndex : Nat) :
    ∀ operation ∈ headerOperations locale width header dayIndex, InSlot (dayColumn width 0 dayIndex) operation := by
  intro operation member
  simp only [headerOperations, List.mem_cons, List.not_mem_nil, or_false] at member
  rcases member with rfl | rfl | rfl <;> constructor
  all_goals first | exact fun written => written.elim | constructor | intro _
  all_goals
    simp only [Operation.box, Slot.box, dayColumn, tableTop_eq, rowHeight_eq, Int.add_mul, Int.one_mul]
    omega

theorem keepsOff_header (header : DayHeader) (dayIndex : Nat) :
    (headerOperations locale width header dayIndex).Pairwise KeepsOff := by
  simp only [headerOperations, List.pairwise_cons, List.mem_cons, List.not_mem_nil, or_false, List.Pairwise.nil]
  refine ⟨fun _ _ written => written.elim, ?_, nofun, trivial⟩
  rintro _ rfl _ _
  right; right; left
  simp only [Operation.box]
  omega

theorem inSlot_cell (cell : ShiftPlanReportCell) (row dayIndex : Nat) :
    ∀ operation ∈ cellOperations locale width (tableTop + (row + 1) * rowHeight) cell dayIndex,
      InSlot (dayColumn width (row + 1) dayIndex) operation := by
  intro operation member
  simp only [cellOperations, List.mem_cons, List.not_mem_nil, or_false] at member
  rcases member with rfl | rfl | rfl | rfl <;> constructor
  all_goals first | exact fun written => written.elim | constructor | intro _
  all_goals
    simp only [Operation.box, Slot.box, dayColumn, tableTop_eq, rowHeight_eq, Int.add_mul, Int.one_mul, Nat.cast_add, Nat.cast_one]
    omega

/-- A day without a status has no hours of a status; the metrics stand where they would be. -/
def Statused (cell : ShiftPlanReportCell) : Prop := cell.statusLabel = none → cell.statusMetrics = []

theorem keepsOff_cell {cell : ShiftPlanReportCell} (statused : Statused cell) (top : Int) (dayIndex : Nat) :
    (cellOperations locale width top cell dayIndex).Pairwise KeepsOff := by
  simp only [cellOperations, List.pairwise_cons, List.mem_cons, List.not_mem_nil, or_false, List.Pairwise.nil]
  refine ⟨fun _ _ written => written.elim, ?_, ?_, nofun, trivial⟩
  · rintro _ (rfl | rfl) _ _
    all_goals
      right; right; left
      simp only [Operation.box]
      omega
  · rintro _ rfl status metrics
    cases labelled : cell.statusLabel with
    | some label => simp [IsDrawn, labelled] at metrics
    | none =>
      have hours := statused labelled
      simp [IsWritten, labelled, hours, statusMetricCellLabel, joinPresent, joinLines] at status

theorem inSlot_label (employment : ShiftPlanReportEmployment) (row : Nat) :
    ∀ operation ∈ labelOperations locale employment (tableTop + (row + 1) * rowHeight),
      InSlot (labelColumn (row + 1)) operation ∨ InSlot (summaryColumn (row + 1)) operation := by
  intro operation member
  simp only [labelOperations, List.mem_cons, List.not_mem_nil, or_false] at member
  rcases member with rfl | rfl
  · left
    constructor
    all_goals first | constructor | intro _
    all_goals
      simp only [Operation.box, Slot.box, labelColumn, tableTop_eq, rowHeight_eq, summaryX_eq, pageMarginX_eq, Nat.cast_add, Nat.cast_one]
      omega
  · right
    constructor
    all_goals first | constructor | intro _
    all_goals
      simp only [Operation.box, Slot.box, summaryColumn, tableTop_eq, rowHeight_eq, summaryX_eq, daysX_eq, Nat.cast_add, Nat.cast_one]
      omega

theorem keepsOff_label (employment : ShiftPlanReportEmployment) (top : Int) :
    (labelOperations locale employment top).Pairwise KeepsOff := by
  simp only [labelOperations, List.pairwise_cons, List.mem_cons, List.not_mem_nil, or_false, List.Pairwise.nil]
  refine ⟨?_, nofun, trivial⟩
  rintro _ rfl _ _
  left
  simp only [Operation.box, summaryX_eq]
  omega

theorem keepsOff_title (report : ShiftPlanReport) (page : ShiftPlanReportPage) (right : Int) :
    (titleOperations locale report page right).Pairwise KeepsOff := by
  simp only [titleOperations, List.pairwise_cons, List.mem_cons, List.not_mem_nil, or_false, List.Pairwise.nil]
  refine ⟨fun _ _ written => written.elim, ?_, nofun, trivial⟩
  rintro _ rfl _ _
  left
  simp only [Operation.box]
  omega

theorem title_above (report : ShiftPlanReport) (page : ShiftPlanReportPage) (right : Int) :
    ∀ operation ∈ titleOperations locale report page right, operation.box.bottom < tableTop := by
  intro operation member
  simp only [titleOperations, List.mem_cons, List.not_mem_nil, or_false] at member
  rcases member with rfl | rfl | rfl
  all_goals
    simp only [Operation.box]
    omega

theorem keepsOff_heading (right : Int) : (headingOperations locale right).Pairwise KeepsOff := by
  simp only [headingOperations, List.pairwise_cons, List.mem_cons, List.not_mem_nil, or_false, List.Pairwise.nil]
  refine ⟨fun _ _ written => written.elim, ?_, nofun, trivial⟩
  rintro _ rfl _ _
  left
  simp only [Operation.box, summaryX_eq]
  omega

theorem inSlot_heading (right : Int) : ∀ operation ∈ headingOperations locale right, IsWritten operation →
    InSlot (labelColumn 0) operation ∨ InSlot (summaryColumn 0) operation := by
  intro operation member written
  simp only [headingOperations, List.mem_cons, List.not_mem_nil, or_false] at member
  rcases member with rfl | rfl | rfl
  · exact written.elim
  · left
    constructor
    all_goals first | constructor | intro _
    all_goals
      simp only [Operation.box, Slot.box, labelColumn, tableTop_eq, rowHeight_eq, summaryX_eq, pageMarginX_eq]
      omega
  · right
    constructor
    all_goals first | constructor | intro _
    all_goals
      simp only [Operation.box, Slot.box, summaryColumn, tableTop_eq, rowHeight_eq, summaryX_eq, daysX_eq]
      omega

theorem keepsOff_footer (right : Int) : (footerOperations locale right).Pairwise KeepsOff := by
  simp only [footerOperations, List.pairwise_cons, List.mem_cons, List.not_mem_nil, or_false, List.Pairwise.nil]
  refine ⟨fun _ _ written => written.elim, ?_, nofun, trivial⟩
  rintro _ rfl _ _
  right; right; left
  simp only [Operation.box]
  omega

theorem footer_below (right : Int) : ∀ operation ∈ footerOperations locale right, tableTop + 6 * rowHeight < operation.box.top := by
  intro operation member
  simp only [footerOperations, List.mem_cons, List.not_mem_nil, or_false] at member
  rcases member with rfl | rfl | rfl <;> simp only [Operation.box] <;> decide

end Groups

section Table

variable {locale : PrintLocale} {width : Int} {days : Nat}

/-- The slots of a table with some days. -/
inductive OnTable (width : Int) (days : Nat) : Slot → Prop where
  | label (row : Nat) : OnTable width days (labelColumn row)
  | summary (row : Nat) : OnTable width days (summaryColumn row)
  | day (row : Nat) {dayIndex : Nat} : dayIndex < days → OnTable width days (dayColumn width row dayIndex)

/-- What is drawn in a slot of a row. -/
def InRow (width : Int) (days row : Nat) (operation : Operation) : Prop :=
  ∃ slot, OnTable width days slot ∧ slot.row = row ∧ InSlot slot operation

theorem InRow.keepsOff {first second : Nat} {text drawn : Operation} (inside : InRow width days first text)
    (within : InRow width days second drawn) (differ : first ≠ second) : KeepsOff text drawn := by
  obtain ⟨left, -, rfl, inside⟩ := inside
  obtain ⟨right, -, rfl, within⟩ := within
  exact inside.keepsOff within (.inl differ)

/-- The operations of the days of a row. -/
theorem days_inRow {α : Type} {row : Nat} {items : List α} {draw : α → Nat → List Operation} (few : items.length ≤ days)
    (inSlot : ∀ item dayIndex, ∀ operation ∈ draw item dayIndex, InSlot (dayColumn width row dayIndex) operation) :
    ∀ operation ∈ items.zipIdx.flatMap fun item => draw item.1 item.2, InRow width days row operation := by
  intro operation member
  obtain ⟨⟨item, dayIndex⟩, listed, drawn⟩ := List.mem_flatMap.mp member
  have bound := (List.mem_zipIdx' listed).1
  exact ⟨_, .day row (bound.trans_le few), rfl, inSlot item dayIndex operation drawn⟩

theorem days_keepOff {α : Type} (wide : 0 ≤ width) {row : Nat} {items : List α} {draw : α → Nat → List Operation}
    (inSlot : ∀ item dayIndex, ∀ operation ∈ draw item dayIndex, InSlot (dayColumn width row dayIndex) operation)
    (each : ∀ item ∈ items, ∀ dayIndex, (draw item dayIndex).Pairwise KeepsOff) :
    (items.zipIdx.flatMap fun item => draw item.1 item.2).Pairwise KeepsOff := by
  apply List.pairwise_flatMap.mpr
  constructor
  · intro item member
    exact each item.1 (List.fst_mem_of_mem_zipIdx member) item.2
  · apply (zipIdx_ascending items).imp
    intro first second before text inside drawn within
    exact (inSlot _ _ text inside).keepsOff (inSlot _ _ drawn within) (dayColumn_beside wide before)

theorem row_inRow {employment : ShiftPlanReportEmployment} (few : employment.cells.length ≤ days) (row : Nat) :
    ∀ operation ∈ rowOperations locale width employment row, InRow width days (row + 1) operation := by
  intro operation member
  rcases List.mem_append.mp member with label | cell
  · rcases inSlot_label employment row operation label with inside | inside
    · exact ⟨_, .label _, rfl, inside⟩
    · exact ⟨_, .summary _, rfl, inside⟩
  · exact days_inRow few (fun cell dayIndex => inSlot_cell cell row dayIndex) operation cell

theorem keepsOff_row (wide : 0 ≤ width) {employment : ShiftPlanReportEmployment}
    (statused : ∀ cell ∈ employment.cells, Statused cell) (row : Nat) :
    (rowOperations locale width employment row).Pairwise KeepsOff := by
  apply List.pairwise_append.mpr
  refine ⟨keepsOff_label employment _, ?_, ?_⟩
  · exact days_keepOff wide (fun cell dayIndex => inSlot_cell cell row dayIndex)
      fun cell member dayIndex => keepsOff_cell (statused cell member) _ dayIndex
  · intro text label drawn cell
    obtain ⟨⟨item, dayIndex⟩, -, inside⟩ := List.mem_flatMap.mp cell
    have within := inSlot_cell item row dayIndex drawn inside
    rcases inSlot_label employment row text label with column | column
    · exact column.keepsOff within (labelColumn_beside_day wide)
    · exact column.keepsOff within (summaryColumn_beside_day wide)

theorem heading_keepsOff_days (wide : 0 ≤ width) {right : Int} {text drawn : Operation} (heading : text ∈ headingOperations locale right)
    {dayIndex : Nat} (within : InSlot (dayColumn width 0 dayIndex) drawn) : KeepsOff text drawn := by
  intro written
  rcases inSlot_heading right text heading written with column | column
  · exact column.keepsOff within (labelColumn_beside_day wide) written
  · exact column.keepsOff within (summaryColumn_beside_day wide) written

/-- A line of the grid runs along the edges of the slots. -/
theorem grid_keepsOff {row : Nat} (wide : 0 ≤ dayWidth days) {text drawn : Operation} (inside : InRow (dayWidth days) days row text)
    (member : drawn ∈ gridOperations days) : KeepsOff text drawn := by
  intro written _
  obtain ⟨slot, table, -, inSlot⟩ := inside
  obtain ⟨left, right, top, bottom⟩ := inSlot.margin written
  simp only [tableTop_eq, rowHeight_eq] at top bottom
  rcases List.mem_append.mp member with horizontal | vertical
  · obtain ⟨index, -, rfl⟩ := List.mem_map.mp horizontal
    rw [box_shape]
    simp only [Box.Apart, tableTop_eq, rowHeight_eq]
    omega
  · obtain ⟨x, column, rfl⟩ := List.mem_map.mp vertical
    have beside : x ≤ slot.left ∨ slot.right ≤ x := by
      simp only [List.mem_append, List.mem_cons, List.not_mem_nil, or_false, List.mem_map] at column
      cases table with
      | label row =>
        rcases column with (rfl | rfl) | ⟨index, -, rfl⟩
        · exact .inl (le_refl _)
        · exact .inr (le_refl _)
        · have reached : 0 ≤ (index : Int) * dayWidth days := Int.mul_nonneg (by omega) wide
          simp only [labelColumn, summaryX_eq, daysX_eq]
          omega
      | summary row =>
        rcases column with (rfl | rfl) | ⟨index, -, rfl⟩
        · exact .inl (by simp only [summaryColumn, pageMarginX_eq, summaryX_eq]; omega)
        · exact .inl (le_refl _)
        · have reached : 0 ≤ (index : Int) * dayWidth days := Int.mul_nonneg (by omega) wide
          simp only [summaryColumn, daysX_eq]
          omega
      | @day row dayIndex _ =>
        have start : 0 ≤ (dayIndex : Int) * dayWidth days := Int.mul_nonneg (by omega) wide
        rcases column with (rfl | rfl) | ⟨index, -, rfl⟩
        · simp only [dayColumn, pageMarginX_eq, daysX_eq]
          omega
        · simp only [dayColumn, summaryX_eq, daysX_eq]
          omega
        · rcases Nat.lt_or_ge dayIndex index with after | before
          · have columns : ((dayIndex : Int) + 1) * dayWidth days ≤ index * dayWidth days :=
              Int.mul_le_mul_of_nonneg_right (by omega) wide
            simp only [dayColumn]
            omega
          · have columns : (index : Int) * dayWidth days ≤ dayIndex * dayWidth days :=
              Int.mul_le_mul_of_nonneg_right (by omega) wide
            simp only [dayColumn]
            omega
    rw [box_shape]
    simp only [Box.Apart]
    omega

end Table

section Pages

variable {locale : PrintLocale} {report : ShiftPlanReport} {page : ShiftPlanReportPage}

/-- What a page of a report promises its renderer. -/
structure PageAligned (report : ShiftPlanReport) (page : ShiftPlanReportPage) : Prop where
  rows : page.employments.length ≤ employmentsPerPage
  cells : ∀ row ∈ page.employments, row.cells.length = report.dayHeaders.length
  statused : ∀ row ∈ page.employments, ∀ cell ∈ row.cells, Statused cell

theorem dayWidth_nonneg (days : Nat) : 0 ≤ dayWidth days := Int.ediv_nonneg (by decide) (by omega)

theorem dayWidth_mul_le (days : Nat) (some : 0 < days) : dayWidth days * days ≤ 1657 := by
  have floor := Int.ediv_mul_le 1657 (show (days : Int) ≠ 0 by omega)
  exact floor

/-- The operations of the days and rows of a page. -/
def tableOperations (locale : PrintLocale) (report : ShiftPlanReport) (page : ShiftPlanReportPage) (days : Nat) : List Operation :=
  (report.dayHeaders.zipIdx.flatMap fun item => headerOperations locale (dayWidth days) item.1 item.2) ++
    page.employments.zipIdx.flatMap fun item => rowOperations locale (dayWidth days) item.1 item.2

theorem table_inRow (aligned : PageAligned report page) {days : Nat} (few : report.dayHeaders.length ≤ days) :
    ∀ operation ∈ tableOperations locale report page days, ∃ row ≤ employmentsPerPage, InRow (dayWidth days) days row operation := by
  intro operation member
  rcases List.mem_append.mp member with header | row
  · exact ⟨0, Nat.zero_le _, days_inRow few inSlot_header operation header⟩
  · obtain ⟨⟨employment, index⟩, listed, inside⟩ := List.mem_flatMap.mp row
    have cells := aligned.cells employment (List.fst_mem_of_mem_zipIdx listed)
    have bound := (List.mem_zipIdx' listed).1.trans_le aligned.rows
    exact ⟨index + 1, bound, row_inRow (cells.trans_le few) index operation inside⟩

theorem keepsOff_table (aligned : PageAligned report page) {days : Nat} (few : report.dayHeaders.length ≤ days) :
    (tableOperations locale report page days).Pairwise KeepsOff := by
  have wide := dayWidth_nonneg days
  have inRow {employment : ShiftPlanReportEmployment} {index : Nat} (listed : (employment, index) ∈ page.employments.zipIdx) :
      ∀ operation ∈ rowOperations locale (dayWidth days) employment index, InRow (dayWidth days) days (index + 1) operation :=
    row_inRow ((aligned.cells employment (List.fst_mem_of_mem_zipIdx listed)).trans_le few) index
  apply List.pairwise_append.mpr
  refine ⟨days_keepOff wide inSlot_header fun header _ dayIndex => keepsOff_header header dayIndex, ?_, ?_⟩
  · apply List.pairwise_flatMap.mpr
    constructor
    · intro item member
      exact keepsOff_row wide (aligned.statused item.1 (List.fst_mem_of_mem_zipIdx member)) item.2
    · apply (zipIdx_ascending page.employments).imp_of_mem
      intro first second left right before text inside drawn within
      exact (inRow left text inside).keepsOff (inRow right drawn within) (by omega)
  · intro text header drawn row
    obtain ⟨item, listed, within⟩ := List.mem_flatMap.mp row
    exact (days_inRow few inSlot_header text header).keepsOff (inRow listed drawn within) (by omega)

theorem heading_inRow {right : Int} {days : Nat} {operation : Operation} (heading : operation ∈ headingOperations locale right)
    (written : IsWritten operation) : InRow (dayWidth days) days 0 operation := by
  rcases inSlot_heading right operation heading written with inside | inside
  · exact ⟨_, .label 0, rfl, inside⟩
  · exact ⟨_, .summary 0, rfl, inside⟩

theorem InRow.below {width : Int} {days row : Nat} {operation : Operation} (inside : InRow width days row operation) :
    tableTop ≤ operation.box.top := by
  obtain ⟨slot, -, -, inside⟩ := inside
  have top := inside.within.top
  simp only [Slot.box, tableTop_eq, rowHeight_eq] at top
  rw [tableTop_eq]
  omega

theorem InRow.above {width : Int} {days row : Nat} {operation : Operation} (inside : InRow width days row operation)
    (bound : row ≤ employmentsPerPage) : operation.box.bottom ≤ tableTop + 6 * rowHeight := by
  obtain ⟨slot, -, rfl, inside⟩ := inside
  have bottom := inside.within.bottom
  have five : employmentsPerPage = 5 := rfl
  simp only [Slot.box, tableTop_eq, rowHeight_eq] at bottom ⊢
  omega

theorem grid_below (days : Nat) : ∀ operation ∈ gridOperations days, tableTop ≤ operation.box.top := by
  intro operation member
  rcases List.mem_append.mp member with horizontal | vertical
  · obtain ⟨index, -, rfl⟩ := List.mem_map.mp horizontal
    rw [box_shape]
    simp only [tableTop_eq, rowHeight_eq]
    omega
  · obtain ⟨x, -, rfl⟩ := List.mem_map.mp vertical
    exact le_refl _

theorem grid_shape (days : Nat) : ∀ operation ∈ gridOperations days, ¬ IsWritten operation := by
  intro operation member
  rcases List.mem_append.mp member with line | line
  all_goals
    obtain ⟨_, -, rfl⟩ := List.mem_map.mp line
    exact id

theorem pageOperations_eq (locale : PrintLocale) (report : ShiftPlanReport) (page : ShiftPlanReportPage) :
    pageOperations locale report page =
      titleOperations locale report page (tableRight (max 1 report.dayHeaders.length)) ++
        (headingOperations locale (tableRight (max 1 report.dayHeaders.length)) ++
          (tableOperations locale report page (max 1 report.dayHeaders.length) ++
            (gridOperations (max 1 report.dayHeaders.length) ++
              footerOperations locale (tableRight (max 1 report.dayHeaders.length))))) := by
  simp only [pageOperations, tableOperations, List.append_assoc]

/-- Nothing that is drawn on a page meets the box of a text that was drawn before. -/
theorem keepsOff_page (aligned : PageAligned report page) : (pageOperations locale report page).Pairwise KeepsOff := by
  rw [pageOperations_eq]
  generalize counted : max 1 report.dayHeaders.length = days
  have few : report.dayHeaders.length ≤ days := by omega
  have wide := dayWidth_nonneg days
  have table := @table_inRow locale _ _ aligned _ few
  have late {text drawn : Operation} (first : text.box.bottom < tableTop) (second : tableTop ≤ drawn.box.top) : KeepsOff text drawn :=
    fun _ _ => .inr (.inr (.inl (first.trans_le second)))
  have early {row : Nat} {text drawn : Operation} (inside : InRow (dayWidth days) days row text) (bound : row ≤ employmentsPerPage)
      (member : drawn ∈ footerOperations locale (tableRight days)) : KeepsOff text drawn :=
    fun _ _ => .inr (.inr (.inl ((inside.above bound).trans_lt (footer_below _ drawn member))))
  refine List.pairwise_append.mpr ⟨keepsOff_title report page _, List.pairwise_append.mpr ⟨keepsOff_heading _,
    List.pairwise_append.mpr ⟨keepsOff_table aligned few, List.pairwise_append.mpr ⟨?_, keepsOff_footer _, ?_⟩, ?_⟩, ?_⟩, ?_⟩
  · exact List.pairwise_of_forall_mem_list fun text line _ _ written => absurd written (grid_shape days text line)
  · exact fun text line _ _ written => absurd written (grid_shape days text line)
  · intro text inside drawn member
    obtain ⟨row, bound, held⟩ := table text inside
    rcases List.mem_append.mp member with line | footer
    · exact grid_keepsOff wide held line
    · exact early held bound footer
  · intro text heading drawn member written
    have held := @heading_inRow locale _ days _ heading written
    rcases List.mem_append.mp member with inside | member
    · rcases List.mem_append.mp inside with header | row
      · obtain ⟨item, -, within⟩ := List.mem_flatMap.mp header
        exact heading_keepsOff_days wide heading (inSlot_header _ _ drawn within) written
      · obtain ⟨item, listed, within⟩ := List.mem_flatMap.mp row
        have cells := aligned.cells item.1 (List.fst_mem_of_mem_zipIdx listed)
        exact held.keepsOff (row_inRow (cells.trans_le few) item.2 drawn within) (by omega) written
    · rcases List.mem_append.mp member with line | footer
      · exact grid_keepsOff wide held line written
      · exact early held (Nat.zero_le _) footer written
  · intro text title drawn member
    apply late (title_above report page _ text title)
    rcases List.mem_append.mp member with heading | member
    · simp only [headingOperations, List.mem_cons, List.not_mem_nil, or_false] at heading
      rcases heading with rfl | rfl | rfl <;> simp only [Operation.box] <;> omega
    · rcases List.mem_append.mp member with inside | member
      · obtain ⟨row, -, held⟩ := table drawn inside
        exact held.below
      · rcases List.mem_append.mp member with line | footer
        · exact grid_below days drawn line
        · have above := footer_below _ drawn footer
          rw [rowHeight_eq] at above
          omega

def pageBox : Box Int := ⟨0, 0, pageWidth, pageHeight⟩

theorem InRow.onPage {days row : Nat} (some : 0 < days) {operation : Operation} (inside : InRow (dayWidth days) days row operation)
    (bound : row ≤ employmentsPerPage) : operation.box.Within pageBox := by
  have below := inside.below
  have above := inside.above bound
  obtain ⟨slot, table, -, inside⟩ := inside
  have wide := dayWidth_nonneg days
  have narrow := dayWidth_mul_le days some
  have columns : 0 ≤ slot.left ∧ slot.right ≤ 2267 := by
    cases table with
    | label row => simp only [labelColumn, pageMarginX_eq, summaryX_eq]; omega
    | summary row => simp only [summaryColumn, summaryX_eq, daysX_eq]; omega
    | @day row dayIndex inside =>
      have start : 0 ≤ (dayIndex : Int) * dayWidth days := Int.mul_nonneg (by omega) wide
      have finish : ((dayIndex : Int) + 1) * dayWidth days ≤ days * dayWidth days := Int.mul_le_mul_of_nonneg_right (by omega) wide
      rw [Int.mul_comm days] at finish
      simp only [dayColumn, daysX_eq]
      omega
  have left := inside.within.left
  have right := inside.within.right
  simp only [Slot.box, tableTop_eq, rowHeight_eq] at *
  constructor
  · exact columns.1.trans left
  · exact le_trans (by decide) below
  · exact (right.trans columns.2).trans (by decide)
  · exact above.trans (by decide)

theorem onPage_page (aligned : PageAligned report page) :
    ∀ operation ∈ pageOperations locale report page, IsWritten operation → operation.box.Within pageBox := by
  intro operation member written
  rw [pageOperations_eq] at member
  generalize counted : max 1 report.dayHeaders.length = days at member
  have few : report.dayHeaders.length ≤ days := by omega
  have some : 0 < days := by omega
  have right : 610 ≤ tableRight days ∧ tableRight days ≤ 2267 := by
    have start : 0 ≤ dayWidth days * (days : Int) := Int.mul_nonneg (dayWidth_nonneg days) (by omega)
    have narrow := dayWidth_mul_le days some
    simp only [tableRight, pageMarginX_eq, labelColumnWidth, summaryColumnWidth]
    omega
  rcases List.mem_append.mp member with title | member
  · simp only [titleOperations, List.mem_cons, List.not_mem_nil, or_false] at title
    rcases title with rfl | rfl | rfl
    · exact written.elim
    all_goals
      constructor <;>
        simp only [Operation.box, pageBox, pageMarginX, pageMarginY, tableTop_eq, pageWidth, pageHeight] <;> omega
  · rcases List.mem_append.mp member with heading | member
    · exact (heading_inRow heading written).onPage some (Nat.zero_le _)
    · rcases List.mem_append.mp member with inside | member
      · obtain ⟨row, bound, held⟩ := table_inRow aligned few operation inside
        exact held.onPage some bound
      · rcases List.mem_append.mp member with line | footer
        · exact absurd written (grid_shape days operation line)
        · simp only [footerOperations, List.mem_cons, List.not_mem_nil, or_false] at footer
          rcases footer with rfl | rfl | rfl
          · exact written.elim
          all_goals
            constructor <;>
              simp only [Operation.box, pageBox, pageMarginX, pageWidth, pageHeight, legendHeight, footerHeight] <;> omega

end Pages

section Images

variable {φ : Type} (face : Face φ)

/-- What comes of an operation: of a text that is not empty, the whole of it. -/
def Shows : Operation → Option (Drawing φ) → Prop
  | .shape _, drawing => drawing = none
  | .text _ content _, none => content = ""
  | .text box content size, some drawing => content ≠ "" ∧ Printed face box content size drawing

/-- A page on which every text can be read. -/
structure Legible (operations : List Operation) (image : List (Option (Drawing φ))) : Prop where
  shown : List.Forall₂ (Shows face) operations image
  uncovered : (operations.zip image).Pairwise fun first second =>
    ∀ drawing ∈ first.2, IsDrawn second.1 → (drawing.ink face).Apart (second.1.box.map Int.cast)
  apart : image.Pairwise fun first second => ∀ drawing ∈ first, ∀ other ∈ second, (drawing.ink face).Apart (other.ink face)
  onPage : ∀ drawing, some drawing ∈ image → (drawing.ink face).Within (pageBox.map Int.cast)

variable {face}

theorem Shows.of_draw {operation : Operation} {drawing : Option (Drawing φ)} (drawn : operation.draw face = .ok drawing) :
    Shows face operation drawing := by
  cases operation with
  | shape box =>
    cases drawn
    rfl
  | text box content size =>
    simp only [Operation.draw] at drawn
    cases drawing with
    | none => exact drawTextBox_eq_none face drawn
    | some drawing => exact drawTextBox_eq_some face drawn

theorem Shows.written {operation : Operation} {drawing : Drawing φ} (shows : Shows face operation (some drawing)) :
    IsWritten operation ∧ (drawing.ink face).Within (operation.box.map Int.cast) := by
  cases operation with
  | shape box => cases shows
  | text box content size => exact ⟨shows.1, shows.2.inside⟩

/-- Texts that are drawn in their boxes, which keep off each other, can be read. -/
theorem legible_of_keepsOff {operations : List Operation} {image : List (Option (Drawing φ))}
    (shown : List.Forall₂ (Shows face) operations image) (keepsOff : operations.Pairwise KeepsOff)
    (onPage : ∀ operation ∈ operations, IsWritten operation → operation.box.Within pageBox) : Legible face operations image := by
  have rises : StrictMono (Int.cast : Int → ℚ) := fun _ _ less => Int.cast_lt.mpr less
  induction shown with
  | nil => exact ⟨.nil, .nil, .nil, nofun⟩
  | @cons operation drawing operations image shows rest ih =>
    obtain ⟨off, keepsOff⟩ := List.pairwise_cons.mp keepsOff
    obtain ⟨first, onPage⟩ := List.forall_mem_cons.mp onPage
    obtain ⟨shown, uncovered, apart, inside⟩ := ih keepsOff onPage
    have kept (ink : Drawing φ) (drawn : drawing = some ink) (later : Operation) (member : later ∈ operations)
        (covers : IsDrawn later) : (ink.ink face).Apart (later.box.map Int.cast) := by
      subst drawn
      obtain ⟨written, within⟩ := shows.written
      exact (((off later member written covers).map rises).symm.within within).symm
    refine ⟨.cons shows shown, List.pairwise_cons.mpr ⟨?_, uncovered⟩, List.pairwise_cons.mpr ⟨?_, apart⟩, ?_⟩
    · intro pair member ink drawn covers
      exact kept ink drawn pair.1 (List.of_mem_zip member).1 covers
    · intro other member ink drawn ink' drawn'
      subst drawn'
      obtain ⟨later, listed, shows'⟩ := exists_of_forall₂ rest member
      obtain ⟨written, within⟩ := shows'.written
      exact (kept ink drawn later listed written.isDrawn).within within
    · intro ink member
      rcases List.mem_cons.mp member with same | later
      · subst same
        obtain ⟨written, within⟩ := shows.written
        exact within.trans ((first written).map rises.monotone)
      · exact inside ink later

end Images

section Reports

variable {zone : Zone} {view : View} {year : Int} {month : Nat} {ids : List Int} {report : ShiftPlanReport}

theorem monthRow_statused (plans : List ShiftPlan) (start finish : Int) (employment : Employment) :
    ∀ cell ∈ (monthRow view plans start finish employment).cells, Statused cell := by
  intro cell member unlabelled
  obtain ⟨date, -, rfl⟩ := List.mem_map.mp member
  have idle : (daySummary view.db employment start finish false date).effectiveStatus = none := by
    simpa [reportCell] using unlabelled
  have metrics : (daySummary view.db employment start finish false date).statusMetrics = calculateDayStatusMetrics employment none :=
    congrArg (calculateDayStatusMetrics employment) idle
  simp [reportCell, metrics, calculateDayStatusMetrics, statusMetricPayload, keyedPayload, StatusKey.of]

/-- The pages of a report are as the renderer needs them. -/
theorem report_aligned (built : buildShiftPlanReport zone view year month ids = .ok report) :
    ∀ page ∈ report.pages, PageAligned report page := by
  obtain ⟨start, finish, range⟩ := range_of_built built
  obtain ⟨-, printable, rfl⟩ := (buildShiftPlanReport_eq_ok range).mp built
  intro page paged
  have source {row : ShiftPlanReportEmployment} (inside : row ∈ page.employments) : ∃ employment,
      monthRow view (monthPlans view.db (uniqueIds [] ids) start finish) start finish employment = row := by
    obtain ⟨employment, -, same⟩ := List.mem_map.mp (mem_reportPages paged inside)
    exact ⟨employment, same⟩
  constructor
  · exact (reportPages_filled _ page paged).2
  · intro row inside
    obtain ⟨employment, rfl⟩ := source inside
    simp [monthRow, monthHeaders]
  · intro row inside
    obtain ⟨employment, rfl⟩ := source inside
    exact monthRow_statused _ start finish employment

/-- There is a page for the first employment. -/
theorem report_paged (built : buildShiftPlanReport zone view year month ids = .ok report) : report.pages ≠ [] := by
  obtain ⟨start, finish, range⟩ := range_of_built built
  obtain ⟨id, rest, rfl⟩ := List.exists_cons_of_ne_nil ((buildShiftPlanReport_eq_ok range).mp built).1
  have listed := ((shape_of_built range built).listed id).mpr List.mem_cons_self
  intro empty
  simp [empty] at listed

end Reports

/-- Whether a text of a page is too long to be read in its box. -/
def OverCapacity {φ : Type} (face : Face φ) (operations : List Operation) : Prop :=
  ∃ box content size, .text box content size ∈ operations ∧ content ≠ "" ∧
    ∀ fontSize, 10 ≤ fontSize → fontSize ≤ size → ¬ Fits face box content fontSize

/-- What comes of printing a report: a legible page for each of its pages, or the error of a text
that is too long. -/
def PrintedReport {φ : Type} (face : Face φ) (locale : PrintLocale) (report : ShiftPlanReport) :
    Except String (List (List (Option (Drawing φ)))) → Prop
  | .ok images => List.Forall₂ (fun page image => Legible face (pageOperations locale report page) image) report.pages images
  | .error message => message = "print_capacity_exceeded" ∧
      ∃ page ∈ report.pages, OverCapacity face (pageOperations locale report page)

/-- A report is printed on legible pages, unless one of its texts is too long to be read in its box. -/
theorem pages_legible {φ : Type} (face : Face φ) (locale : PrintLocale) {zone : Zone} {view : View} {year : Int} {month : Nat}
    {ids : List Int} {report : ShiftPlanReport} (built : buildShiftPlanReport zone view year month ids = .ok report) :
    PrintedReport face locale report (renderShiftPlanReportPdf face report locale) := by
  have aligned := report_aligned built
  cases rendered : renderShiftPlanReportPdf face report locale with
  | ok images =>
    simp only [renderShiftPlanReportPdf, bind_eq_ok, pure_eq_ok] at rendered
    obtain ⟨drawn, pages, -, -, rfl⟩ := rendered
    have each := mapM_ok_forall₂ pages
    apply List.forall₂_iff_zip.mpr
    refine ⟨each.length_eq, ?_⟩
    intro page image zipped
    have operations := mapM_ok_forall₂ ((List.forall₂_iff_zip.mp each).2 zipped)
    have page_aligned := aligned page (List.of_mem_zip zipped).1
    exact legible_of_keepsOff (operations.imp fun _ _ drawn => Shows.of_draw drawn) (keepsOff_page page_aligned)
      (onPage_page page_aligned)
  | error message =>
    simp only [renderShiftPlanReportPdf, bind_eq_error] at rendered
    rcases rendered with failed | ⟨images, pages, failed⟩
    · obtain ⟨page, paged, failed⟩ := mapM_eq_error failed
      obtain ⟨operation, listed, failed⟩ := mapM_eq_error failed
      cases operation with
      | shape box => cases failed
      | text box content size =>
        obtain ⟨filled, raised, unreadable⟩ := drawTextBox_eq_error face failed
        exact ⟨raised, page, paged, box, content, size, listed, filled, unreadable⟩
    · have paged : images ≠ [] := by
        intro empty
        have length := (mapM_ok_forall₂ pages).length_eq
        rw [empty] at length
        exact report_paged built (List.length_eq_zero_iff.mp length)
      rcases failed with none | ⟨_, _, impossible⟩
      · exact absurd (raiseIf_eq_error.mp none).1 paged
      · cases impossible

/-- A font of narrow letters, each half as wide as it is high. -/
def monospace : Face Nat where
  loadFont size := size
  textlength size line := size * line.length / 2
  multilineTextbbox size text :=
    let lines := text.toList.splitOn '\n'
    ⟨0, 0, size * ((lines.map List.length).foldr max 0 : Nat) / 2, (size + 3) * lines.length⟩

theorem sample_pages_legible : ∃ report,
    buildShiftPlanReport (pragueSpring march2026 march2026_evening) plannedView 2026 8 [1] = .ok report ∧
    PrintedReport monospace .de report (renderShiftPlanReportPdf monospace report .de) := by
  have range : monthRange 2026 8 = some (739829, 739860) := by decide
  have printable : ∀ id ∈ [1], Printable plannedView 739829 739860 id := by
    intro id member
    obtain rfl : id = 1 := by simpa using member
    exact ⟨sampleEmployment, by decide, by decide⟩
  have built := (@buildShiftPlanReport_eq_ok plannedView 2026 8 739829 739860 [1] (pragueSpring march2026 march2026_evening) _ range).mpr
    ⟨by decide, printable, rfl⟩
  exact ⟨_, built, pages_legible monospace .de built⟩

end Dagmar.Payloads.Proofs
