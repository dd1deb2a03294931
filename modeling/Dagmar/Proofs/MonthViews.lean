import Dagmar.MonthOverviews
import Dagmar.Proofs.ExportedFacts
import Dagmar.Proofs.GroupViews
import Dagmar.Proofs.PlanUpserts

/-! What the lists of a month, the portal, the administration and the groups show of it agrees:
one sheet for each employment with an account, and one plan behind all three tables. -/

namespace Dagmar.Payloads.Proofs
open Library Library.Calendar Library.Outcome Integration Groups Dagmar.Proofs

section Overviews
variable {zone : Zone} {view : View} {year : Int} {month : Nat} {start finish : Int}

/-- What a list of sheets and a list of employments have in common. -/
def sheetFacts (sheet : AdminAttendanceSheetOut) : Int × Int × String × String × Int × Option Int × String :=
  (sheet.monthData.employmentId, sheet.userId, sheet.employmentTitle, sheet.employmentType, sheet.startDate, sheet.endDate,
    sheet.monthData.employmentLabel)

def employmentFacts (employment : AvailableEmploymentOut) : Int × Int × String × String × Int × Option Int × String :=
  (employment.id, employment.userId, employment.title, employment.employmentType, employment.startDate, employment.endDate,
    employment.label)

/-- The sheets of a month, and what each portal user is shown. -/
structure OverviewAgrees (zone : Zone) (view : View) (year : Int) (month : Nat) (sheets : List AdminAttendanceSheetOut) : Prop where
  once : (sheets.map fun sheet => sheet.monthData.employmentId).Nodup
  active : ∀ sheet ∈ sheets, sheet.isActiveInMonth = true
  shown : ∀ sheet ∈ sheets, ∀ instanceId,
    getMonthAttendance zone view ⟨sheet.userId, instanceId⟩ sheet.monthData.employmentId year month = .ok sheet.monthData
  complete : ∀ auth employmentId payload, getMonthAttendance zone view auth employmentId year month = .ok payload →
    ∃ sheet ∈ sheets, sheet.userId = auth.userId ∧ sheet.monthData = payload
  listed : ∀ auth : PortalUserAuth, (view.db.users.get auth.userId).any PortalUser.isActive = true → ∃ employments,
    getMonthEmployments zone view auth year month = .ok employments ∧
      (sheets.filter (·.userId = auth.userId)).map sheetFacts = employments.map employmentFacts

/-- A key that ends in the number tells employments apart. -/
theorem keys_nodup {κ : Type} {key : Employment → κ} (number : κ → Int) (numbered : number ∘ key = Employment.id)
    {p : Employment → Prop} [DecidablePred p] : ((view.db.employments.select p).map key).Nodup := by
  apply List.Nodup.of_map number
  rw [List.map_map, numbered]
  exact (List.Sublist.map _ List.filter_sublist).nodup view.db.employments.unique

/-- The head of a month payload. -/
theorem buildMonth_head {employment : Employment} {payload : AttendanceMonthOut}
    (built : buildMonth zone view employment year month = some payload) :
    payload.employmentId = employment.id ∧ payload.employmentLabel = employmentLabel view employment ∧
      payload.displayMetrics = displayMetricsForEmployment employment ∧
      payload.attendanceLocked = decide (isMonthLocked view.db .attendance employment.id (year, month)) ∧
      payload.shiftPlanLocked = decide (isMonthLocked view.db .shiftPlan employment.id (year, month)) := by
  simp only [buildMonth, Option.bind_eq_bind, Option.bind_eq_some_iff] at built
  obtain ⟨⟨start, finish⟩, -, summary, -, days, -, done⟩ := built
  cases done
  exact ⟨rfl, rfl, rfl, rfl, rfl⟩

theorem monthFields_ok (valid : 2000 ≤ year ∧ year ≤ 2100 ∧ 1 ≤ month ∧ month ≤ 12) : monthFields year month = .ok () :=
  if_neg (by omega)

theorem getMonthAttendance_iff (valid : 2000 ≤ year ∧ year ≤ 2100 ∧ 1 ≤ month ∧ month ≤ 12)
    (range : monthRange year month = some (start, finish)) {auth : PortalUserAuth} {employmentId : Int}
    {payload : AttendanceMonthOut} :
    getMonthAttendance zone view auth employmentId year month = .ok payload ↔ 1 ≤ employmentId ∧
      ∃ employment ∈ view.db.employments, employment.id = employmentId ∧ employment.userId = auth.userId ∧
        userIsActive view.db employment ∧ employmentOverlapsMonth employment start finish ∧
        buildMonth zone view employment year month = some payload := by
  simp only [getMonthAttendance, bind_eq_ok, raiseIf_eq_ok, require_eq_ok, portalEmployment_eq_ok, range, Option.some.injEq,
    not_not]
  constructor
  · intro shown
    obtain ⟨-, bounds, employment, ⟨found, own, active⟩, _, rfl, -, overlaps, built⟩ := shown
    obtain ⟨stored, same⟩ := Table.get_eq_some_iff.mp found
    rw [← own] at active
    exact ⟨by omega, employment, stored, same, own, active, overlaps, built⟩
  · intro shown
    obtain ⟨positive, employment, stored, same, own, active, overlaps, built⟩ := shown
    rw [userIsActive, own] at active
    exact ⟨(), by omega, employment, ⟨Table.get_eq_some_iff.mpr ⟨stored, same⟩, own, active⟩, _, rfl, (), overlaps, built⟩

/-- The employments with a sheet, in the order of the sheets. -/
def sheetEmployments (view : View) (start finish : Int) : List Employment :=
  (loadMonthEmployments view start finish).filter fun employment => userIsActive view.db employment

theorem mem_sheetEmployments {employment : Employment} : employment ∈ sheetEmployments view start finish ↔
    employment ∈ view.db.employments ∧ employmentOverlapsMonth employment start finish ∧ userIsActive view.db employment := by
  rw [sheetEmployments, List.mem_filter, loadMonthEmployments, ordered, List.mem_insertionSort, Table.mem_select,
    decide_eq_true_eq, and_assoc]

def sheetOf (view : View) (start finish : Int) (payload : AttendanceMonthOut) (employment : Employment) :
    AdminAttendanceSheetOut where
  monthData := payload
  userId := employment.userId
  userName := view.columns.userName employment.userId
  employmentTitle := view.columns.title employment.id
  employmentType := typeValue employment.employmentType
  startDate := employment.startDate
  endDate := employment.endDate
  isActiveInMonth := employmentOverlapsMonth employment start finish

theorem adminSheet_eq {employment : Employment} {payload : AttendanceMonthOut}
    (built : buildMonth zone view employment year month = some payload) :
    adminAttendanceSheetOut zone view year month start finish employment =
      .ok (if userIsActive view.db employment then some (sheetOf view start finish payload employment) else none) := by
  by_cases active : userIsActive view.db employment
  · obtain ⟨user, found, open_⟩ := (Option.any_eq_true _ _).mp active
    have same : user.id = employment.userId := (Table.get_eq_some_iff.mp found).2
    rw [if_pos active, adminAttendanceSheetOut, found]
    simp only [open_, not_true_eq_false, if_false, built, same]
    rfl
  · rw [if_neg active, adminAttendanceSheetOut]
    cases found : view.db.users.get employment.userId with
    | none => rfl
    | some user =>
      rw [userIsActive, found] at active
      exact if_pos active

/-- The sheets are those of the employments that are active in the month. -/
theorem listMonthSheets_eq (valid : 2000 ≤ year ∧ year ≤ 2100 ∧ 1 ≤ month ∧ month ≤ 12)
    (range : monthRange year month = some (start, finish)) {payloadOf : Employment → AttendanceMonthOut}
    (built : ∀ employment, buildMonth zone view employment year month = some (payloadOf employment)) :
    listMonthSheets zone view year month = .ok ((sheetEmployments view start finish).map fun employment =>
      sheetOf view start finish (payloadOf employment) employment) := by
  have sheets : (loadMonthEmployments view start finish).mapM (adminAttendanceSheetOut zone view year month start finish) =
      .ok ((loadMonthEmployments view start finish).map fun employment =>
        if userIsActive view.db employment then some (sheetOf view start finish (payloadOf employment) employment) else none) := by
    apply mapM_ok
    intro employment _
    exact adminSheet_eq (built employment)
  rw [listMonthSheets, monthFields_ok valid, ok_bind, range]
  change ((loadMonthEmployments view start finish).mapM (adminAttendanceSheetOut zone view year month start finish) >>= _) = _
  rw [sheets, ok_bind, List.filterMap_map, sheetEmployments, ← List.filterMap_eq_map, List.filterMap_filter]
  congr
  funext employment
  by_cases active : userIsActive view.db employment <;> simp [active]

theorem sheetEmployments_strict :
    (sheetEmployments view start finish).Pairwise fun first second => userStartKey first < userStartKey second :=
  (ordered_strict (keys_nodup (fun key => (ofLex (ofLex key).2).2) rfl)).filter _

/-- The sheets of one user come in the order of the user's own list. -/
theorem sheetEmployments_own {userId : Int} (active : (view.db.users.get userId).any PortalUser.isActive = true) :
    (sheetEmployments view start finish).filter (·.userId = userId) =
      ordered startKey (view.db.employments.select fun employment =>
        employment.userId = userId ∧ employmentOverlapsMonth employment start finish) := by
  have listed (employment : Employment) : employment ∈ ordered startKey (view.db.employments.select fun employment =>
      employment.userId = userId ∧ employmentOverlapsMonth employment start finish) ↔
      employment ∈ view.db.employments ∧ employment.userId = userId ∧ employmentOverlapsMonth employment start finish := by
    rw [ordered, List.mem_insertionSort, Table.mem_select]
  apply eq_of_strict (sheetEmployments_strict.filter _)
  · have strict := @ordered_strict _ _ _ startKey _ (@keys_nodup view _ startKey (fun key => (ofLex key).2) rfl
      (fun employment => employment.userId = userId ∧ employmentOverlapsMonth employment start finish) _)
    apply strict.imp_of_mem
    intro first second inFirst inSecond before
    exact Prod.Lex.toLex_lt_toLex.mpr (.inr ⟨((listed first).mp inFirst).2.1.trans ((listed second).mp inSecond).2.1.symm, before⟩)
  · intro employment
    rw [listed, List.mem_filter, mem_sheetEmployments, decide_eq_true_eq]
    constructor
    · intro found
      obtain ⟨⟨stored, overlaps, -⟩, own⟩ := found
      exact ⟨stored, own, overlaps⟩
    · intro found
      obtain ⟨stored, own, overlaps⟩ := found
      exact ⟨⟨stored, overlaps, by rw [userIsActive, own]; exact active⟩, own⟩

end Overviews

/-- Each employment of an active account in a month has one sheet, which is what its user is shown, and the sheets of a
user are the user's own list. -/
theorem overview_agrees {zone : Zone} {view : View} {year : Int} {month : Nat}
    (numbered : ∀ employment ∈ view.db.employments, 1 ≤ employment.id)
    (valid : 2000 ≤ year ∧ year ≤ 2100 ∧ 1 ≤ month ∧ month ≤ 12) :
    ∃ sheets, listMonthSheets zone view year month = .ok sheets ∧ OverviewAgrees zone view year month sheets := by
  obtain ⟨⟨start, finish⟩, range⟩ : ∃ range, monthRange year month = some range :=
    ⟨_, monthRange_eq_some.mpr ⟨⟨by omega, by omega, valid.2.2.1, valid.2.2.2, by omega⟩, rfl, rfl⟩⟩
  have built (employment : Employment) : ∃ payload, buildMonth zone view employment year month = some payload := by
    obtain ⟨payload, built, -⟩ := buildMonth_some range
    exact ⟨payload, built⟩
  choose payloadOf built using built
  have shown {employment : Employment} (member : employment ∈ sheetEmployments view start finish) (instanceId : String) :
      getMonthAttendance zone view ⟨employment.userId, instanceId⟩ employment.id year month = .ok (payloadOf employment) := by
    obtain ⟨stored, overlaps, active⟩ := mem_sheetEmployments.mp member
    exact (getMonthAttendance_iff valid range).mpr
      ⟨numbered employment stored, employment, stored, rfl, rfl, active, overlaps, built employment⟩
  have head (employment : Employment) := buildMonth_head (built employment)
  refine ⟨_, listMonthSheets_eq valid range built, ?_, ?_, ?_, ?_, ?_⟩
  · rw [List.map_map]
    have ids : (sheetEmployments view start finish).map Employment.id = (sheetEmployments view start finish).map
        ((fun sheet => sheet.monthData.employmentId) ∘ fun employment => sheetOf view start finish (payloadOf employment) employment) :=
      List.map_congr_left fun employment _ => (head employment).1.symm
    rw [← ids]
    apply (List.filter_sublist.map _).nodup
    exact (((List.perm_insertionSort _ _).map Employment.id).nodup_iff).mpr (keys_nodup id rfl)
  · intro sheet member
    obtain ⟨employment, listed, rfl⟩ := List.mem_map.mp member
    exact decide_eq_true (mem_sheetEmployments.mp listed).2.1
  · intro sheet member instanceId
    obtain ⟨employment, listed, rfl⟩ := List.mem_map.mp member
    change getMonthAttendance zone view ⟨employment.userId, instanceId⟩ (payloadOf employment).employmentId year month = _
    rw [(head employment).1]
    exact shown listed instanceId
  · intro auth employmentId payload answered
    obtain ⟨-, employment, stored, -, own, active, overlaps, payload_⟩ := (getMonthAttendance_iff valid range).mp answered
    refine ⟨_, List.mem_map_of_mem (mem_sheetEmployments.mpr ⟨stored, overlaps, active⟩), own, ?_⟩
    exact Option.some.inj ((built employment).symm.trans payload_)
  · intro auth active
    refine ⟨(ordered startKey (view.db.employments.select fun employment =>
      employment.userId = auth.userId ∧ employmentOverlapsMonth employment start finish)).map (availableEmploymentOut zone view),
      ?_, ?_⟩
    · rw [getMonthEmployments, monthFields_ok valid, ok_bind, range]
      rfl
    · rw [List.filter_map, List.map_map, List.map_map, ← sheetEmployments_own active]
      apply List.map_congr_left
      intro employment _
      exact congrArg₂ (fun id label => (id, employment.userId, view.columns.title employment.id,
        typeValue employment.employmentType, employment.startDate, employment.endDate, label)) (head employment).1 (head employment).2.1

/-- Two accounts with three employments, in August 2026. -/
theorem sample_overview_agrees : ∃ sheets,
    listMonthSheets (pragueSpring march2026 march2026_evening) ⟨plannedView.clock, sharedStore.db, plannedView.columns⟩ 2026 8 =
        .ok sheets ∧
      OverviewAgrees (pragueSpring march2026 march2026_evening) ⟨plannedView.clock, sharedStore.db, plannedView.columns⟩ 2026 8 sheets :=
  overview_agrees (by decide) (by decide)

section Plans
variable {zone : Zone} {view : View} {employment : Employment} {year : Int} {month : Nat} {start finish : Int}

/-- What the tables of plans show of a day. -/
structure PlanFacts where
  date : Int
  arrivalTime : Option ClockTime
  departureTime : Option ClockTime
  status : Option DayStatus
  effectiveStatus : Option DayStatus
  isWithinEmploymentPeriod : Bool
  plannedState : PlannedState
  planned : Option MetricsOut
  statusMetrics : StatusMetricsOut

def tableFacts (day : ShiftPlanDayOut) : PlanFacts :=
  ⟨day.date, day.arrivalTime, day.departureTime, day.status, day.effectiveStatus, day.isWithinEmploymentPeriod, day.plannedState,
    day.planned, day.statusMetrics⟩

def monthFacts (day : AttendanceDayOut) : PlanFacts :=
  ⟨day.date, day.plannedArrivalTime, day.plannedDepartureTime, day.plannedStatus, day.effectiveStatus,
    day.isWithinEmploymentPeriod, day.plannedState, day.planned, day.statusMetrics⟩

/-- The days of a table of plans, each with its own plan. -/
def tableDays (db : Db) (employment : Employment) (start finish : Int) : List ShiftPlanDayOut :=
  (monthDays start finish).map fun date =>
    shiftPlanDayOut employment (db.shiftPlans.get (employment.id, date)) (daySummary db employment start finish false date) date

/-- A month of the portal and a table of plans show the same days. -/
theorem buildMonth_facts {payload : AttendanceMonthOut} (built : buildMonth zone view employment year month = some payload)
    (range : monthRange year month = some (start, finish)) :
    payload.days.map monthFacts = (tableDays view.db employment start finish).map tableFacts := by
  obtain ⟨first, last, range', days, -⟩ := buildMonth_ok built
  obtain ⟨rfl, rfl⟩ := Prod.mk.inj (Option.some.inj (range'.symm.trans range))
  rw [days, tableDays, List.map_map, List.map_map]
  apply List.map_congr_left
  intro date inside
  rw [Function.comp_apply, Function.comp_apply, plansBetween_find (mem_monthDays.mp inside)]
  have status : ((view.db.attendance.get (employment.id, date)).bind Attendance.status).or
      ((view.db.shiftPlans.get (employment.id, date)).bind ShiftPlan.status) =
      effectiveStatus (view.db.attendance.get (employment.id, date)) (view.db.shiftPlans.get (employment.id, date)) := by
    rw [effectiveStatus]
    cases (view.db.attendance.get (employment.id, date)).bind Attendance.status <;> rfl
  exact congrArg (fun status => (⟨date, _, _, _, status, _, _, _, _⟩ : PlanFacts)) status

theorem mem_loadLockedEmploymentIds {db : Db} {lockType : LockType} {ids : List Int} {id : Int} (listed : id ∈ ids) :
    id ∈ loadLockedEmploymentIds db lockType ids year month ↔ isMonthLocked db lockType id (year, month) := by
  rw [loadLockedEmploymentIds, isMonthLocked, Ne, Table.get_eq_none_iff, List.mem_map]
  push Not
  constructor
  · intro found
    obtain ⟨lock, member, rfl⟩ := found
    obtain ⟨stored, -, rfl, rfl⟩ := Table.mem_select.mp member
    exact ⟨lock, stored, rfl⟩
  · intro found
    obtain ⟨lock, stored, same⟩ := found
    cases same
    exact ⟨lock, Table.mem_select.mpr ⟨stored, listed, rfl, rfl⟩, rfl⟩

/-- A row of the administration. -/
theorem adminRow_facts {shiftPlanLocked attendanceLocked ids : List Int}
    {summaries : List (Int × MonthSummary)} {row : ShiftPlanRowOut} (listed : employment.id ∈ ids)
    (summed : summaries.lookup employment.id = some (computedMonth view.db start finish employment))
    (built : adminRow view (monthPlans view.db ids start finish) shiftPlanLocked attendanceLocked start finish summaries employment =
      some row) :
    row.days = tableDays view.db employment start finish ∧ row.displayLabel = employmentLabel view employment ∧
      row.displayMetrics = displayMetricsForEmployment employment ∧
      row.shiftPlanLocked = decide (employment.id ∈ shiftPlanLocked) ∧
      row.attendanceLocked = decide (employment.id ∈ attendanceLocked) := by
  simp only [adminRow, summed, Option.bind_eq_bind, Option.bind_some, days_computed] at built
  cases built
  refine ⟨?_, rfl, rfl, rfl, rfl⟩
  apply List.map_congr_left
  intro date inside
  rw [planOn_stored listed inside]

end Plans

/-- What the portal shows of the plan of a month is what the administration and every group are shown of it, day by day. -/
theorem plan_views_agree {zone : Zone} {view : View} {auth : PortalUserAuth} {employmentId year : Int} {month : Nat}
    {payload : AttendanceMonthOut} (shown : getMonthAttendance zone view auth employmentId year month = .ok payload) :
    (∀ table, adminGetShiftPlanMonth view year month = some table → ∀ row ∈ table.rows, row.employmentId = employmentId →
      row.days.map tableFacts = payload.days.map monthFacts ∧ row.displayLabel = payload.employmentLabel ∧
        row.displayMetrics = payload.displayMetrics ∧ row.shiftPlanLocked = payload.shiftPlanLocked ∧
        row.attendanceLocked = payload.attendanceLocked) ∧
    ∀ casing (store : GroupStore) reader groupId group, store.db = view.db →
      getGroupShiftPlanMonth casing view.clock view.columns store reader groupId year month = .ok group →
      ∀ row ∈ group.rows, row.employmentId = employmentId →
        row.days.map tableFacts = payload.days.map monthFacts ∧ row.displayLabel = payload.employmentLabel ∧
          row.displayMetrics = payload.displayMetrics ∧ row.shiftPlanLocked = payload.shiftPlanLocked := by
  obtain ⟨valid, range⟩ : (2000 ≤ year ∧ year ≤ 2100 ∧ 1 ≤ month ∧ month ≤ 12) ∧
      ∃ range, monthRange year month = some range := by
    simp only [getMonthAttendance, bind_eq_ok, raiseIf_eq_ok, require_eq_ok] at shown
    obtain ⟨-, bounds, -, -, range, found, -⟩ := shown
    exact ⟨by omega, range, found⟩
  obtain ⟨⟨start, finish⟩, range⟩ := range
  obtain ⟨-, employment, known, rfl, -, -, -, built⟩ := (getMonthAttendance_iff valid range).mp shown
  obtain ⟨-, label, metrics, attendance, plan⟩ := buildMonth_head built
  have days := buildMonth_facts built range
  constructor
  · intro table done row listed mine
    simp only [adminGetShiftPlanMonth, range, Option.bind_eq_bind, Option.bind_some] at done
    split at done
    · cases done
      cases listed
    · simp only [Option.bind_eq_some_iff] at done
      obtain ⟨summaries, summed, rows, filled, done⟩ := done
      cases done
      obtain ⟨source, looked⟩ := row_source (fun member inside => available_stored view.db _ _ member (List.mem_of_mem_filter inside))
        known range summed (fun _ inside => inside) filled adminRow_number listed mine
      obtain ⟨member, chosen, from_⟩ := mem_of_mapM filled listed
      have asked := of_decide_eq_true (List.mem_filter.mp chosen).2
      rw [← adminRow_number member row from_, mine] at asked
      obtain ⟨days', label', metrics', plan', attendance'⟩ := adminRow_facts asked looked source
      refine ⟨by rw [days, days'], by rw [label, label'], by rw [metrics, metrics'], ?_, ?_⟩
      · rw [plan, plan', decide_eq_decide, mem_loadLockedEmploymentIds asked]
      · rw [attendance, attendance', decide_eq_decide, mem_loadLockedEmploymentIds asked]
  · intro casing store reader groupId group same done row listed mine
    have view_ : (⟨view.clock, store.db, view.columns⟩ : View) = view := by rw [same]
    rw [getGroupShiftPlanMonth_eq casing view.clock view.columns reader groupId range valid, view_] at done
    cases accessible : accessibleGroup store reader groupId start finish with
    | error refused =>
      rw [accessible] at done
      cases done
    | ok option =>
      rw [accessible] at done
      cases done
      obtain ⟨member, inside, rfl⟩ := List.mem_map.mp listed
      have stored := activeMembers_stored store _ _ _ member (mem_sharedMembers.mp inside)
      rw [same] at stored
      obtain rfl := view.db.employments.key_inj stored known mine
      exact ⟨days.symm, label.symm, metrics.symm, plan.symm⟩

theorem sample_plan_views_agree : ∃ payload table,
    getMonthAttendance (pragueSpring march2026 march2026_evening) plannedView ⟨1, "instance"⟩ 1 2026 8 = .ok payload ∧
      adminGetShiftPlanMonth plannedView 2026 8 = some table ∧ table.rows.map ShiftPlanRowOut.employmentId = [1] ∧
      ∀ row ∈ table.rows, row.employmentId = 1 → row.days.map tableFacts = payload.days.map monthFacts := by
  have answered : (getMonthAttendance (pragueSpring march2026 march2026_evening) plannedView ⟨1, "instance"⟩ 1 2026 8).toOption.isSome := by
    decide +kernel
  have filled : (adminGetShiftPlanMonth plannedView 2026 8).map (fun table => table.rows.map ShiftPlanRowOut.employmentId) = some [1] := by
    decide +kernel
  obtain ⟨payload, shown⟩ := Option.isSome_iff_exists.mp answered
  rw [toOption_eq_some] at shown
  obtain ⟨table, done, rows⟩ := Option.map_eq_some_iff.mp filled
  exact ⟨payload, table, shown, done, rows, fun row listed mine => ((plan_views_agree shown).1 table done row listed mine).1⟩

end Dagmar.Payloads.Proofs
