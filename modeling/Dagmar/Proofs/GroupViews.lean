import Mathlib.Data.String.Basic
import Dagmar.Proofs.ReportPages

/-! The two views of the groups of an account: the list of its groups in a month, and
the shift plans of one of them. They agree, and they show nothing that is not shared. -/

namespace Dagmar.Payloads.Proofs
open Library Library.Calendar Library.Outcome Integration Groups Dagmar.Proofs

/-- The only answer about a group that the account does not share, and about one that does not exist. -/
def groupNotFound : ApiError := .api 404 "group_not_found" "Skupina nebyla nalezena." []

/-- An account shares a group in a month through an active employment of its own. -/
def Shares (store : GroupStore) (userId groupId start finish : Int) : Prop :=
  ∃ employment ∈ activeMembers store groupId start finish, employment.userId = userId

/-- The row of a member, whose summary is that of the month. -/
def sharedRow (view : View) (auth : PortalUserAuth) (year : Int) (month : Nat) (start finish : Int) (employment : Employment) :
    GroupShiftPlanRowOut where
  employmentId := employment.id
  displayLabel := employmentLabel view employment
  isOwnEmployment := employment.userId = auth.userId
  shiftPlanLocked := isMonthLocked view.db .shiftPlan employment.id (year, month)
  displayMetrics := displayMetricsForEmployment employment
  days := (monthDays start finish).map fun date =>
    shiftPlanDayOut employment (view.db.shiftPlans.get (employment.id, date))
      (daySummary view.db employment start finish false date) date
  plannedMinutes := monthPlannedMinutes (computedMonth view.db start finish employment)
  plannedHours := monthPlannedHours (computedMonth view.db start finish employment)
  planned := (computedMonth view.db start finish employment).planned.map monthMetricsOut
  statusMetrics := statusMetricsOut (computedMonth view.db start finish employment).statusMetrics

section Members

variable {store : GroupStore} {auth : PortalUserAuth} {groupId start finish : Int}

theorem mem_activeMembers {employment : Employment} :
    employment ∈ activeMembers store groupId start finish ↔
      employment ∈ store.db.employments ∧ (∃ member ∈ store.membersOf groupId, member.employmentId = employment.id) ∧
        userIsActive store.db employment ∧ employmentOverlapsMonth employment start finish := by
  simp only [activeMembers, List.mem_filter, List.mem_filterMap, decide_eq_true_eq, Table.get_eq_some_iff]
  constructor
  · rintro ⟨⟨member, listed, stored, same⟩, active, overlapping⟩
    exact ⟨stored, ⟨member, listed, same.symm⟩, active, overlapping⟩
  · rintro ⟨stored, ⟨member, listed, same⟩, active, overlapping⟩
    exact ⟨⟨member, listed, stored, same.symm⟩, active, overlapping⟩

/-- No employment is a member twice. -/
theorem activeMembers_ids : ((activeMembers store groupId start finish).map Employment.id).Nodup := by
  have members : ((store.membersOf groupId).map EmploymentGroupMember.employmentId).Nodup := by
    apply List.Nodup.map_on _ (Table.select_nodup _ _)
    intro first left second right same
    obtain ⟨left, one⟩ := Table.mem_select.mp left
    obtain ⟨right, other⟩ := Table.mem_select.mp right
    exact store.members.key_inj left right (Prod.ext (one.trans other.symm) same)
  have named : ((store.membersOf groupId).filterMap fun member => store.db.employments.get member.employmentId).map Employment.id =
      ((store.membersOf groupId).map EmploymentGroupMember.employmentId).filter fun id => (store.db.employments.get id).isSome := by
    rw [List.map_filterMap, List.filter_map, ← List.filterMap_eq_map, List.filterMap_filter]
    apply List.filterMap_congr
    intro member listed
    cases found : store.db.employments.get member.employmentId with
    | none => simp [found]
    | some employment => simp [found, (Table.get_eq_some_iff.mp found).2]
  apply List.Nodup.sublist (List.filter_sublist.map Employment.id)
  rw [named]
  exact members.filter _

/-- The overlap of a query is that of the program. -/
theorem overlaps_iff {employment : Employment} :
    (employment.startDate < finish ∧ (employment.endDate = none ∨ employment.endDate.any (start ≤ ·) = true)) ↔
      employmentOverlapsMonth employment start finish := by
  cases ended : employment.endDate <;> simp [employmentOverlapsMonth, ended]

theorem mem_joinedGroups {group : EmploymentGroup} :
    group ∈ joinedGroups store auth.userId start finish ↔
      group ∈ store.groups ∧ Shares store auth.userId group.id start finish := by
  simp only [joinedGroups, List.mem_flatMap, List.mem_map, Table.mem_select]
  constructor
  · rintro ⟨_, listed, member, joined, employment, ⟨stored, same, own, overlap⟩, user, ⟨account, key, active⟩, rfl⟩
    refine ⟨listed, employment, mem_activeMembers.mpr ⟨stored, ⟨member, joined, same.symm⟩, ?_, overlaps_iff.mp overlap⟩, own⟩
    rw [userIsActive, Table.get_eq_some_iff.mpr ⟨account, key⟩]
    exact active
  · rintro ⟨listed, employment, shared, own⟩
    obtain ⟨stored, ⟨member, joined, same⟩, active, overlap⟩ := mem_activeMembers.mp shared
    obtain ⟨user, found, active⟩ := (Option.any_eq_true _ _).mp active
    obtain ⟨account, key⟩ := Table.get_eq_some_iff.mp found
    exact ⟨group, listed, member, joined, employment, ⟨stored, same.symm, own, overlaps_iff.mpr overlap⟩, user,
      ⟨account, key, active⟩, rfl⟩

/-- The account of a shared group is active, as its employment there is. -/
theorem accessibleGroup_iff {group : EmploymentGroup} :
    accessibleGroup store auth groupId start finish = .ok group ↔
      store.groups.get groupId = some group ∧ Shares store auth.userId groupId start finish := by
  simp only [accessibleGroup, bind_eq_ok, require_eq_ok, raiseIf_eq_ok, pure_eq_ok]
  constructor
  · rintro ⟨_, found, -, accessible, rfl⟩
    push Not at accessible
    exact ⟨found, accessible.2⟩
  · rintro ⟨found, employment, shared, own⟩
    obtain ⟨-, -, active, -⟩ := mem_activeMembers.mp shared
    refine ⟨group, found, (), ?_, rfl⟩
    rw [userIsActive, own] at active
    push Not
    exact ⟨active, employment, shared, own⟩

/-- Nothing else is said of another group. -/
theorem accessibleGroup_missed (missed : ¬ (∃ group, store.groups.get groupId = some group) ∨
    ¬ Shares store auth.userId groupId start finish) :
    accessibleGroup store auth groupId start finish = .error groupNotFound := by
  cases found : store.groups.get groupId with
  | none =>
    rw [accessibleGroup, found]
    rfl
  | some group =>
    have unshared : ¬ Shares store auth.userId groupId start finish := missed.resolve_left (not_not_intro ⟨group, found⟩)
    rw [accessibleGroup, found]
    change (raiseIf _ _ >>= _) = _
    rw [raiseIf, if_pos (.inr unshared)]
    rfl

end Members

section Detail

variable {store : GroupStore} {year : Int} {month : Nat} {start finish : Int}

/-- The members in the order of the rows. -/
def sharedMembers (casing : Casing) (view : View) (store : GroupStore) (groupId start finish : Int) : List Employment :=
  (activeMembers store groupId start finish).insertionSort (memberLe casing view)

theorem groupRow_month {view : View} {auth : PortalUserAuth} {ids : List Int} {employment : Employment}
    {summaries : List (Int × MonthSummary)} (listed : employment.id ∈ ids)
    (summed : summaries.lookup employment.id = some (computedMonth view.db start finish employment)) :
    groupRow view auth (monthPlans view.db ids start finish) year month (monthDays start finish) summaries employment =
      some (sharedRow view auth year month start finish employment) := by
  simp only [groupRow, summed, Option.bind_eq_bind, Option.bind_some, days_computed]
  have days : ((monthDays start finish).map fun date =>
      shiftPlanDayOut employment (planOn (monthPlans view.db ids start finish) employment.id date)
        (daySummary view.db employment start finish false date) date) =
      (monthDays start finish).map fun date =>
        shiftPlanDayOut employment (view.db.shiftPlans.get (employment.id, date))
          (daySummary view.db employment start finish false date) date :=
    List.map_congr_left fun date inside => by rw [planOn_stored listed inside]
  rw [days]
  rfl

/-- The shift plans of a group, with every row computed. -/
theorem getGroupShiftPlanMonth_eq (casing : Casing) (clock : Clock) (columns : Columns) (auth : PortalUserAuth) (groupId : Int)
    (range : monthRange year month = some (start, finish)) (valid : 2000 ≤ year ∧ year ≤ 2100 ∧ 1 ≤ month ∧ month ≤ 12) :
    getGroupShiftPlanMonth casing clock columns store auth groupId year month =
      (accessibleGroup store auth groupId start finish).map fun group =>
        ⟨group.id, group.name, year, month, (sharedMembers casing ⟨clock, store.db, columns⟩ store groupId start finish).map
          (sharedRow ⟨clock, store.db, columns⟩ auth year month start finish)⟩ := by
  have open_ : ¬ (year < 2000 ∨ 2100 < year ∨ month < 1 ∨ 12 < month) := by omega
  rw [getGroupShiftPlanMonth, raiseIf, if_neg open_, range]
  change (accessibleGroup store auth groupId start finish >>= _) = _
  cases accessibleGroup store auth groupId start finish with
  | error refused => rfl
  | ok group =>
    obtain ⟨summaries, summed⟩ : ∃ summaries, buildMonthSummaries store.db (activeMembers store groupId start finish) year month
        false = some summaries := by
      rw [buildMonthSummaries, range]
      exact ⟨_, rfl⟩
    have rows : (sharedMembers casing ⟨clock, store.db, columns⟩ store groupId start finish).mapM
        (groupRow ⟨clock, store.db, columns⟩ auth
          (monthPlans store.db ((activeMembers store groupId start finish).map Employment.id) start finish) year month
          (monthDays start finish) summaries) =
        some ((sharedMembers casing ⟨clock, store.db, columns⟩ store groupId start finish).map
          (sharedRow ⟨clock, store.db, columns⟩ auth year month start finish)) := by
      apply mapM_some
      intro employment inside
      have member := (List.mem_insertionSort _).mp inside
      apply groupRow_month (List.mem_map_of_mem member)
      rw [← lookup_computed member _ range, summed, Option.bind_some]
      intro other listed same
      exact store.db.employments.key_inj (activeMembers_stored store _ _ _ other listed)
        (activeMembers_stored store _ _ _ employment member) same
    have built : require ((sharedMembers casing ⟨clock, store.db, columns⟩ store groupId start finish).mapM
        (groupRow ⟨clock, store.db, columns⟩ auth
          (monthPlans store.db ((activeMembers store groupId start finish).map Employment.id) start finish) year month
          (monthDays start finish) summaries)) (ApiError.uncaught "KeyError") = .ok _ := congrArg (require · _) rows
    change (require _ _ >>= fun summaries => require _ _ >>= _) = _
    rw [summed]
    exact congrArg (· >>= fun rows => .ok (GroupShiftPlanMonthOut.mk group.id group.name year month rows)) built

theorem getGroupShiftPlanMonth_invalid (casing : Casing) (clock : Clock) (columns : Columns) (auth : PortalUserAuth) (groupId : Int)
    (invalid : ¬ (2000 ≤ year ∧ year ≤ 2100 ∧ 1 ≤ month ∧ month ≤ 12)) :
    getGroupShiftPlanMonth casing clock columns store auth groupId year month =
      .error (.api 400 "invalid_month" "Neplatný měsíc." []) := by
  rw [getGroupShiftPlanMonth, raiseIf, if_pos (by omega)]
  rfl

theorem mem_sharedMembers {casing : Casing} {view : View} {groupId : Int} {employment : Employment} :
    employment ∈ sharedMembers casing view store groupId start finish ↔
      employment ∈ activeMembers store groupId start finish :=
  List.mem_insertionSort _

/-- What the plans of a group show in a month. -/
structure GroupShape (store : GroupStore) (auth : PortalUserAuth) (groupId year : Int) (month : Nat) (start finish : Int)
    (payload : GroupShiftPlanMonthOut) : Prop where
  asked : payload.groupId = groupId ∧ payload.year = year ∧ payload.month = month
  listed : ∀ id, id ∈ payload.rows.map GroupShiftPlanRowOut.employmentId ↔
    id ∈ (activeMembers store groupId start finish).map Employment.id
  once : (payload.rows.map GroupShiftPlanRowOut.employmentId).Nodup
  own : ∀ row ∈ payload.rows, row.isOwnEmployment = true ↔
    ∃ employment ∈ store.db.employments, employment.id = row.employmentId ∧ employment.userId = auth.userId
  present : ∃ row ∈ payload.rows, row.isOwnEmployment = true
  locked : ∀ row ∈ payload.rows, row.shiftPlanLocked = true ↔ isMonthLocked store.db .shiftPlan row.employmentId (year, month)
  days : ∀ row ∈ payload.rows, row.days.map ShiftPlanDayOut.date = monthDays start finish
  stored : ∀ row ∈ payload.rows, ∀ day ∈ row.days,
    (day.arrivalTime, day.departureTime, day.status) =
      ((store.db.shiftPlans.get (row.employmentId, day.date)).bind ShiftPlan.arrivalTime,
        (store.db.shiftPlans.get (row.employmentId, day.date)).bind ShiftPlan.departureTime,
        (store.db.shiftPlans.get (row.employmentId, day.date)).bind ShiftPlan.status)

theorem group_shape_month (casing : Casing) (clock : Clock) (columns : Columns) {auth : PortalUserAuth} {group : EmploymentGroup}
    {groupId : Int} (same : group.id = groupId) (shared : Shares store auth.userId groupId start finish) :
    GroupShape store auth groupId year month start finish
      ⟨group.id, group.name, year, month, (sharedMembers casing ⟨clock, store.db, columns⟩ store groupId start finish).map
        (sharedRow ⟨clock, store.db, columns⟩ auth year month start finish)⟩ := by
  have source {row : GroupShiftPlanRowOut} (listed : row ∈ (sharedMembers casing ⟨clock, store.db, columns⟩ store groupId start
      finish).map (sharedRow ⟨clock, store.db, columns⟩ auth year month start finish)) :
      ∃ employment ∈ activeMembers store groupId start finish,
        sharedRow ⟨clock, store.db, columns⟩ auth year month start finish employment = row := by
    obtain ⟨employment, member, built⟩ := List.mem_map.mp listed
    exact ⟨employment, mem_sharedMembers.mp member, built⟩
  constructor
  · exact ⟨same, rfl, rfl⟩
  · intro id
    simp only [List.map_map, List.mem_map, mem_sharedMembers]
    rfl
  · rw [List.map_map]
    apply (((List.perm_insertionSort _ _).map Employment.id).nodup_iff).mpr
    exact activeMembers_ids
  · intro row listed
    obtain ⟨employment, member, rfl⟩ := source listed
    have stored := activeMembers_stored store _ _ _ employment member
    constructor
    · intro own
      exact ⟨employment, stored, rfl, of_decide_eq_true own⟩
    · rintro ⟨other, known, named, own⟩
      obtain rfl := store.db.employments.key_inj known stored named
      exact decide_eq_true own
  · obtain ⟨employment, member, own⟩ := shared
    exact ⟨_, List.mem_map_of_mem (mem_sharedMembers.mpr member), decide_eq_true own⟩
  · intro row listed
    obtain ⟨employment, -, rfl⟩ := source listed
    exact ⟨of_decide_eq_true, decide_eq_true⟩
  · intro row listed
    obtain ⟨employment, -, rfl⟩ := source listed
    simp only [sharedRow, List.map_map]
    exact List.map_id _
  · intro row listed day shown
    obtain ⟨employment, -, rfl⟩ := source listed
    obtain ⟨date, -, rfl⟩ := List.mem_map.mp shown
    rfl

end Detail

/-- A group is listed exactly when its plans are shown; any other group is not found, whether it exists or not. -/
theorem group_views_agree (collate : String → String → Bool) (casing : Casing) (clock : Clock) (columns : Columns)
    (store : GroupStore) (auth : PortalUserAuth) {year : Int} {month : Nat} {start finish : Int}
    (valid : 2000 ≤ year ∧ year ≤ 2100) (range : monthRange year month = some (start, finish)) :
    ∃ listed, portalListShiftPlanGroups collate store auth year month = .ok listed ∧
      (listed.map GroupOptionOut.id).Nodup ∧
      (∀ option ∈ listed, ∃ payload, payload.groupName = option.name ∧
        getGroupShiftPlanMonth casing clock columns store auth option.id year month = .ok payload ∧
        GroupShape store auth option.id year month start finish payload) ∧
      ∀ groupId, groupId ∉ listed.map GroupOptionOut.id →
        getGroupShiftPlanMonth casing clock columns store auth groupId year month = .error groupNotFound := by
  obtain ⟨⟨-, -, early, late, -⟩, -⟩ := monthRange_eq_some.mp range
  have shown (groupId : Int) := @getGroupShiftPlanMonth_eq store _ _ _ _ casing clock columns auth groupId range
    ⟨valid.1, valid.2, early, late⟩
  refine ⟨((joinedGroups store auth.userId start finish).dedup.insertionSort (groupLe collate)).map fun group =>
    ⟨group.id, group.name⟩, ?_, ?_, ?_, ?_⟩
  · rw [portalListShiftPlanGroups, raiseIf, if_neg (by omega), range]
    rfl
  · rw [List.map_map]
    apply (((List.perm_insertionSort _ _).map EmploymentGroup.id).nodup_iff).mpr
    apply List.Nodup.map_on _ (List.nodup_dedup _)
    intro first left second right same
    exact store.groups.key_inj (mem_joinedGroups.mp (List.mem_dedup.mp left)).1 (mem_joinedGroups.mp (List.mem_dedup.mp right)).1 same
  · intro option member
    obtain ⟨group, listed, rfl⟩ := List.mem_map.mp member
    obtain ⟨stored, shared⟩ := mem_joinedGroups.mp (List.mem_dedup.mp ((List.mem_insertionSort _).mp listed))
    have accessible := accessibleGroup_iff.mpr ⟨Table.get_eq_some_iff.mpr ⟨stored, rfl⟩, shared⟩
    refine ⟨_, ?_, (shown group.id).trans (by rw [accessible]; rfl), group_shape_month casing clock columns rfl shared⟩
    rfl
  · intro groupId absent
    rw [shown, accessibleGroup_missed]
    · rfl
    by_cases found : ∃ group, store.groups.get groupId = some group
    · apply Or.inr
      intro shared
      obtain ⟨group, found⟩ := found
      obtain ⟨stored, rfl⟩ := Table.get_eq_some_iff.mp found
      apply absent
      rw [List.map_map]
      apply List.mem_map_of_mem
      exact (List.mem_insertionSort _).mpr (List.mem_dedup.mpr (mem_joinedGroups.mpr ⟨stored, shared⟩))
    · exact .inl found

/-- Two accounts with an employment each, and a group of both beside one without the first. -/
def sharedStore : GroupStore where
  db := { plannedDb with
    users := ⟨[⟨1, true, some "instance"⟩, ⟨2, true, none⟩], by decide⟩
    employments := ⟨[sampleEmployment, ⟨2, 2, .dppDpc, {}, 739500, none⟩, ⟨3, 2, .workContract, {}, 739500, none⟩], by decide⟩
    events := sampleWorkDb.events
    shiftPlans := plannedDb.shiftPlans.put ⟨3, 739834, none, none, some .off, none⟩ }
  groups := ⟨[⟨7, "Recepce"⟩, ⟨8, "Sklad"⟩], by decide⟩
  members := ⟨[⟨7, 1⟩, ⟨7, 2⟩, ⟨8, 2⟩, ⟨8, 3⟩], by decide⟩
  nextGroupId := 9

def shownGroup (groupId : Int) : Api GroupShiftPlanMonthOut :=
  getGroupShiftPlanMonth ⟨id, id⟩ plannedView.clock plannedView.columns sharedStore ⟨1, "instance"⟩ groupId 2026 8

/-- The other group, and one that does not exist, are answered alike. -/
theorem sample_group_views_agree : (∃ payload, shownGroup 7 = .ok payload ∧ payload.groupName = "Recepce") ∧
    shownGroup 8 = .error groupNotFound ∧ shownGroup 9 = .error groupNotFound := by
  obtain ⟨listed, answered, -, shown, missed⟩ := @group_views_agree (fun _ _ => true) ⟨id, id⟩ plannedView.clock
    plannedView.columns sharedStore ⟨1, "instance"⟩ 2026 8 739829 739860 (by decide) (by decide)
  obtain rfl : [⟨7, "Recepce"⟩] = listed := Except.ok.inj (answered.symm.trans (by rfl)).symm
  obtain ⟨payload, named, done, -⟩ := shown ⟨7, "Recepce"⟩ (by decide)
  exact ⟨⟨payload, done, named⟩, missed 8 (by decide), missed 9 (by decide)⟩

section Confinement

variable {year : Int} {month : Nat} {start finish : Int}

instance (casing : Casing) (view : View) : IsTrans Employment (memberLe casing view) where
  trans first second third := by
    unfold memberLe
    intro left right
    rcases left with below | ⟨same, under⟩ <;> rcases right with above | ⟨equal, past⟩
    · exact .inl (below.trans above)
    · exact .inl (equal ▸ below)
    · exact .inl (same ▸ above)
    · exact .inr ⟨same.trans equal, under.trans past⟩

instance (casing : Casing) (view : View) : Std.Total (memberLe casing view) where
  total first second := by
    unfold memberLe
    rcases lt_trichotomy (casing.lower ((view.userName first).getD "")) (casing.lower ((view.userName second).getD "")) with
      below | same | above
    · exact .inl (.inl below)
    · exact (le_total first.id second.id).imp (.inr ⟨same, ·⟩) (.inr ⟨same.symm, ·⟩)
    · exact .inr (.inl above)

theorem memberLe_id {casing : Casing} {view : View} {left right : Employment} (before : memberLe casing view left right)
    (after : memberLe casing view right left) : left.id = right.id := by
  unfold memberLe at before after
  rcases before with below | ⟨same, under⟩ <;> rcases after with above | ⟨equal, past⟩
  · exact absurd above below.asymm
  · exact absurd below (equal ▸ lt_irrefl _)
  · exact absurd above (same ▸ lt_irrefl _)
  · exact le_antisymm under past

/-- The facts of one employment that a group is shown. -/
structure SameFactsShared (store other : Db) (employmentId year : Int) (month : Nat) (start finish : Int) : Prop where
  plans : ∀ date ∈ monthDays start finish, other.shiftPlans.get (employmentId, date) = store.shiftPlans.get (employmentId, date)
  statuses : ∀ date ∈ monthDays start finish, (other.attendance.get (employmentId, date)).bind Attendance.status =
    (store.attendance.get (employmentId, date)).bind Attendance.status
  locked : isMonthLocked other .shiftPlan employmentId (year, month) ↔ isMonthLocked store .shiftPlan employmentId (year, month)

/-- Two states that agree on what the members of a group share in a month. -/
structure SameShared (store other : GroupStore) (groupId year : Int) (month : Nat) (start finish : Int) : Prop where
  group : other.groups.get groupId = store.groups.get groupId
  members : ∀ member, member ∈ other.membersOf groupId ↔ member ∈ store.membersOf groupId
  employments : ∀ member ∈ store.membersOf groupId,
    other.db.employments.get member.employmentId = store.db.employments.get member.employmentId
  users : ∀ member ∈ store.membersOf groupId, ∀ employment ∈ store.db.employments.get member.employmentId,
    other.db.users.get employment.userId = store.db.users.get employment.userId
  facts : ∀ employment ∈ activeMembers store groupId start finish,
    SameFactsShared store.db other.db employment.id year month start finish

/-- A day without its recorded times. -/
def plannedSide (day : DaySummary) : DaySummary := { day with attendance := none, worked := none, workedState := .empty }

/-- The planned side of a day comes from its plan and its status. -/
theorem plannedSide_shared {db other : Db} {employment : Employment} {date : Int}
    (facts : SameFactsShared db other employment.id year month start finish) (inside : date ∈ monthDays start finish) :
    plannedSide (daySummary other employment start finish false date) =
      plannedSide (daySummary db employment start finish false date) := by
  have plans := facts.plans date inside
  have bounds := mem_monthDays.mp inside
  have status : effectiveStatus (other.attendance.get (employment.id, date)) (db.shiftPlans.get (employment.id, date)) =
      effectiveStatus (db.attendance.get (employment.id, date)) (db.shiftPlans.get (employment.id, date)) := by
    simp only [effectiveStatus, facts.statuses date inside]
  have planned : calculateDailyMetrics employment date (shiftPlanIntervals (other.plansBetween employment.id start finish)) =
      calculateDailyMetrics employment date (shiftPlanIntervals (db.plansBetween employment.id start finish)) := by
    apply calculateDailyMetrics_congr
    rw [dayIntervals_plans other _ _ _ _ bounds, dayIntervals_plans db _ _ _ _ bounds, plans]
  simp only [plannedSide, daySummary, plans, status, planned, Bool.false_eq_true, if_false]

/-- The planned totals of a month come from the planned sides of its days. -/
theorem monthSummary_planned {days others : List DaySummary} (same : others.map plannedSide = days.map plannedSide) :
    monthPlannedMinutes (monthSummary others) = monthPlannedMinutes (monthSummary days) ∧
      monthPlannedHours (monthSummary others) = monthPlannedHours (monthSummary days) ∧
      (monthSummary others).planned = (monthSummary days).planned ∧
      (monthSummary others).statusMetrics = (monthSummary days).statusMetrics := by
  have through {α : Type} (read : DaySummary → α) (side : ∀ day, read (plannedSide day) = read day) :
      others.map read = days.map read := by
    simpa only [List.map_map, Function.comp_def, side] using congrArg (List.map read) same
  have minutes := through plannedMinutes fun _ => rfl
  have tenths := through (fun day => (metricValue (plannedMinutes day)).tenths) fun _ => rfl
  have planned := congrArg (List.filterMap id) (through DaySummary.planned fun _ => rfl)
  have statuses := through DaySummary.statusMetrics fun _ => rfl
  rw [List.filterMap_map, List.filterMap_map] at planned
  refine ⟨congrArg List.sum minutes, ?_, congrArg monthMetrics planned, ?_⟩
  · simp only [monthPlannedHours, monthSummary, tenths]
  · simp only [monthSummary, statuses]

theorem sharedRow_congr {view other : View} (named : other.columns = view.columns) {auth : PortalUserAuth} {employment : Employment}
    (account : other.db.users.get employment.userId = view.db.users.get employment.userId)
    (facts : SameFactsShared view.db other.db employment.id year month start finish) :
    sharedRow other auth year month start finish employment = sharedRow view auth year month start finish employment := by
  have days : (monthDays start finish).map (fun date =>
        shiftPlanDayOut employment (other.db.shiftPlans.get (employment.id, date))
          (daySummary other.db employment start finish false date) date) =
      (monthDays start finish).map fun date =>
        shiftPlanDayOut employment (view.db.shiftPlans.get (employment.id, date))
          (daySummary view.db employment start finish false date) date := by
    apply List.map_congr_left
    intro date inside
    have reads (plan : Option ShiftPlan) (day : DaySummary) :
        shiftPlanDayOut employment plan day date = shiftPlanDayOut employment plan (plannedSide day) date := rfl
    rw [facts.plans date inside, reads, plannedSide_shared facts inside, ← reads]
  have sides : ((monthDays start finish).map (daySummary other.db employment start finish false)).map plannedSide =
      ((monthDays start finish).map (daySummary view.db employment start finish false)).map plannedSide := by
    rw [List.map_map, List.map_map]
    exact List.map_congr_left fun date inside => plannedSide_shared facts inside
  obtain ⟨minutes, hours, planned, statuses⟩ := monthSummary_planned sides
  have label : employmentLabel other employment = employmentLabel view employment := by
    rw [employmentLabel, employmentLabel, View.userName, View.userName, account, named]
  simp only [sharedRow, label, days, computedMonth, minutes, hours, planned, statuses, facts.locked]

theorem SameShared.activeMembers {store other : GroupStore} {groupId : Int}
    (same : SameShared store other groupId year month start finish) (employment : Employment) :
    employment ∈ activeMembers other groupId start finish ↔ employment ∈ activeMembers store groupId start finish := by
  have stored (member : EmploymentGroupMember) (listed : member ∈ store.membersOf groupId) (id : member.employmentId = employment.id) :
      employment ∈ other.db.employments ↔ employment ∈ store.db.employments := by
    have found := same.employments member listed
    rw [id] at found
    constructor
    · intro present
      exact (Table.get_eq_some_iff.mp (found.symm.trans (Table.get_eq_some_iff.mpr ⟨present, rfl⟩))).1
    · intro present
      exact (Table.get_eq_some_iff.mp (found.trans (Table.get_eq_some_iff.mpr ⟨present, rfl⟩))).1
  have active (member : EmploymentGroupMember) (listed : member ∈ store.membersOf groupId) (id : member.employmentId = employment.id)
      (present : employment ∈ store.db.employments) : userIsActive other.db employment ↔ userIsActive store.db employment := by
    have account := same.users member listed employment (by rw [id]; exact Table.get_eq_some_iff.mpr ⟨present, rfl⟩)
    rw [userIsActive, userIsActive, account]
  rw [mem_activeMembers, mem_activeMembers]
  constructor
  · rintro ⟨present, ⟨member, listed, id⟩, awake, overlapping⟩
    have listed := (same.members member).mp listed
    have present := (stored member listed id).mp present
    exact ⟨present, ⟨member, listed, id⟩, (active member listed id present).mp awake, overlapping⟩
  · rintro ⟨present, ⟨member, listed, id⟩, awake, overlapping⟩
    exact ⟨(stored member listed id).mpr present, ⟨member, (same.members member).mpr listed, id⟩,
      (active member listed id present).mpr awake, overlapping⟩

/-- The account of an active member of a group, in both states. -/
theorem SameShared.account {store other : GroupStore} {groupId : Int} (same : SameShared store other groupId year month start finish)
    {employment : Employment} (shared : employment ∈ Payloads.activeMembers store groupId start finish) :
    other.db.users.get employment.userId = store.db.users.get employment.userId := by
  obtain ⟨present, ⟨member, listed, id⟩, -, -⟩ := mem_activeMembers.mp shared
  exact same.users member listed employment (by rw [id]; exact Table.get_eq_some_iff.mpr ⟨present, rfl⟩)

/-- The order of the rows is fixed by the names of the accounts and the numbers. -/
theorem SameShared.sharedMembers {store other : GroupStore} {groupId : Int}
    (same : SameShared store other groupId year month start finish) (casing : Casing) (clock clock' : Clock) (columns : Columns) :
    sharedMembers casing ⟨clock', other.db, columns⟩ other groupId start finish =
      sharedMembers casing ⟨clock, store.db, columns⟩ store groupId start finish := by
  have perm : (Payloads.activeMembers other groupId start finish).Perm (Payloads.activeMembers store groupId start finish) :=
    (List.perm_ext_iff_of_nodup (activeMembers_ids.of_map _) (activeMembers_ids.of_map _)).mpr same.activeMembers
  have sorted := List.pairwise_insertionSort (memberLe casing ⟨clock', other.db, columns⟩)
    (Payloads.activeMembers other groupId start finish)
  have resorted := sorted.imp_of_mem (S := memberLe casing ⟨clock, store.db, columns⟩) (by
    intro left right inside inside' before
    have first := same.account ((same.activeMembers left).mp ((List.mem_insertionSort _).mp inside))
    have second := same.account ((same.activeMembers right).mp ((List.mem_insertionSort _).mp inside'))
    simp only [memberLe, View.userName, first, second] at before ⊢
    exact before)
  apply List.Perm.eq_of_pairwise _ resorted (List.pairwise_insertionSort _ _)
  · exact (List.perm_insertionSort _ _).trans (perm.trans (List.perm_insertionSort _ _).symm)
  · intro left right inside inside' before after
    have stored := activeMembers_stored store groupId start finish
    exact store.db.employments.key_inj (stored left ((same.activeMembers left).mp ((List.mem_insertionSort _).mp inside)))
      (stored right ((List.mem_insertionSort _).mp inside')) (memberLe_id before after)

theorem SameShared.accessible {store other : GroupStore} {groupId : Int}
    (same : SameShared store other groupId year month start finish) (auth : PortalUserAuth) :
    accessibleGroup other auth groupId start finish = accessibleGroup store auth groupId start finish := by
  have shares : Shares other auth.userId groupId start finish ↔ Shares store auth.userId groupId start finish := by
    simp only [Shares, same.activeMembers]
  by_cases opened : (∃ group, store.groups.get groupId = some group) ∧ Shares store auth.userId groupId start finish
  · obtain ⟨⟨group, found⟩, shared⟩ := opened
    rw [accessibleGroup_iff.mpr ⟨found, shared⟩, accessibleGroup_iff.mpr ⟨same.group.trans found, shares.mpr shared⟩]
  · have missed := not_and_or.mp opened
    rw [accessibleGroup_missed missed, accessibleGroup_missed]
    rwa [same.group, shares]

end Confinement

/-- What a group is shown depends on nothing but what its members share: recorded times, other months, and
everybody outside the group leave it as it is. -/
theorem group_view_confined (casing : Casing) (clock clock' : Clock) (columns : Columns) (auth : PortalUserAuth)
    {store other : GroupStore} {groupId year : Int} {month : Nat} {start finish : Int}
    (range : monthRange year month = some (start, finish)) (same : SameShared store other groupId year month start finish) :
    getGroupShiftPlanMonth casing clock' columns other auth groupId year month =
      getGroupShiftPlanMonth casing clock columns store auth groupId year month := by
  by_cases valid : 2000 ≤ year ∧ year ≤ 2100 ∧ 1 ≤ month ∧ month ≤ 12
  · have rows : (sharedMembers casing ⟨clock', other.db, columns⟩ other groupId start finish).map
          (sharedRow ⟨clock', other.db, columns⟩ auth year month start finish) =
        (sharedMembers casing ⟨clock, store.db, columns⟩ store groupId start finish).map
          (sharedRow ⟨clock, store.db, columns⟩ auth year month start finish) := by
      rw [same.sharedMembers casing clock clock' columns]
      apply List.map_congr_left
      intro employment listed
      have shared := mem_sharedMembers.mp listed
      exact @sharedRow_congr year month start finish ⟨clock, store.db, columns⟩ ⟨clock', other.db, columns⟩ rfl auth employment
        (same.account shared) (same.facts employment shared)
    have shown := @getGroupShiftPlanMonth_eq other _ _ _ _ casing clock' columns auth groupId range valid
    rw [same.accessible auth, rows] at shown
    exact shown.trans (getGroupShiftPlanMonth_eq casing clock columns auth groupId range valid).symm
  · have refused := @getGroupShiftPlanMonth_invalid other _ _ casing clock' columns auth groupId valid
    exact refused.trans (getGroupShiftPlanMonth_invalid casing clock columns auth groupId valid).symm

/-- The same without recorded times and without the plan of an employment outside the first group. -/
def narrowedStore : GroupStore :=
  { sharedStore with db := { sharedStore.db with events := ∅, shiftPlans := plannedDb.shiftPlans } }

theorem sample_group_view_confined :
    getGroupShiftPlanMonth ⟨id, id⟩ plannedView.clock plannedView.columns narrowedStore ⟨1, "instance"⟩ 7 2026 8 = shownGroup 7 := by
  apply @group_view_confined ⟨id, id⟩ plannedView.clock plannedView.clock plannedView.columns ⟨1, "instance"⟩ sharedStore narrowedStore
    7 2026 8 739829 739860 (by decide)
  constructor
  · rfl
  · exact fun _ => Iff.rfl
  · exact fun _ _ => rfl
  · exact fun _ _ _ _ => rfl
  · intro employment shared
    constructor
    · intro date inside
      have member : ∀ employment ∈ activeMembers sharedStore 7 739829 739860, employment.id ≠ 3 := by decide
      change _ = (plannedDb.shiftPlans.put _).get _
      rw [Table.get_put, if_neg fun same => member employment shared (congrArg Prod.fst same).symm]
      rfl
    · exact fun _ _ => rfl
    · exact Iff.rfl

end Dagmar.Payloads.Proofs
