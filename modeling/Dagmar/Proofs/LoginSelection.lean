import Dagmar.LoginWindow
import Dagmar.Library.Pairing

/-! The selection of the employments of a person. The months of the calendar are
moved in order, so an employment that starts, or has ended, nearer to today than an
available one is available too; only at the two ends of the calendar is there no
month to move to. -/

namespace Dagmar.Proofs
open Library Library.Calendar Library.Outcome Library.Pairing

section Statements
variable (employments : List Employment) (today : Int)

/-- The employment offered first: the earliest of those valid today, else the next to start, else the last to end. -/
inductive Offered (available : List Employment) (default : Employment) : Prop where
  | current (valid : employmentIsValidOnDay default today)
      (earliest : ∀ employment ∈ employments, employmentIsValidOnDay employment today →
        default.startDate ≤ employment.startDate)
  | upcoming (idle : ∀ employment ∈ employments, ¬ employmentIsValidOnDay employment today) (later : today < default.startDate)
      (soonest : ∀ employment ∈ employments, today < employment.startDate → default.startDate ≤ employment.startDate)
  | ended (idle : ∀ employment ∈ employments, ¬ employmentIsValidOnDay employment today)
      (started : ∀ employment ∈ available, employment.startDate ≤ today) (last : Int) (finished : default.endDate = some last)
      (before : last < today)
      (latest : ∀ employment ∈ employments, ∀ other ∈ employment.endDate, other < today → other ≤ last)

structure Selected (selection : LoginEmploymentSelection) : Prop where
  listed : ∀ employment ∈ selection.available, employment ∈ employments
  valid : ∀ employment ∈ employments, employmentIsValidOnDay employment today → employment ∈ selection.available
  none_iff : selection.default = none ↔ selection.available = []
  offered : ∀ default ∈ selection.default, default ∈ selection.available ∧ Offered employments today selection.available default

/-- The dates that the interface admits. -/
structure AdmittedPeriod (employment : Employment) : Prop where
  start : inCalendar employment.startDate
  finish : ∀ last ∈ employment.endDate, inCalendar last ∧ employment.startDate ≤ last

/-- The window of an employment is inside the calendar, or its end is not asked for. -/
structure Reckonable (employment : Employment) : Prop where
  start : ordinal 1 2 1 ≤ employment.startDate
  finish : ∀ last ∈ employment.endDate, ordinal 9999 12 1 ≤ last →
    ∀ allowedFrom ∈ addCalendarMonths employment.startDate (-1), today < allowedFrom

end Statements

section Windows
variable {employment other : Employment} {today value months : Int}

/-- Moving by months fails only outside the years of the calendar. -/
theorem addCalendarMonths_eq (value months : Int) : addCalendarMonths value months =
    if 12 ≤ monthNumber value + months ∧ monthNumber value + months < 120000 then some (movedMonths value months) else none := by
  have bounds := monthOf_bounds value
  have days := dayOf_bounds value
  have fields := ordinal_fields value
  have year : yearOf value + ((monthOf value : Int) - 1 + months) / 12 = (monthNumber value + months) / 12 := by
    rw [monthNumber]
    omega
  have month : (((monthOf value : Int) - 1 + months) % 12 + 1).toNat = ((monthNumber value + months) % 12 + 1).toNat := by
    rw [monthNumber]
    omega
  have start : value - monthStart (monthNumber value) = dayOf value - 1 := by
    have quotient : monthNumber value / 12 = yearOf value := by
      rw [monthNumber]
      omega
    have remainder : (monthNumber value % 12 + 1).toNat = monthOf value := by
      rw [monthNumber]
      omega
    rw [monthStart, quotient, remainder]
    simp only [firstDay, ordinal] at fields ⊢
    omega
  have length := monthStart_succ (monthNumber value + months)
  have positive := daysInMonth_pos ((monthNumber value + months) / 12) ((monthNumber value + months) % 12 + 1).toNat
  have begin : monthStart (monthNumber value + months) =
      ordinal ((monthNumber value + months) / 12) ((monthNumber value + months) % 12 + 1).toNat 1 := rfl
  rw [addCalendarMonths]
  rw [year, month, date?, movedMonths, start, length, begin]
  simp only [ordinal] at begin ⊢
  split_ifs with inside range range
  · congr 1
    omega
  · omega
  · omega
  · rfl

theorem addCalendarMonths_back (inside : inCalendar value) : addCalendarMonths value (-1) =
    if ordinal 1 2 1 ≤ value then some (movedMonths value (-1)) else none := by
  have first : monthStart 13 = ordinal 1 2 1 := by decide
  have last : monthStart 120000 = ordinal 9999 12 31 + 1 := by decide
  have begun := @le_monthNumber_iff value 13
  have bounded := @monthNumber_lt_iff value 120000
  rw [first] at begun
  rw [last] at bounded
  have below := bounded.mpr (Int.lt_add_one_iff.mpr inside.2)
  rw [addCalendarMonths_eq]
  apply if_congr _ rfl rfl
  rw [← begun]
  omega

theorem addCalendarMonths_next (inside : inCalendar value) : addCalendarMonths value 1 =
    if value < ordinal 9999 12 1 then some (movedMonths value 1) else none := by
  have first : monthStart 12 = 1 := by decide
  have last : monthStart 119999 = ordinal 9999 12 1 := by decide
  have begun := @le_monthNumber_iff value 12
  have bounded := @monthNumber_lt_iff value 119999
  rw [first] at begun
  rw [last] at bounded
  have started := begun.mpr inside.1
  rw [addCalendarMonths_eq]
  apply if_congr _ rfl rfl
  rw [← bounded]
  omega

/-- The window as the moved days bound it. -/
def InWindow (today : Int) (employment : Employment) : Prop :=
  movedMonths employment.startDate (-1) ≤ today ∧ ∀ last ∈ employment.endDate, today ≤ movedMonths last 1

instance (today : Int) (employment : Employment) : Decidable (InWindow today employment) :=
  inferInstanceAs (Decidable (_ ∧ _))

theorem within_isSome (admitted : AdmittedPeriod employment) :
    (employmentIsWithinLoginWindow employment today).isSome ↔ Reckonable today employment := by
  have back := addCalendarMonths_back admitted.start
  constructor
  · intro decided
    rw [employmentIsWithinLoginWindow, loginWindowMonths, back] at decided
    split_ifs at decided with reaches
    swap
    · exact absurd decided Bool.false_ne_true
    refine ⟨reaches, ?_⟩
    intro last ended late allowedFrom moved
    rw [back, if_pos reaches, Option.mem_def, Option.some.injEq] at moved
    subst moved
    by_contra open'
    have next := addCalendarMonths_next (admitted.finish last ended).1
    rw [if_neg (not_lt.mpr late)] at next
    simp [open', Option.mem_def.mp ended, next] at decided
  · intro reckonable
    rw [employmentIsWithinLoginWindow, loginWindowMonths, back, if_pos reckonable.start, Option.bind_eq_bind, Option.bind_some]
    split
    · rfl
    next allowed =>
      cases ended : employment.endDate with
      | none => rfl
      | some last =>
        have inside := (admitted.finish last ended).1
        have early : last < ordinal 9999 12 1 := by
          by_contra late
          exact allowed (reckonable.finish last ended (not_lt.mp late) _ (by rw [back, if_pos reckonable.start]; rfl))
        simp [addCalendarMonths_next inside, early]

theorem within_iff (admitted : AdmittedPeriod employment) (reckonable : Reckonable today employment) :
    employmentIsWithinLoginWindow employment today = some true ↔ InWindow today employment := by
  have back := addCalendarMonths_back admitted.start
  rw [if_pos reckonable.start] at back
  rw [employmentIsWithinLoginWindow, loginWindowMonths, back, Option.bind_eq_bind, Option.bind_some, InWindow]
  split
  next early => simp [not_le.mpr early]
  next allowed =>
    cases ended : employment.endDate with
    | none => simp [not_lt.mp allowed]
    | some last =>
      have inside := (admitted.finish last ended).1
      have early : last < ordinal 9999 12 1 := by
        by_contra late
        exact allowed (reckonable.finish last ended (not_lt.mp late) _ back)
      simp [addCalendarMonths_next inside, early, not_lt.mp allowed]

end Windows

section Lists
variable {employments available : List Employment} {today : Int}

theorem employmentsWithin_reckoned (admitted : ∀ employment ∈ employments, AdmittedPeriod employment)
    (reckonable : ∀ employment ∈ employments, Reckonable today employment) :
    employmentsWithinLoginWindow today employments = some (employments.filter (InWindow today ·)) := by
  induction employments with
  | nil => rfl
  | cons employment employments ih =>
    obtain ⟨first, rest⟩ := List.forall_mem_cons.mp admitted
    obtain ⟨first', rest'⟩ := List.forall_mem_cons.mp reckonable
    obtain ⟨within, decided⟩ := Option.isSome_iff_exists.mp ((within_isSome first).mpr first')
    have iff := within_iff first first'
    rw [decided, Option.some.injEq] at iff
    rw [employmentsWithinLoginWindow, decided, ih rest rest']
    by_cases inside : InWindow today employment
    · simp [iff.mpr inside, inside]
    · simp [inside, Bool.eq_false_iff.mpr fun holds => inside (iff.mp holds)]

theorem reckonable_of_employmentsWithin (admitted : ∀ employment ∈ employments, AdmittedPeriod employment)
    (done : employmentsWithinLoginWindow today employments = some available) :
    ∀ employment ∈ employments, Reckonable today employment := by
  induction employments generalizing available with
  | nil => simp
  | cons employment employments ih =>
    obtain ⟨first, rest⟩ := List.forall_mem_cons.mp admitted
    simp only [employmentsWithinLoginWindow, Option.bind_eq_bind, Option.bind_eq_some_iff] at done
    obtain ⟨within, decided, others, selected, -⟩ := done
    exact List.forall_mem_cons.mpr ⟨(within_isSome first).mp (by rw [decided]; rfl), ih rest selected⟩

instance : IsTrans Employment startsFirst where
  trans first second third := by
    simp only [startsFirst]
    omega

instance : Std.Total startsFirst where
  total first second := by
    simp only [startsFirst]
    omega

instance : IsTrans Employment (endsLast today) where
  trans first second third := by
    simp only [endsLast]
    omega

instance : Std.Total (endsLast today) where
  total first second := by
    simp only [endsLast]
    omega

theorem inWindow_of_valid {employment : Employment} (valid : employmentIsValidOnDay employment today) :
    InWindow today employment := by
  constructor
  · exact (movedMonths_back _).le.trans valid.1
  · intro last ended
    exact (valid.2 last ended).trans (lt_movedMonths last).le

/-- An employment of the window is valid, or still to start, or has ended. -/
theorem valid_or_outside (employment : Employment) (today : Int) : employmentIsValidOnDay employment today ∨
    today < employment.startDate ∨ ∃ last, employment.endDate = some last ∧ last < today := by
  by_cases later : today < employment.startDate
  · exact .inr (.inl later)
  by_cases valid : ∀ last ∈ employment.endDate, today ≤ last
  · exact .inl ⟨not_lt.mp later, valid⟩
  · push Not at valid
    obtain ⟨last, ended, before⟩ := valid
    exact .inr (.inr ⟨last, ended, before⟩)

/-- A coming employment that starts before one of the window is in the window. -/
theorem inWindow_of_sooner {employment other : Employment} (admitted : AdmittedPeriod employment)
    (starts : today < employment.startDate) (sooner : employment.startDate ≤ other.startDate) (window : InWindow today other) :
    InWindow today employment := by
  constructor
  · exact (movedMonths_mono sooner (-1)).trans window.1
  · intro last ended
    have := (admitted.finish last ended).2
    have := lt_movedMonths last
    omega

/-- An ended employment that lasted longer than one of the window is in the window. -/
theorem inWindow_of_longer {employment other : Employment} (admitted : AdmittedPeriod employment) {last last' : Int}
    (ended : employment.endDate = some last) (before : last < today) (ended' : other.endDate = some last')
    (longer : last' ≤ last) (window : InWindow today other) : InWindow today employment := by
  constructor
  · have := (admitted.finish last ended).2
    have := movedMonths_back employment.startDate
    omega
  · rw [ended]
    rintro _ ⟨⟩
    exact (window.2 last' ended').trans (movedMonths_mono longer 1)

/-- Where every window can be reckoned, the selection is made and is the right one. -/
theorem selected_of_reckonable (admitted : ∀ employment ∈ employments, AdmittedPeriod employment)
    (reckonable : ∀ employment ∈ employments, Reckonable today employment) :
    ∃ selection, selectLoginEmployments employments today = some selection ∧ Selected employments today selection := by
  obtain ⟨eligible, listed⟩ : ∃ eligible, eligible = (employments.filter (InWindow today ·)).insertionSort startsFirst := ⟨_, rfl⟩
  have member (employment : Employment) : employment ∈ eligible ↔ employment ∈ employments ∧ InWindow today employment := by
    rw [listed, List.mem_insertionSort, List.mem_filter, decide_eq_true_eq]
  have inside : ∀ employment ∈ eligible, employment ∈ employments := fun employment found => ((member employment).mp found).1
  have valid : ∀ employment ∈ employments, employmentIsValidOnDay employment today → employment ∈ eligible :=
    fun employment found holds => (member employment).mpr ⟨found, inWindow_of_valid holds⟩
  have single {default : Employment} (found : default ∈ eligible) (offered : Offered employments today eligible default) :
      Selected employments today ⟨eligible, some default⟩ := by
    refine ⟨inside, valid, ?_, ?_⟩
    · simp [List.ne_nil_of_mem found]
    · rintro _ ⟨⟩
      exact ⟨found, offered⟩
  rw [selectLoginEmployments, employmentsWithin_reckoned admitted reckonable, Option.bind_eq_bind, Option.bind_some]
  simp only [← listed]
  split
  next current =>
    obtain ⟨default, found, head, least⟩ := head_insertionSort startsFirst current
    obtain ⟨available, now⟩ := List.mem_filter.mp found
    refine ⟨_, rfl, ?_⟩
    rw [head]
    apply single available
    apply Offered.current (of_decide_eq_true now)
    intro employment listed holds
    have := least employment (List.mem_filter.mpr ⟨valid employment listed holds, decide_eq_true holds⟩)
    simp only [startsFirst] at this
    omega
  next current =>
    have idle : ∀ employment ∈ employments, ¬ employmentIsValidOnDay employment today := by
      intro employment listed holds
      exact current (List.ne_nil_of_mem (List.mem_filter.mpr ⟨valid employment listed holds, decide_eq_true holds⟩))
    split
    next upcoming =>
      obtain ⟨default, found, head, least⟩ := head_insertionSort startsFirst upcoming
      obtain ⟨available, later⟩ := List.mem_filter.mp found
      refine ⟨_, rfl, ?_⟩
      rw [head]
      apply single available
      apply Offered.upcoming idle (of_decide_eq_true later)
      intro employment listed starts
      by_contra! sooner
      -- An employment outside the window starts after all those of the window.
      have window := (member employment).mpr
        ⟨listed, inWindow_of_sooner (admitted employment listed) starts sooner.le ((member default).mp available).2⟩
      have := least employment (List.mem_filter.mpr ⟨window, decide_eq_true starts⟩)
      simp only [startsFirst] at this
      omega
    next upcoming =>
      have started : ∀ employment ∈ eligible, employment.startDate ≤ today := by
        intro employment found
        by_contra! later
        exact upcoming (List.ne_nil_of_mem (List.mem_filter.mpr ⟨found, decide_eq_true later⟩))
      have finished : ∀ employment ∈ eligible, ∃ last, employment.endDate = some last ∧ last < today := by
        intro employment found
        rcases valid_or_outside employment today with now | later | ended
        · exact absurd now (idle employment (inside employment found))
        · exact absurd (started employment found) (not_le.mpr later)
        · exact ended
      have recent : eligible.filter (fun employment => employment.endDate.getD dateMax < today) = eligible := by
        apply List.filter_eq_self.mpr
        intro employment found
        obtain ⟨last, ended, before⟩ := finished employment found
        simp [ended, before]
      refine ⟨_, rfl, ?_⟩
      rw [recent]
      by_cases filled : eligible = []
      · rw [filled] at valid ⊢
        refine ⟨by simp, valid, by simp, by simp⟩
      · obtain ⟨default, available, head, least⟩ := head_insertionSort (endsLast today) filled
        obtain ⟨last, ended, before⟩ := finished default available
        rw [head]
        apply single available
        apply Offered.ended idle started last ended before
        intro employment listed other ended' before'
        by_contra! longer
        have window := (member employment).mpr ⟨listed, inWindow_of_longer (admitted employment listed)
          ended' before' ended longer.le ((member default).mp available).2⟩
        have := least employment window
        simp only [endsLast, ended, Option.mem_def.mp ended', Option.getD_some] at this
        omega

end Lists

section Listing
variable {employments : List Employment} {today : Int}

theorem reckonable_of_selected (admitted : ∀ employment ∈ employments, AdmittedPeriod employment)
    {selection : LoginEmploymentSelection} (made : selectLoginEmployments employments today = some selection) :
    ∀ employment ∈ employments, Reckonable today employment := by
  simp only [selectLoginEmployments, Option.bind_eq_bind, Option.bind_eq_some_iff] at made
  obtain ⟨available, done, -⟩ := made
  exact reckonable_of_employmentsWithin admitted done

theorem selectLoginEmployments_iff (admitted : ∀ employment ∈ employments, AdmittedPeriod employment) :
    (∃ selection, selectLoginEmployments employments today = some selection ∧ Selected employments today selection) ↔
      ∀ employment ∈ employments, Reckonable today employment := by
  constructor
  · intro ⟨selection, made, _⟩
    exact reckonable_of_selected admitted made
  · exact selected_of_reckonable admitted

theorem toUserOut_iff {user : ListedUser} (admitted : ∀ employment ∈ user.employments, AdmittedPeriod employment) :
    (∃ out, toUserOut today user = some out) ↔
      (¬ user.isBlocked → user.isActive → ∀ employment ∈ user.employments, Reckonable today employment) := by
  have status : (∃ out, toUserOut today user = some out) ↔ ∃ status, userLoginStatus user today = some status := by
    simp only [toUserOut, Option.bind_eq_bind, Option.bind_eq_some_iff]
    constructor
    · intro ⟨_, status, found, _⟩
      exact ⟨status, found⟩
    · intro ⟨status, found⟩
      exact ⟨_, status, found, rfl⟩
  rw [status, userLoginStatus]
  split
  next blocked => simp [blocked]
  next blocked =>
    split
    next inactive => simp [inactive]
    next active =>
      constructor
      · intro ⟨_, found⟩ _ _
        obtain ⟨selection, made, -⟩ := Option.bind_eq_some_iff.mp found
        exact reckonable_of_selected admitted made
      · intro reckonable
        obtain ⟨selection, made, -⟩ := selected_of_reckonable admitted (reckonable blocked (not_not.mp active))
        rw [made]
        exact ⟨_, rfl⟩

/-- The selection is made, and made right, exactly when every window can be reckoned; and the list of users is
shown exactly when that holds of every user who is neither blocked nor inactive. -/
theorem login_selection (employments : List Employment) (today : Int) (users : List ListedUser)
    (admitted : ∀ employment ∈ employments, AdmittedPeriod employment)
    (listed : ∀ user ∈ users, ∀ employment ∈ user.employments, AdmittedPeriod employment) :
    ((∃ selection, selectLoginEmployments employments today = some selection ∧ Selected employments today selection) ↔
      ∀ employment ∈ employments, Reckonable today employment) ∧
    ((∃ out, listUsers today users = .ok out) ↔
      ∀ user ∈ users, ¬ user.isBlocked → user.isActive → ∀ employment ∈ user.employments, Reckonable today employment) := by
  refine ⟨selectLoginEmployments_iff admitted, ?_⟩
  rw [listUsers, mapM_ok_iff]
  simp only [require_eq_ok]
  constructor
  · intro shown user member
    exact (toUserOut_iff (listed user member)).mp (shown user member)
  · intro reckonable user member
    exact (toUserOut_iff (listed user member)).mpr (reckonable user member)

end Listing

section Examples

/-- An employment through 2026, and one whose end is put as far away as it goes. -/
def yearly : Employment := ⟨1, 1, .dppDpc, {}, ordinal 2026 1 1, some (ordinal 2026 12 31)⟩
def endless : Employment := ⟨2, 2, .dppDpc, {}, ordinal 2026 1 1, some (ordinal 9999 12 31)⟩

theorem yearly_admitted : AdmittedPeriod yearly := ⟨by decide, by decide⟩
theorem endless_admitted : AdmittedPeriod endless := ⟨by decide, by decide⟩

theorem yearly_reckonable (today : Int) : Reckonable today yearly := by
  refine ⟨by decide, ?_⟩
  rintro _ ⟨⟩ late
  exact absurd late (by decide)

theorem sample_login_selection : (∃ out, listUsers (ordinal 2026 5 1) [⟨1, true, false, [yearly]⟩] = .ok out) ∧
    ∃ selection, selectLoginEmployments [yearly] (ordinal 2026 5 1) = some selection ∧
      Selected [yearly] (ordinal 2026 5 1) selection := by
  have admitted : ∀ employment ∈ [yearly], AdmittedPeriod employment := List.forall_mem_singleton.mpr yearly_admitted
  have reckonable : ∀ employment ∈ [yearly], Reckonable (ordinal 2026 5 1) employment :=
    List.forall_mem_singleton.mpr (yearly_reckonable _)
  obtain ⟨selected, shown⟩ := login_selection [yearly] (ordinal 2026 5 1) [⟨1, true, false, [yearly]⟩]
    admitted (List.forall_mem_singleton.mpr admitted)
  exact ⟨shown.mpr (List.forall_mem_singleton.mpr fun _ _ => reckonable), selected.mpr reckonable⟩

/-- The employee of an endless employment cannot be selected for, and hides the list of all users. -/
theorem endless_employment_raises : AdmittedPeriod endless ∧ employmentIsValidOnDay endless (ordinal 2026 5 1) ∧
    (selectLoginEmployments [endless] (ordinal 2026 5 1)).isNone ∧
    (listUsers (ordinal 2026 5 1) [⟨1, true, false, [yearly]⟩, ⟨2, true, false, [endless]⟩]).toOption.isNone ∧
    (listUsers (ordinal 2026 5 1) [⟨1, true, false, [yearly]⟩]).toOption.isSome :=
  ⟨endless_admitted, by decide, by decide, by decide, by decide⟩

end Examples

end Dagmar.Proofs
