import Dagmar.Proofs.StatusRepeats
import Dagmar.Proofs.Summaries
import Mathlib.Data.String.Basic

/-! Which texts of a clock time are taken, and what the stored times then mean.
The pattern takes the documented texts, and besides them those with a digit
outside ASCII or with a line break at the end. -/

namespace Dagmar.Proofs
open Library Library.Outcome

section Grammar

/-- `HH:MM` in ASCII digits, an hour before 24 and a minute before 60. -/
def documentedClock : List Char → Bool
  | [h, o, ':', m, i] =>
    match ascii? h, ascii? o, ascii? m, ascii? i with
    | some h, some o, some m, some i => h * 10 + o ≤ 23 ∧ m * 10 + i ≤ 59
    | _, _, _, _ => false
  | _ => false

/-- What a request text of a clock time is documented to be read as. -/
def documentedTime : Option String → Option (Option String)
  | none => some none
  | some text =>
    if text.toList.all isSpace then some none
    else if documentedClock text.toList then some (some text)
    else none

def Ascii (text : List Char) : Prop := ∀ c ∈ text, c.toNat < 128

instance (text : List Char) : Decidable (Ascii text) := List.decidableBAll _ text

/-- A clock text with a digit outside ASCII, or with a line break after it. -/
def LooseClock (text : List Char) : Prop :=
  isClock text ∧ ¬ Ascii text ∨ text.getLast? = some '\n' ∧ isClock text.dropLast

instance (text : List Char) : Decidable (LooseClock text) := inferInstanceAs (Decidable (_ ∨ _))

theorem ascii?_eq_some {c : Char} {value : Nat} : ascii? c = some value ↔ c.toNat = 48 + value ∧ value ≤ 9 := by
  have low : ('0' ≤ c) ↔ 48 ≤ c.toNat := by
    rw [Char.le_def, UInt32.le_iff_toNat_le]
    rfl
  have high : (c ≤ '9') ↔ c.toNat ≤ 57 := by
    rw [Char.le_def, UInt32.le_iff_toNat_le]
    rfl
  have zero : '0'.toNat = 48 := rfl
  simp only [ascii?, low, high, zero]
  split
  · rw [Option.some.injEq]
    omega
  · constructor
    · intro impossible
      cases impossible
    · omega

/-- Below 128 only the ten ASCII digits are decimal. -/
theorem decimal?_ascii {c : Char} (plain : c.toNat < 128) : decimal? c = ascii? c := by
  by_cases digit : 48 ≤ c.toNat ∧ c.toNat ≤ 57
  · have read : ascii? c = some (c.toNat - 48) := ascii?_eq_some.mpr (by omega)
    rw [read, decimal?, decimalZeros, List.find?_cons_of_pos (by simpa using digit)]
    rfl
  · have unread : ascii? c = none := by
      cases read : ascii? c with
      | none => rfl
      | some value =>
        have := ascii?_eq_some.mp read
        omega
    rw [unread, decimal?, Option.map_eq_none_iff, List.find?_eq_none]
    intro first member
    have bounds : ∀ first ∈ decimalZeros, first = 48 ∨ 128 ≤ first := by decide
    have := bounds first member
    simp only [decide_eq_true_eq]
    omega

theorem ascii?_plain {c : Char} {value : Nat} (read : ascii? c = some value) : c.toNat < 128 ∧ isDecimal c := by
  have bounds := ascii?_eq_some.mp read
  have plain : c.toNat < 128 := by omega
  refine ⟨plain, ?_⟩
  rw [isDecimal, decimal?_ascii plain, read]
  rfl

theorem isDecimal_ascii {c : Char} (decimal : isDecimal c) (plain : c.toNat < 128) : ∃ value, ascii? c = some value := by
  rw [isDecimal, decimal?_ascii plain] at decimal
  exact Option.isSome_iff_exists.mp decimal

/-- A character is told by the digit it stands for. -/
theorem eq_of_ascii? {c : Char} {value : Nat} (read : ascii? c = some value) : c = Char.ofNat (48 + value) := by
  have digits : ∀ value ≤ 9, (Char.ofNat (48 + value)).toNat = 48 + value := by decide
  obtain ⟨same, small⟩ := ascii?_eq_some.mp read
  exact Char.toNat_inj.mp (same.trans (digits value small).symm)

theorem documentedClock_iff {text : List Char} : documentedClock text ↔ isClock text ∧ Ascii text := by
  constructor
  · intro documented
    unfold documentedClock at documented
    split at documented
    next h o m i =>
      split at documented
      next h' o' m' i' first second third fourth =>
        simp only [decide_eq_true_eq] at documented
        have below := ascii?_eq_some.mp second
        have hour : (h = '0' ∨ h = '1') ∧ isDecimal o ∨ h = '2' ∧ o ∈ ['0', '1', '2', '3'] := by
          rw [eq_of_ascii? first]
          have tens : h' = 0 ∨ h' = 1 ∨ h' = 2 ∧ o' ≤ 3 := by omega
          rcases tens with rfl | rfl | ⟨rfl, small⟩
          · exact .inl ⟨.inl rfl, (ascii?_plain second).2⟩
          · exact .inl ⟨.inr rfl, (ascii?_plain second).2⟩
          · refine .inr ⟨rfl, ?_⟩
            rw [eq_of_ascii? second]
            have ones : ∀ value ≤ 3, Char.ofNat (48 + value) ∈ ['0', '1', '2', '3'] := by decide
            exact ones o' small
        have tens : m ∈ ['0', '1', '2', '3', '4', '5'] := by
          rw [eq_of_ascii? third]
          have tens : ∀ value ≤ 5, Char.ofNat (48 + value) ∈ ['0', '1', '2', '3', '4', '5'] := by decide
          exact tens m' (by omega)
        refine ⟨?_, ?_⟩
        · simp only [isClock, decide_eq_true_eq]
          exact ⟨hour, tens, (ascii?_plain fourth).2⟩
        · simp only [Ascii, List.forall_mem_cons, List.not_mem_nil, false_implies, implies_true, and_true]
          exact ⟨(ascii?_plain first).1, (ascii?_plain second).1, by decide, (ascii?_plain third).1, (ascii?_plain fourth).1⟩
      next => cases documented
    next => cases documented
  · rintro ⟨clock, plain⟩
    unfold isClock at clock
    split at clock
    next h o m i =>
      simp only [decide_eq_true_eq] at clock
      obtain ⟨hour, tens, decimal⟩ := clock
      obtain ⟨i', fourth⟩ := isDecimal_ascii decimal (plain i (by simp))
      have minutes : ∃ m', ascii? m = some m' ∧ m' ≤ 5 := by
        simp only [List.mem_cons, List.not_mem_nil, or_false] at tens
        rcases tens with rfl | rfl | rfl | rfl | rfl | rfl <;> exact ⟨_, rfl, by decide⟩
      have hours : ∃ h' o', ascii? h = some h' ∧ ascii? o = some o' ∧ h' * 10 + o' ≤ 23 := by
        rcases hour with ⟨first, decimal⟩ | ⟨rfl, second⟩
        · obtain ⟨o', second⟩ := isDecimal_ascii decimal (plain o (by simp))
          have below := ascii?_eq_some.mp second
          rcases first with rfl | rfl
          · exact ⟨0, o', rfl, second, by omega⟩
          · exact ⟨1, o', rfl, second, by omega⟩
        · simp only [List.mem_cons, List.not_mem_nil, or_false] at second
          rcases second with rfl | rfl | rfl | rfl <;> exact ⟨_, _, rfl, rfl, by decide⟩
      obtain ⟨m', third, below⟩ := minutes
      obtain ⟨h', o', first, second, early⟩ := hours
      have ones := ascii?_eq_some.mp fourth
      simp only [documentedClock, first, second, third, fourth, decide_eq_true_eq]
      omega
    next => cases clock

theorem isClock_length {text : List Char} (clock : isClock text) : text.length = 5 ∧ ':' ∈ text := by
  unfold isClock at clock
  split at clock
  next => simp
  next => cases clock

/-- The pattern takes the documented texts and the loose ones. -/
theorem isValidHhmm_iff {text : String} : isValidHhmm text ↔ documentedClock text.toList ∨ LooseClock text.toList := by
  rw [documentedClock_iff, isValidHhmm, LooseClock, Bool.or_eq_true, Bool.and_eq_true, decide_eq_true_eq]
  tauto

theorem documented_not_loose {text : List Char} (documented : documentedClock text) : ¬ LooseClock text := by
  obtain ⟨clock, plain⟩ := documentedClock_iff.mp documented
  rintro (⟨-, wide⟩ | ⟨-, clock'⟩)
  · exact wide plain
  · have := (isClock_length clock).1
    have := (isClock_length clock').1
    rw [List.length_dropLast] at this
    omega

theorem colon_not_blank {text : List Char} (mark : ':' ∈ text) : ¬ text.all isSpace := by
  intro blank
  have space := List.all_eq_true.mp blank ':' mark
  revert space
  decide

theorem loose_not_blank {text : List Char} (loose : LooseClock text) : ¬ text.all isSpace := by
  apply colon_not_blank
  rcases loose with ⟨clock, -⟩ | ⟨-, clock⟩
  · exact (isClock_length clock).2
  · exact text.dropLast_subset (isClock_length clock).2

/-- The reading of a text is the documented one unless the text is loose. -/
theorem normalizeHhmmOrNone_iff (value : Option String) :
    (normalizeHhmmOrNone value).map (·.map ClockTime.text) = documentedTime value ↔ ∀ text ∈ value, ¬ LooseClock text.toList := by
  cases value with
  | none => simp [normalizeHhmmOrNone, documentedTime]
  | some text =>
    simp only [normalizeHhmmOrNone, documentedTime, Option.mem_def, Option.some.injEq, forall_eq']
    by_cases blank : text.toList.all isSpace
    · simp only [if_pos blank]
      exact iff_of_true rfl fun loose => loose_not_blank loose blank
    · simp only [if_neg blank]
      by_cases documented : documentedClock text.toList
      · have valid : isValidHhmm text := isValidHhmm_iff.mpr (.inl documented)
        rw [dif_pos valid, if_pos documented]
        exact iff_of_true rfl (documented_not_loose documented)
      · rw [if_neg documented]
        by_cases valid : isValidHhmm text
        · have loose := (isValidHhmm_iff.mp valid).resolve_left documented
          rw [dif_pos valid]
          exact iff_of_false (by simp) (not_not.mpr loose)
        · rw [dif_neg valid]
          exact iff_of_true rfl fun loose => valid (isValidHhmm_iff.mpr (.inr loose))

end Grammar

section Order
variable {arrival departure : ClockTime}

/-- The four digits of a clock text, whatever script they are in. -/
def digitValues (text : List Char) : List Nat :=
  [0, 1, 3, 4].map fun index => ((text[index]?).bind decimal?).getD 0

/-- Minutes go by the values of the digits, one after another. -/
theorem minutes_lt_iff : arrival.minutes < departure.minutes ↔
    digitValues arrival.text.toList < digitValues departure.text.toList := by
  obtain ⟨h, o, m, i, rest, same, hour, minute⟩ := clockTime_shape arrival
  obtain ⟨h', o', m', i', rest', same', hour', minute'⟩ := clockTime_shape departure
  have := digit_le o
  have := digit_le o'
  have := digit_le i
  have := digit_le i'
  simp only [ClockTime.minutes, digitValues, same, same', List.map_cons, List.map_nil, List.getElem?_cons_zero,
    List.getElem?_cons_succ, Option.bind_some, List.cons_lt_cons_iff, List.not_lt_nil, and_false, or_false]
  omega

/-- Among documented texts the order of the characters is the order of the digits. -/
theorem digits_lt_of_text {text text' : List Char} (documented : documentedClock text) (documented' : documentedClock text')
    (below : text < text') : digitValues text < digitValues text' := by
  have digit {c : Char} {value : Nat} (read : ascii? c = some value) : decimal? c = some value ∧ c.toNat = 48 + value :=
    ⟨(decimal?_ascii (ascii?_plain read).1).trans read, (ascii?_eq_some.mp read).1⟩
  have order {c c' : Char} : c < c' ↔ c.toNat < c'.toNat := UInt32.lt_iff_toNat_lt
  unfold documentedClock at documented documented'
  split at documented
  next h o m i =>
    split at documented'
    next h' o' m' i' =>
      split at documented
      next _ _ _ _ first second third fourth =>
        split at documented'
        next _ _ _ _ first' second' third' fourth' =>
          simp only [List.cons_lt_cons_iff, List.not_lt_nil, order, ← Char.toNat_inj, and_false, or_false] at below
          simp only [digitValues, List.map_cons, List.map_nil, List.getElem?_cons_zero, List.getElem?_cons_succ, Option.bind_some,
            (digit first).1, (digit second).1, (digit third).1, (digit fourth).1, (digit first').1, (digit second').1,
            (digit third').1, (digit fourth').1, Option.getD_some, List.cons_lt_cons_iff, List.not_lt_nil, and_false, or_false]
          have := (digit first).2
          have := (digit second).2
          have := (digit third).2
          have := (digit fourth).2
          have := (digit first').2
          have := (digit second').2
          have := (digit third').2
          have := (digit fourth').2
          omega
        next => cases documented'
      next => cases documented
    next => cases documented'
  next => cases documented

end Order

section Stored
variable {zone : Zone} {clock : Clock} {db next : Db} {body : ShiftPlanUpsertIn} {plan : ShiftPlan}

/-- The interval of a row with both times is as long as the times say, and no less than a minute. -/
def IntervalExact (plan : ShiftPlan) : Prop :=
  ∀ arrival ∈ plan.arrivalTime, ∀ departure ∈ plan.departureTime, ∃ interval, shiftPlanInterval plan = some interval ∧
    interval.minutes = departure.minutes - arrival.minutes ∧ 0 < interval.minutes

theorem intervalExact_iff {arrival departure : ClockTime} (starts : plan.arrivalTime = some arrival)
    (ends : plan.departureTime = some departure) : IntervalExact plan ↔ arrival.minutes < departure.minutes := by
  simp only [IntervalExact, starts, ends, Option.mem_def, Option.some.injEq, forall_eq', shiftPlanInterval]
  by_cases late : midnight plan.date + departure.minutes * minute ≤ midnight plan.date + arrival.minutes * minute
  · rw [if_pos late]
    refine iff_of_false (by simp) ?_
    simp only [minute] at late
    omega
  · rw [if_neg late]
    simp only [Option.some.injEq, exists_eq_left', WorkInterval.minutes]
    simp only [minute] at late ⊢
    omega

/-- A successful upsert through either interface. -/
inductive Upserted (zone : Zone) (clock : Clock) (db : Db) (body : ShiftPlanUpsertIn) (next : Db) : Prop
  | portal (auth : PortalUserAuth) (done : Portal.upsertShiftPlan zone clock db auth body = .ok next)
  | admin (done : Admin.upsertShiftPlanImpl zone clock db body = .ok next)

/-- The row of the day after a write. -/
theorem planWrite_row {employment : Employment} {date : Int} {arrival departure : Option ClockTime} {status : Option DayStatus}
    {instanceId : Option String} (written : planWrite zone db employment date arrival departure status instanceId = .ok next)
    (stored : next.shiftPlans.get (employment.id, date) = some plan) :
    plan = ⟨employment.id, date, arrival, departure, status, instanceId⟩ := by
  by_cases empty : arrival = none ∧ departure = none ∧ status = none
  · rw [planWrite, if_pos empty] at written
    cases existing : getShiftPlanDay db employment.id date with
    | none =>
      rw [existing, pure_eq_ok] at written
      rw [← written] at stored
      cases existing.symm.trans stored
    | some other =>
      rw [existing] at written
      simp only [bind_eq_ok, pure_eq_ok] at written
      obtain ⟨synced, done, rfl⟩ := written
      obtain ⟨-, owner, today⟩ := getShiftPlanDay_date existing
      have key : other.key = (employment.id, date) := Prod.ext owner today
      obtain ⟨-, kept⟩ := synced_tables done (Eq.refl (commit zone synced))
      rw [kept, deletePlan, Table.get_deleteKey, if_pos key] at stored
      cases stored
  · simp only [planWrite, if_neg empty, flushPlan, bind_eq_ok, raiseIf_eq_ok, pure_eq_ok] at written
    obtain ⟨_, ⟨_, -, rfl⟩, synced, done, rfl⟩ := written
    obtain ⟨-, kept⟩ := synced_tables done (Eq.refl (commit zone synced))
    rw [kept] at stored
    exact (Option.some.inj (stored.symm.trans (Table.get_put_self _ rfl)))

/-- A row that an upsert leaves with both times has the times of the body, in the order of their texts. -/
theorem Upserted.texts (upserted : Upserted zone clock db body next) {date : Int} (named : parseYyyyMmDd body.date = some date)
    (stored : next.shiftPlans.get (body.employmentId, date) = some plan) {arrival departure : ClockTime}
    (starts : plan.arrivalTime = some arrival) (ends : plan.departureTime = some departure) :
    parseHhmmOrNone body.arrivalTime = some (some arrival) ∧ parseHhmmOrNone body.departureTime = some (some departure) ∧
      arrival.text < departure.text := by
  have accepted : ∃ employment day times status instanceId, db.employments.get body.employmentId = some employment ∧
      PlanRequest db employment body day times status ∧
      planWrite zone db employment day times.1 times.2 status instanceId = .ok next := by
    cases upserted with
    | portal auth done =>
      obtain ⟨employment, day, times, status, found, -, request, written⟩ := portalPlan_request done
      exact ⟨employment, day, times, status, _, found, request, written⟩
    | admin done =>
      obtain ⟨employment, day, times, status, found, -, request, written⟩ := adminPlan_request done
      exact ⟨employment, day, times, status, _, found, request, written⟩
  obtain ⟨employment, day, times, status, instanceId, found, request, written⟩ := accepted
  obtain rfl : day = date := Option.some.inj (request.parsed.symm.trans named)
  rw [← (employment_again found).2.1] at stored
  obtain rfl := planWrite_row written stored
  obtain ⟨first, second, read, read', below, planned⟩ := request.planned
  -- Under a status there are no times to store, so these are the times of the body.
  have kept : times = (first, second) := by
    cases status with
    | some status =>
      simp only [Portal.plannedTimes, bind_eq_ok, pure_eq_ok] at planned
      obtain ⟨-, -, -, -, -, -, rfl⟩ := planned
      cases starts
    | none =>
      cases blocked : getDayStatus db employment.id day with
      | none =>
        simp only [Portal.plannedTimes, blocked, pure_eq_ok] at planned
        exact planned.symm
      | some other =>
        simp only [Portal.plannedTimes, blocked, bind_eq_ok, pure_eq_ok] at planned
        obtain ⟨-, -, rfl⟩ := planned
        rfl
  subst kept
  dsimp only at starts ends
  subst starts ends
  refine ⟨read, read', ?_⟩
  simp only [shiftMustEndSameDay, Option.mem_def, Option.some.injEq, exists_eq_left', String.not_le] at below
  exact below

theorem parseHhmmOrNone_text {value : Option String} {time : ClockTime} (read : parseHhmmOrNone value = some (some time)) :
    value = some time.text := by
  unfold parseHhmmOrNone normalizeHhmmOrNone at read
  split at read
  · cases read
  · split at read
    · cases read
    · split at read
      · cases read
        rfl
      · cases read

/-- Clock texts are read as documented but for the loose ones, and a row that an upsert leaves with both
times has its interval when their digits are in order, as they are in documented texts. -/
theorem plan_texts_read (value : Option String) (zone : Zone) (clock : Clock) (db next : Db) (body : ShiftPlanUpsertIn)
    (date : Int) (plan : ShiftPlan) :
    ((normalizeHhmmOrNone value).map (·.map ClockTime.text) = documentedTime value ↔
      ∀ text ∈ value, ¬ LooseClock text.toList) ∧
    (Upserted zone clock db body next → parseYyyyMmDd body.date = some date →
      next.shiftPlans.get (body.employmentId, date) = some plan → plan.arrivalTime.isSome → plan.departureTime.isSome →
      (IntervalExact plan ↔ ∀ arrival ∈ body.arrivalTime, ∀ departure ∈ body.departureTime,
        digitValues arrival.toList < digitValues departure.toList) ∧
      ((∀ text ∈ body.arrivalTime, ¬ LooseClock text.toList) → (∀ text ∈ body.departureTime, ¬ LooseClock text.toList) →
        IntervalExact plan)) := by
  refine ⟨normalizeHhmmOrNone_iff value, ?_⟩
  intro upserted named stored hasArrival hasDeparture
  obtain ⟨arrival, starts⟩ := Option.isSome_iff_exists.mp hasArrival
  obtain ⟨departure, ends⟩ := Option.isSome_iff_exists.mp hasDeparture
  obtain ⟨read, read', below⟩ := upserted.texts named stored starts ends
  rw [intervalExact_iff starts ends, minutes_lt_iff, parseHhmmOrNone_text read, parseHhmmOrNone_text read']
  simp only [Option.mem_def, Option.some.injEq, forall_eq']
  refine ⟨trivial, ?_⟩
  intro plain plain'
  have documented := (isValidHhmm_iff.mp arrival.valid).resolve_right plain
  have documented' := (isValidHhmm_iff.mp departure.valid).resolve_right plain'
  exact digits_lt_of_text documented documented' (String.lt_iff_toList_lt.mp below)

end Stored

section Sample

/-- The row that a request of the sample user leaves on the sixth of August. -/
def storedPlan (body : ShiftPlanUpsertIn) : Option ShiftPlan :=
  (Portal.upsertShiftPlan sampleZone sampleClock sampleDb ⟨1, "portal"⟩ body).toOption.bind (·.shiftPlans.get (1, 739834))

theorem storedPlan_upserted {body : ShiftPlanUpsertIn} {p : ShiftPlan → Bool} (stored : (storedPlan body).any p) :
    ∃ next plan, Upserted sampleZone sampleClock sampleDb body next ∧ next.shiftPlans.get (1, 739834) = some plan ∧ p plan := by
  unfold storedPlan at stored
  cases done : Portal.upsertShiftPlan sampleZone sampleClock sampleDb ⟨1, "portal"⟩ body with
  | error raised =>
    rw [done] at stored
    cases stored
  | ok next =>
    rw [done] at stored
    obtain ⟨plan, found, holds⟩ := (Option.any_eq_true _ _).mp stored
    exact ⟨next, plan, .portal ⟨1, "portal"⟩ done, found, holds⟩

theorem sample_plan_texts_read : ∃ next plan, Upserted sampleZone sampleClock sampleDb samplePlan next ∧
    next.shiftPlans.get (1, 739834) = some plan ∧ IntervalExact plan := by
  obtain ⟨next, plan, upserted, stored, times⟩ := @storedPlan_upserted samplePlan
    (fun plan => plan.arrivalTime.isSome && plan.departureTime.isSome) (by decide)
  obtain ⟨hasArrival, hasDeparture⟩ := Bool.and_eq_true_iff.mp times
  exact ⟨next, plan, upserted, stored,
    ((plan_texts_read none _ _ _ _ samplePlan 739834 plan).2 upserted (by decide) stored hasArrival hasDeparture).2
      (by decide) (by decide)⟩

/-- A departure whose last digit is the Arabic zero: later as a text, and earlier as a time. -/
def loosePlan : ShiftPlanUpsertIn := ⟨1, "2026-08-06", some "08:09", some "08:0٠", none, false⟩

theorem loose_texts_accepted :
    (normalizeHhmmOrNone (some "12:30\n")).map (·.map ClockTime.text) = some (some "12:30\n") ∧
    documentedTime (some "12:30\n") = none ∧
    ∃ next plan, Upserted sampleZone sampleClock sampleDb loosePlan next ∧ next.shiftPlans.get (1, 739834) = some plan ∧
      plan.arrivalTime.isSome ∧ plan.departureTime.isSome ∧ ¬ IntervalExact plan := by
  refine ⟨by decide, by decide, ?_⟩
  obtain ⟨next, plan, upserted, stored, times⟩ := @storedPlan_upserted loosePlan
    (fun plan => plan.arrivalTime.any fun arrival : ClockTime => plan.departureTime.any fun departure : ClockTime =>
      decide (departure.minutes < arrival.minutes)) (by decide)
  obtain ⟨arrival, starts, times⟩ := (Option.any_eq_true _ _).mp times
  obtain ⟨departure, ends, below⟩ := (Option.any_eq_true _ _).mp times
  refine ⟨next, plan, upserted, stored, by rw [starts]; rfl, by rw [ends]; rfl, ?_⟩
  rw [intervalExact_iff starts ends]
  exact (of_decide_eq_true below).not_gt

end Sample

end Dagmar.Proofs
