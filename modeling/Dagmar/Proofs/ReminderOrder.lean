import Dagmar.Library.Attempts
import Dagmar.Reminders
import Mathlib.Logic.Relation

/-! No reminder is sent twice, before its time, or before the ones that precede it. -/

namespace Dagmar.Reminders.Proofs
open Library

abbrev ReminderKey := Int × Int × String × Int

/-- An attempt in the stream of an employment, a date and a type. -/
def attempt (key : ReminderKey) : (Int × Int × String) × Int := ((key.1, key.2.1, key.2.2.1), key.2.2.2)

theorem attempt_inj {first second : ReminderKey} (same : attempt first = attempt second) : first = second := by
  obtain ⟨employmentId, date, type, n⟩ := first
  cases same
  rfl

def Sent.key (sent : Sent) : ReminderKey := sent.reminder.row.key

section FirstTimes

/-- When the first attempt is due, by the plan of a database. -/
inductive FirstAt (db : Db) (today employmentId : Int) : Int → String → Int → Prop where
  | arrival {plan : ShiftPlan} {time : ClockTime} (planned : plan ∈ db.shiftPlans) (named : plan.key = (employmentId, today))
      (arrives : plan.arrivalTime = some time) :
      FirstAt db today employmentId today arrivalReminder (combinePragueHhmm today time + 5 * minute)
  | sameDay {plan : ShiftPlan} {time : ClockTime} (planned : plan ∈ db.shiftPlans) (named : plan.key = (employmentId, today))
      (departs : plan.departureTime = some time) :
      FirstAt db today employmentId today sameDayDepartureReminder (combinePragueHhmm today time + 120 * minute)
  | previousDay : FirstAt db today employmentId (today - 1) previousDayDepartureReminder (combinePrague today 8 0)

/-- The reminder is not before its time: attempt `n` comes `n - 1` times ten minutes after the first. -/
def Timely (db : Db) (current : Timestamp) (row : AttendanceReminderEvent) : Prop :=
  ∃ firstAt, FirstAt db current.date row.employmentId row.attendanceDate row.reminderType firstAt ∧
    firstAt + 10 * (row.sequenceNo - 1) * minute ≤ current.wall

theorem scheduledAttemptCount_le (now firstAt intervalMinutes maxAttempts : Int) (nonneg : 0 ≤ maxAttempts) :
    scheduledAttemptCount now firstAt intervalMinutes maxAttempts ≤ maxAttempts := by
  unfold scheduledAttemptCount
  split
  · exact nonneg
  · exact min_le_left _ _

theorem scheduledAttemptCount_due {now firstAt n : Int} (counted : n < scheduledAttemptCount now firstAt 10 5) (nonneg : 0 ≤ n) :
    firstAt + 10 * n * minute ≤ now := by
  unfold scheduledAttemptCount at counted
  simp only [minute] at counted ⊢
  split_ifs at counted <;> omega

theorem get_planned {db : Db} {employmentId date : Int} {α : Type} {column : ShiftPlan → Option α} {value : α}
    (found : (db.shiftPlans.get (employmentId, date)).bind column = some value) :
    ∃ plan ∈ db.shiftPlans, plan.key = (employmentId, date) ∧ column plan = some value := by
  obtain ⟨plan, got, read⟩ := Option.bind_eq_some_iff.mp found
  obtain ⟨member, named⟩ := Table.get_eq_some_iff.mp got
  exact ⟨plan, member, named, read⟩

/-- Nothing, or all attempts of one stream that are due. -/
def AllDue (db : Db) (current : Timestamp) (employmentId : Int) (reminders : List Reminder) : Prop :=
  reminders = [] ∨ ∃ date reminderType firstAt mail, FirstAt db current.date employmentId date reminderType firstAt ∧
    reminders = attemptsDue current employmentId date reminderType firstAt mail

variable {db : Db} {current : Timestamp} {employmentId : Int}

theorem arrivalAttempts_due (count : Nat) (email : String) :
    AllDue db current employmentId
      (arrivalAttempts current (db.shiftPlans.get (employmentId, current.date)) count employmentId email) := by
  unfold arrivalAttempts
  split
  next time found =>
    obtain ⟨plan, planned, named, arrives⟩ := get_planned found
    split
    · exact .inr ⟨_, _, _, _, .arrival planned named arrives, rfl⟩
    · exact .inl rfl
  next => exact .inl rfl

theorem sameDayAttempts_due (count : Nat) (email : String) :
    AllDue db current employmentId
      (sameDayAttempts current (db.shiftPlans.get (employmentId, current.date)) count employmentId email) := by
  unfold sameDayAttempts
  split
  next time found =>
    obtain ⟨plan, planned, named, departs⟩ := get_planned found
    split
    · exact .inr ⟨_, _, _, _, .sameDay planned named departs, rfl⟩
    · exact .inl rfl
  next => exact .inl rfl

theorem previousDayAttempts_due (count : Nat) (email : String) :
    AllDue db current employmentId (previousDayAttempts current count employmentId email) := by
  unfold previousDayAttempts
  split
  · exact .inr ⟨_, _, _, _, .previousDay, rfl⟩
  · exact .inl rfl

theorem AllDue.ladder {reminders : List Reminder} (due : AllDue db current employmentId reminders) :
    Ladder 5 (reminders.map fun reminder => attempt reminder.row.key) := by
  rcases due with rfl | ⟨date, reminderType, firstAt, mail, -, rfl⟩
  · exact .nil
  · have bounded := scheduledAttemptCount_le current.wall firstAt 10 5 (by decide)
    rw [attemptsDue, List.map_map]
    exact Ladder.range (employmentId, date, reminderType) (by omega)

theorem AllDue.timely {reminders : List Reminder} (due : AllDue db current employmentId reminders) :
    ∀ reminder ∈ reminders, Timely db current reminder.row := by
  rcases due with rfl | ⟨date, reminderType, firstAt, mail, first, rfl⟩
  · simp
  · intro reminder member
    obtain ⟨i, counted, rfl⟩ := List.mem_map.mp member
    rw [List.mem_range] at counted
    have attempted : (i : Int) < scheduledAttemptCount current.wall firstAt 10 5 := by omega
    have due := scheduledAttemptCount_due attempted (by omega)
    exact ⟨firstAt, first, by simpa using due⟩

theorem remindersDue_ladder (zone : Zone) (db : Db) (accounts : Accounts) (current : Timestamp) :
    Ladder 5 ((remindersDue zone db accounts current).map fun reminder => attempt reminder.row.key) := by
  rw [remindersDue, List.map_flatMap]
  refine Ladder.flatMap fun employment => ?_
  rw [List.map_append, List.map_append]
  refine Ladder.append ?_ (Ladder.append ?_ ?_)
  · exact (arrivalAttempts_due _ _).ladder
  · exact (sameDayAttempts_due _ _).ladder
  · have due := @previousDayAttempts_due db current employment.id
    exact (due _ _).ladder

theorem remindersDue_timely (zone : Zone) (db : Db) (accounts : Accounts) (current : Timestamp) :
    ∀ reminder ∈ remindersDue zone db accounts current, Timely db current reminder.row := by
  intro reminder member
  obtain ⟨employment, -, due⟩ := List.mem_flatMap.mp member
  simp only [List.mem_append] at due
  rcases due with arrival | departure | previous
  · exact (arrivalAttempts_due _ _).timely reminder arrival
  · exact (sameDayAttempts_due _ _).timely reminder departure
  · exact (previousDayAttempts_due _ _).timely reminder previous

theorem Timely.date {row : AttendanceReminderEvent} (timely : Timely db current row) :
    row.attendanceDate = current.date ∨ row.attendanceDate = current.date - 1 := by
  obtain ⟨firstAt, first, -⟩ := timely
  generalize row.attendanceDate = date at first ⊢
  generalize row.reminderType = type at first
  cases first with
  | arrival => exact .inl rfl
  | sameDay => exact .inl rfl
  | previousDay => exact .inr rfl

end FirstTimes

section Sending

/-- What was sent is what the table records, each once, and the attempts of every stream are in order. -/
structure Recorded (rows : Table AttendanceReminderEvent AttendanceReminderEvent.key) (sent : List ReminderKey) : Prop where
  once : sent.Nodup
  kept : ∀ key, key ∈ sent ↔ rows.get key ≠ none
  climbs : Climbs 5 {pair | ∃ key ∈ sent, attempt key = pair}

/-- The keys of some dates that a run knows are those recorded. -/
def Knows (dates : Int → Prop) (outbox : Outbox) (sent : List ReminderKey) : Prop :=
  ∀ key, dates key.2.1 → (key ∈ outbox.alreadySent ↔ key ∈ sent)

theorem Recorded.insert {rows next : Table AttendanceReminderEvent AttendanceReminderEvent.key} {sent : List ReminderKey}
    {row : AttendanceReminderEvent} (recorded : Recorded rows sent) (unsent : row.key ∉ sent)
    (inserted : rows.insertAll [row] = some next) (positive : 1 ≤ row.sequenceNo) (bounded : row.sequenceNo ≤ 5)
    (below : ∀ m, 1 ≤ m → m < row.sequenceNo → ∃ key ∈ sent, attempt key = ((attempt row.key).1, m)) :
    Recorded next (sent ++ [row.key]) := by
  refine ⟨?_, ?_, ?_⟩
  · exact List.nodup_append.mpr ⟨recorded.once, List.nodup_singleton _, by
      rintro key member other single rfl
      exact unsent (List.mem_singleton.mp single ▸ member)⟩
  · intro key
    rw [List.mem_append, List.mem_singleton, recorded.kept key, Ne, Ne, Table.get_eq_none_iff, Table.get_eq_none_iff]
    simp only [Table.mem_insertAll inserted, List.mem_singleton, not_forall, not_not]
    constructor
    · rintro (⟨other, member, same⟩ | rfl)
      · exact ⟨other, .inl member, same⟩
      · exact ⟨row, .inr rfl, rfl⟩
    · rintro ⟨other, member | rfl, same⟩
      · exact .inl ⟨other, member, same⟩
      · exact .inr same.symm
  · have grown := recorded.climbs.insert positive bounded below
    refine cast (congrArg (Climbs 5) (Set.ext fun pair => ?_)) grown
    simp only [Set.mem_insert_iff, Set.mem_ofPred_eq, List.mem_append, List.mem_singleton]
    constructor
    · rintro (rfl | ⟨key, member, same⟩)
      · exact ⟨row.key, .inr rfl, rfl⟩
      · exact ⟨key, .inl member, same⟩
    · rintro ⟨key, member | rfl, same⟩
      · exact .inr ⟨key, member, same⟩
      · exact .inl same.symm

/-- The sender accepts what is due in its order, until it raises. -/
theorem Recorded.sendReminders (sender : Nat → Bool) (sent : List ReminderKey) (dates : Int → Prop) (due : List Reminder) :
    ∀ (before : List ((Int × Int × String) × Int)) (outbox : Outbox),
      Recorded outbox.rows (sent ++ outbox.delivered.map (·.row.key)) →
      Knows dates outbox (sent ++ outbox.delivered.map (·.row.key)) →
      Ladder 5 (before ++ due.map fun reminder => attempt reminder.row.key) →
      (∀ pair ∈ before, ∃ key ∈ sent ++ outbox.delivered.map (·.row.key), attempt key = pair) →
      (∀ reminder ∈ due, dates reminder.row.attendanceDate) →
      Recorded (sendReminders sender due outbox).1.rows (sent ++ (sendReminders sender due outbox).1.delivered.map (·.row.key)) ∧
        ∀ reminder ∈ (sendReminders sender due outbox).1.delivered, reminder ∈ outbox.delivered ∨ reminder ∈ due := by
  induction due with
  | nil =>
    intro before outbox recorded _ _ _ _
    exact ⟨recorded, fun _ member => .inl member⟩
  | cons reminder due ih =>
    intro before outbox recorded knows ladder made dated
    obtain ⟨positive, bounded, below⟩ := ladder before _ _ _ rfl
    obtain ⟨today, later⟩ := List.forall_mem_cons.mp dated
    have ladder' : Ladder 5 ((before ++ [attempt reminder.row.key]) ++ due.map fun reminder => attempt reminder.row.key) := by
      rw [List.append_assoc]
      exact ladder
    unfold Dagmar.sendReminders
    split_ifs with already accepted
    · have known : reminder.row.key ∈ sent ++ outbox.delivered.map (·.row.key) := (knows _ today).mp already
      have made' : ∀ pair ∈ before ++ [attempt reminder.row.key],
          ∃ key ∈ sent ++ outbox.delivered.map (·.row.key), attempt key = pair := by
        intro pair member
        rcases List.mem_append.mp member with earlier | here
        · exact made pair earlier
        · exact ⟨_, known, (List.mem_singleton.mp here).symm⟩
      obtain ⟨kept, origin⟩ := ih _ outbox recorded knows ladder' made' later
      exact ⟨kept, fun other member => (origin other member).imp_right (List.mem_cons_of_mem _)⟩
    · have unsent : reminder.row.key ∉ sent ++ outbox.delivered.map (·.row.key) := fun known => already ((knows _ today).mpr known)
      obtain ⟨rows, inserted⟩ : ∃ rows, outbox.rows.insertAll [reminder.row] = some rows := by
        refine Table.insertAll_isSome (List.nodup_singleton _) fun row member other single same => unsent ?_
        rw [recorded.kept, ← List.mem_singleton.mp single, ← same, Table.get_of_mem member]
        simp
      have grown := recorded.insert unsent inserted positive bounded fun m one less => made _ (below m one less)
      have sentNow : sent ++ (outbox.delivered ++ [reminder]).map (·.row.key) =
          sent ++ outbox.delivered.map (·.row.key) ++ [reminder.row.key] := by simp
      have knows' : Knows dates ⟨rows, reminder.row.key :: outbox.alreadySent, outbox.calls + 1, outbox.delivered ++ [reminder]⟩
          (sent ++ outbox.delivered.map (·.row.key) ++ [reminder.row.key]) := by
        intro key date
        rw [List.mem_cons, knows key date, List.mem_append (s := sent ++ _), List.mem_singleton]
        exact or_comm
      have made' : ∀ pair ∈ before ++ [attempt reminder.row.key],
          ∃ key ∈ sent ++ outbox.delivered.map (·.row.key) ++ [reminder.row.key], attempt key = pair := by
        intro pair member
        rcases List.mem_append.mp member with earlier | here
        · obtain ⟨key, known, same⟩ := made pair earlier
          exact ⟨key, List.mem_append_left _ known, same⟩
        · exact ⟨_, List.mem_append_right _ (List.mem_singleton_self _), (List.mem_singleton.mp here).symm⟩
      rw [← sentNow] at grown knows' made'
      simp only [inserted]
      obtain ⟨kept, origin⟩ := ih _ ⟨rows, reminder.row.key :: outbox.alreadySent, outbox.calls + 1, outbox.delivered ++ [reminder]⟩
        grown knows' ladder' made' later
      refine ⟨kept, fun other member => ?_⟩
      rcases origin other member with old | new
      · rcases List.mem_append.mp old with old | here
        · exact .inl old
        · exact .inr (List.mem_singleton.mp here ▸ List.mem_cons_self)
      · exact .inr (List.mem_cons_of_mem _ new)
    · exact ⟨recorded, fun _ member => .inl member⟩

end Sending

section Runs
variable {zone : Zone}

theorem knows_alreadySent {db : Db} {sent : List ReminderKey} (recorded : Recorded db.reminders sent) (today : Int) :
    Knows (fun date => date = today ∨ date = today - 1)
      ⟨db.reminders, alreadySentKeys db today ++ alreadySentKeys db (today - 1), 0, []⟩ sent := by
  intro key date
  have named (day : Int) : key ∈ alreadySentKeys db day ↔ key.2.1 = day ∧ key ∈ sent := by
    rw [recorded.kept, Ne, Table.get_eq_none_iff, alreadySentKeys]
    simp only [List.mem_map, Table.mem_select, not_forall, not_not]
    constructor
    · rintro ⟨row, ⟨member, dated⟩, rfl⟩
      exact ⟨dated, row, member, rfl⟩
    · rintro ⟨dated, row, member, rfl⟩
      exact ⟨row, ⟨member, dated⟩, rfl⟩
  rw [List.mem_append, named, named]
  tauto

/-- What a run sends is recorded, each attempt after those before it, and in its time. -/
theorem Recorded.process {db : Db} {sent : List ReminderKey} (recorded : Recorded db.reminders sent) (accounts : Accounts)
    (now : RequestTime) (sender : Option (Nat → Bool)) :
    Recorded (processAttendanceReminders zone accounts now sender db).db.reminders
      (sent ++ (processAttendanceReminders zone accounts now sender db).delivered.map (·.row.key)) ∧
    ∀ reminder ∈ (processAttendanceReminders zone accounts now sender db).delivered,
      Timely db (pragueNow zone now) reminder.row := by
  cases sender with
  | none =>
    refine ⟨?_, by simp [processAttendanceReminders]⟩
    simpa [processAttendanceReminders] using recorded
  | some sender =>
    have timely := remindersDue_timely zone db accounts (pragueNow zone now)
    have ladder := remindersDue_ladder zone db accounts (pragueNow zone now)
    have dated := fun reminder member => (timely reminder member).date
    have knows := knows_alreadySent recorded (pragueNow zone now).date
    rw [← List.append_nil sent] at recorded knows
    obtain ⟨kept, origin⟩ := Recorded.sendReminders sender sent _ _ [] _ recorded knows ladder (by simp) dated
    exact ⟨kept, fun reminder member => timely reminder ((origin reminder member).resolve_left (by simp))⟩

/-- What the record and the history of a log keep from run to run. -/
structure Orderly (log : ReminderLog) : Prop where
  recorded : Recorded log.db.reminders (log.sent.map Sent.key)
  timely : ∀ sent ∈ log.sent, Timely sent.db sent.current sent.reminder.row

theorem Orderly.start {db : Db} (unsent : db.reminders = ∅) : Orderly ⟨db, []⟩ := by
  refine ⟨⟨List.nodup_nil, fun key => ?_, ?_⟩, by simp⟩
  · rw [unsent]
    exact iff_of_false List.not_mem_nil (not_not.mpr rfl)
  · rintro stream n ⟨key, member, -⟩
    exact absurd member List.not_mem_nil

theorem Orderly.step {log next : ReminderLog} (orderly : Orderly log) (step : Reminds zone log next) : Orderly next := by
  cases step with
  | edit next recorded =>
    refine ⟨?_, orderly.timely⟩
    rw [recorded]
    exact orderly.recorded
  | run accounts now sender =>
    obtain ⟨recorded, timely⟩ := orderly.recorded.process accounts now sender
    refine ⟨?_, ?_⟩
    · rw [List.map_append, List.map_map]
      exact recorded
    · intro sent member
      rcases List.mem_append.mp member with earlier | here
      · exact orderly.timely sent earlier
      · obtain ⟨reminder, delivered, rfl⟩ := List.mem_map.mp here
        exact timely reminder delivered

/-- Each reminder is sent at most once, the attempts of a stream are the first ones and at most five,
and none is sent before its time. The times are those of the wall clock, as the source subtracts
them; where the offset is the same they are the instants apart. -/
theorem reminders_in_order (zone : Zone) {start : Db} (unsent : start.reminders = ∅) {log : ReminderLog}
    (reached : Relation.ReflTransGen (Reminds zone) ⟨start, []⟩ log) :
    (log.sent.map Sent.key).Nodup ∧
    (∀ employmentId date reminderType, ∃ k : Int, 0 ≤ k ∧ k ≤ 5 ∧
      ∀ n, (employmentId, date, reminderType, n) ∈ log.sent.map Sent.key ↔ 1 ≤ n ∧ n ≤ k) ∧
    ∀ sent ∈ log.sent, ∃ firstAt,
      FirstAt sent.db sent.current.date sent.reminder.row.employmentId sent.reminder.row.attendanceDate
        sent.reminder.row.reminderType firstAt ∧
      firstAt + 10 * (sent.reminder.row.sequenceNo - 1) * minute ≤ sent.current.wall ∧
      (sent.current.wall - sent.current.utc = firstAt - (zone.attach firstAt).utc →
        (zone.attach firstAt).utc + 10 * (sent.reminder.row.sequenceNo - 1) * minute ≤ sent.current.utc) := by
  have orderly : Orderly log := by
    induction reached with
    | refl => exact .start unsent
    | tail _ step ih => exact ih.step step
  refine ⟨orderly.recorded.once, ?_, ?_⟩
  · intro employmentId date reminderType
    obtain ⟨k, nonneg, most, numbers⟩ := orderly.recorded.climbs.height (by decide) (employmentId, date, reminderType)
    refine ⟨k, nonneg, most, fun n => Iff.trans ?_ (numbers n)⟩
    constructor
    · exact fun member => ⟨_, member, rfl⟩
    · rintro ⟨key, member, same⟩
      have named : key = (employmentId, date, reminderType, n) := attempt_inj same
      exact named ▸ member
  · intro sent member
    obtain ⟨firstAt, first, due⟩ := orderly.timely sent member
    exact ⟨firstAt, first, due, fun offset => by omega⟩

end Runs

section Samples

/-- The tenth of August 2026. -/
def sampleDate : Int := 739838

def sampleStart : Db :=
  { Db.blank ⟨[⟨1, true, none⟩], by decide⟩ ⟨[⟨1, 1, .dppDpc, {}, 739617, none⟩], by decide⟩ 2 with
    shiftPlans := ⟨[⟨1, sampleDate, some ⟨"08:00", by decide⟩, some ⟨"16:00", by decide⟩, none, none⟩], by decide⟩ }

def sampleAccounts : Accounts := ⟨fun _ => true, fun _ => "reminder@example.test"⟩

def summer : Zone := pragueSpring march2026 march2026_evening

/-- The log after a run of the sample accounts at a time of that day. -/
def sampleRun (hour minutes : Int) (sender : Nat → Bool) (log : ReminderLog) : ReminderLog :=
  let now := RequestTime.naive (combinePrague sampleDate hour minutes)
  let run := processAttendanceReminders summer sampleAccounts now (some sender) log.db
  ⟨run.db, log.sent ++ run.delivered.map (⟨·, log.db, pragueNow summer now⟩)⟩

theorem sampleRun_step (hour minutes : Int) (sender : Nat → Bool) (log : ReminderLog) :
    Reminds summer log (sampleRun hour minutes sender log) := .run _ _ _

/-- The second mail of the run at 8:16 is refused; the one at 8:36 goes on. -/
def sampleLog : ReminderLog := sampleRun 8 36 (fun _ => true) (sampleRun 8 16 (· = 0) ⟨sampleStart, []⟩)

theorem sample_reminders_in_order :
    Relation.ReflTransGen (Reminds summer) ⟨sampleStart, []⟩ sampleLog ∧
      sampleLog.sent.map Sent.key = ([1, 2, 3, 4] : List Int).map (1, sampleDate, arrivalReminder, ·) ∧
      (sampleLog.sent.map Sent.key).Nodup := by
  have reached : Relation.ReflTransGen (Reminds summer) ⟨sampleStart, []⟩ sampleLog :=
    (Relation.ReflTransGen.single (sampleRun_step ..)).tail (sampleRun_step ..)
  have keys : sampleLog.sent.map Sent.key = ([1, 2, 3, 4] : List Int).map (1, sampleDate, arrivalReminder, ·) := by
    decide +kernel
  exact ⟨reached, keys, (reminders_in_order summer rfl reached).1⟩

end Samples

end Dagmar.Reminders.Proofs
