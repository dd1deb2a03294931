import Dagmar.Access

/-! Reminders of missing arrivals and departures. One run decides from the clock
what is due, and every mail is recorded in a transaction of its own before the next
one. -/

namespace Dagmar
open Library

section Due

def arrivalReminder : String := "missing_arrival"
def sameDayDepartureReminder : String := "missing_departure_after_shift"
def previousDayDepartureReminder : String := "missing_departure_previous_day"
def arrivalSubject : String := "Nemas zapsany prichod"
def departureSubject : String := "Jsi jeste v praci? Nemas zapsan odchod"

structure Mail where
  toEmail : String
  subject : String
  body : String
deriving DecidableEq

/-- A mail with the row that records it. -/
structure Reminder where
  row : AttendanceReminderEvent
  mail : Mail
deriving DecidableEq

/-- The columns of users that only the reminders read. -/
structure Accounts where
  isEmployee : Int → Bool
  email : Int → String

/-- Both times are in the Prague zone, so they are subtracted by wall time. -/
def scheduledAttemptCount (now firstAt intervalMinutes maxAttempts : Int) : Int :=
  if now < firstAt then 0
  else
    let elapsedMinutes := (now - firstAt) / minute
    min maxAttempts (elapsedMinutes / intervalMinutes + 1)

def combinePrague (date hour minutes : Int) : Int := midnight date + (hour * 60 + minutes) * minute

def combinePragueHhmm (date : Int) (time : ClockTime) : Int := midnight date + time.minutes * minute

/-- One reminder for each attempt that is due. -/
def attemptsDue (current : Timestamp) (employmentId date : Int) (reminderType : String) (firstAt : Int) (mail : Mail) :
    List Reminder :=
  (List.range (scheduledAttemptCount current.wall firstAt 10 5).toNat).map fun i : Nat =>
    ⟨⟨employmentId, date, reminderType, (i : Int) + 1⟩, mail⟩

def arrivalAttempts (current : Timestamp) (plan : Option ShiftPlan) (todayCount : Nat) (employmentId : Int) (email : String) :
    List Reminder :=
  match plan.bind ShiftPlan.arrivalTime with
  | some arrivalTime =>
    if todayCount = 0 then
      attemptsDue current employmentId current.date arrivalReminder
        (combinePragueHhmm current.date arrivalTime + 5 * minute)
        ⟨email, arrivalSubject, "Nemas zapsany prichod.\n\nProsim zkontroluj dnesni dochazku."⟩
    else []
  | none => []

def sameDayAttempts (current : Timestamp) (plan : Option ShiftPlan) (todayCount : Nat) (employmentId : Int) (email : String) :
    List Reminder :=
  match plan.bind ShiftPlan.departureTime with
  | some departureTime =>
    if todayCount % 2 = 1 then
      attemptsDue current employmentId current.date sameDayDepartureReminder
        (combinePragueHhmm current.date departureTime + 120 * minute)
        ⟨email, departureSubject, "Mas naplanovane ukonceni smeny, ale stale nemas zapsan odchod.\n\n" ++
          "Jsi jeste v praci, nebo jsi jen zapomnel zapsat odchod? Prosim zkontroluj dnesni dochazku."⟩
    else []
  | none => []

def previousDayAttempts (current : Timestamp) (yesterdayCount : Nat) (employmentId : Int) (email : String) : List Reminder :=
  if yesterdayCount % 2 = 1 then
    attemptsDue current employmentId (current.date - 1) previousDayDepartureReminder (combinePrague current.date 8 0)
      ⟨email, departureSubject, "Vcera mas zapsan prichod bez odchodu.\n\n" ++
        "Nezapomnel(a) jsi dopsat vcerejsi odchod z prace? Prosim zkontroluj dochazku za predchozi den."⟩
  else []

variable (zone : Zone)

/-- The events of one employment on one day, among those between two midnights. -/
def eventCount (db : Db) (today employmentId date : Int) : Nat :=
  ((db.eventsOf employmentId).filter fun event =>
    (zone.attach (midnight (today - 1))).utc ≤ event.occurredAt.utc ∧
      event.occurredAt.utc < (zone.attach (midnight (today + 1))).utc ∧
      (zone.load event.occurredAt.utc).date = date).length

def eligibleEmployments (db : Db) (accounts : Accounts) (today : Int) : List Employment :=
  (db.users.select fun user => user.isActive ∧ accounts.isEmployee user.id).flatMap fun user =>
    db.employments.select fun employment => employment.userId = user.id ∧ employmentIsValidOnDay employment today

/-- What a run sends when nothing has been sent yet. -/
def remindersDue (db : Db) (accounts : Accounts) (current : Timestamp) : List Reminder :=
  (eligibleEmployments db accounts current.date).flatMap fun employment =>
    let plan := db.shiftPlans.get (employment.id, current.date)
    let todayCount := eventCount zone db current.date employment.id current.date
    let yesterdayCount := eventCount zone db current.date employment.id (current.date - 1)
    let email := accounts.email employment.userId
    arrivalAttempts current plan todayCount employment.id email ++
      (sameDayAttempts current plan todayCount employment.id email ++
        previousDayAttempts current yesterdayCount employment.id email)

end Due

section Sending

/-- The rows of a run so far, the keys it does not send again, how often it has called the sender and
what the sender has accepted. -/
structure Outbox where
  rows : Table AttendanceReminderEvent AttendanceReminderEvent.key
  alreadySent : List (Int × Int × String × Int)
  calls : Nat
  delivered : List Reminder

def alreadySentKeys (db : Db) (date : Int) : List (Int × Int × String × Int) :=
  (db.reminders.select (·.attendanceDate = date)).map AttendanceReminderEvent.key

/-- The loop over what is due; `sender` says of each call whether it returns. A run that raises stops
where it is and keeps what it has committed. -/
def sendReminders (sender : Nat → Bool) : List Reminder → Outbox → Outbox × Bool
  | [], outbox => (outbox, true)
  | reminder :: rest, outbox =>
    if reminder.row.key ∈ outbox.alreadySent then sendReminders sender rest outbox
    else if sender outbox.calls then
      match outbox.rows.insertAll [reminder.row] with
      | some rows =>
        sendReminders sender rest ⟨rows, reminder.row.key :: outbox.alreadySent, outbox.calls + 1, outbox.delivered ++ [reminder]⟩
      | none => ({ outbox with calls := outbox.calls + 1, delivered := outbox.delivered ++ [reminder] }, false)
    else ({ outbox with calls := outbox.calls + 1 }, false)

structure ReminderRun where
  db : Db
  delivered : List Reminder
  /-- `none` is a raise. -/
  answer : Option Nat

/-- `process_attendance_reminders`; without a sender, SMTP is not set up and the run raises. -/
def processAttendanceReminders (zone : Zone) (accounts : Accounts) (now : RequestTime) (sender : Option (Nat → Bool)) (db : Db) :
    ReminderRun :=
  let current := pragueNow zone now
  match sender with
  | none => ⟨db, [], none⟩
  | some sender =>
    let alreadySent := alreadySentKeys db current.date ++ alreadySentKeys db (current.date - 1)
    let (outbox, finished) :=
      sendReminders sender (remindersDue zone db accounts current) ⟨db.reminders, alreadySent, 0, []⟩
    ⟨{ db with reminders := outbox.rows }, outbox.delivered, if finished then some outbox.delivered.length else none⟩

end Sending

section Runs

/-- A mail that was sent, with what its run found. -/
structure Sent where
  reminder : Reminder
  db : Db
  current : Timestamp

structure ReminderLog where
  db : Db
  sent : List Sent

/-- Between two runs anything but the record of the reminders may change. -/
inductive Reminds (zone : Zone) : ReminderLog → ReminderLog → Prop where
  | edit {log : ReminderLog} (next : Db) (recorded : next.reminders = log.db.reminders) : Reminds zone log { log with db := next }
  | run {log : ReminderLog} (accounts : Accounts) (now : RequestTime) (sender : Option (Nat → Bool)) :
      Reminds zone log
        ⟨(processAttendanceReminders zone accounts now sender log.db).db,
          log.sent ++ (processAttendanceReminders zone accounts now sender log.db).delivered.map
            (⟨·, log.db, pragueNow zone now⟩)⟩

end Runs

end Dagmar
