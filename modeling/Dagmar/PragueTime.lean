import Dagmar.Library.Calendar
import Mathlib.Tactic.SplitIfs

/-! Prague wall-clock time. Wall times and instants are counted in microseconds
from the midnight that begins day 0 of the calendar. Two datetimes in the Prague
zone are compared by wall time alone, while the database stores the instant. -/

namespace Dagmar
open Library.Calendar

def minute : Int := 60000000
def day : Int := 86400000000

def dateOf (wall : Int) : Int := wall / day
def midnight (date : Int) : Int := date * day

/-- `ZoneInfo("Europe/Prague")`: the wall time of an instant, and the instant of a
wall time read with `fold=0`. A wall time the clock skipped is read with the
offset before the change, so it comes back later than it went in; one that the clock
shows comes back as itself. The one change of a Prague clock that reached midnight is
the one of 30 April 1916. -/
structure Zone where
  toWall : Int → Int
  toUtc : Int → Int
  near : ∀ instant, instant - day < toWall instant ∧ toWall instant < instant + day
  days : ∀ instant date, dateOf (toWall instant) = date ↔
    toUtc (midnight date) ≤ instant ∧ instant < toUtc (midnight (date + 1))
  forward : ∀ wall, dateOf wall ≤ dateOf (toWall (toUtc wall))
  sameDay : ∀ wall, ordinal 1917 1 1 ≤ dateOf wall → dateOf (toWall (toUtc wall)) = dateOf wall
  early : ∀ wall, dateOf wall < ordinal 1917 1 1 → dateOf (toWall (toUtc wall)) < ordinal 1917 1 1
  shown : ∀ instant, toWall (toUtc (toWall instant)) = toWall instant
  midnights : ∀ first last, first ≤ last → toUtc (midnight first) ≤ toUtc (midnight last)

/-- An aware datetime in the Prague zone. -/
structure Timestamp where
  wall : Int
  utc : Int
deriving DecidableEq, Repr

namespace Zone
variable (zone : Zone)

/-- A stored instant, as it is read back. -/
def load (utc : Int) : Timestamp := ⟨zone.toWall utc, utc⟩

/-- A wall time given without an offset, or computed by adding to a datetime. -/
def attach (wall : Int) : Timestamp := ⟨wall, zone.toUtc wall⟩

/-- The timestamp is read back as it was written. -/
def Settled (time : Timestamp) : Prop := zone.toWall time.utc = time.wall

instance (time : Timestamp) : Decidable (zone.Settled time) := inferInstanceAs (Decidable (_ = _))

/-- The timestamp is read back on the day it was written for. -/
def KeepsDay (time : Timestamp) : Prop := dateOf (zone.toWall time.utc) = dateOf time.wall

instance (time : Timestamp) : Decidable (zone.KeepsDay time) := inferInstanceAs (Decidable (_ = _))

end Zone

def Timestamp.date (time : Timestamp) : Int := dateOf time.wall

/-- A datetime of a request body, with or without an offset. -/
inductive RequestTime where
  | naive (wall : Int)
  | aware (utc : Int)
deriving DecidableEq, Repr

/-- `prague_now`. -/
def pragueNow (zone : Zone) : RequestTime → Timestamp
  | .naive wall => zone.attach wall
  | .aware utc => zone.load utc

/-- What the system clock reads; it counts from 1970. -/
structure Clock where
  instant : Int
  sinceEpoch : midnight (ordinal 1970 1 1) ≤ instant

def Clock.now (zone : Zone) (clock : Clock) : Timestamp := zone.load clock.instant

/-- `prague_today`. -/
def pragueToday (zone : Zone) (clock : Clock) : Int := (clock.now zone).date

theorem midnight_le_iff (date wall : Int) : midnight date ≤ wall ↔ date ≤ dateOf wall := by
  simp only [midnight, dateOf, day]
  omega

theorem lt_midnight_iff (date wall : Int) : wall < midnight date ↔ dateOf wall < date := by
  simp only [midnight, dateOf, day]
  omega

theorem Zone.Settled.keepsDay {zone : Zone} {time : Timestamp} (settled : zone.Settled time) : zone.KeepsDay time := by
  rw [Zone.KeepsDay, settled]

theorem today_after_1917 (zone : Zone) (clock : Clock) : ordinal 1917 1 1 ≤ pragueToday zone clock := by
  have since := clock.sinceEpoch
  have close := (zone.near clock.instant).1
  rw [pragueToday, Timestamp.date, ← midnight_le_iff]
  simp only [Clock.now, Zone.load]
  have years : midnight (ordinal 1917 1 1) + day ≤ midnight (ordinal 1970 1 1) := by decide
  omega

section Spring
variable (change before after : Int)

/-- A zone whose clock goes forward once, at the instant `change`. -/
def springWall (instant : Int) : Int := if instant < change then instant + before else instant + after

def springUtc (wall : Int) : Int := if wall < change + after then wall - before else wall - after

end Spring

/-- The change of 29 March 2026: 02:00 becomes 03:00. -/
def march2026 : Int := midnight (ordinal 2026 3 29) + 60 * minute

/-- The change of 30 April 1916: 23:00 becomes midnight. -/
def april1916 : Int := midnight (ordinal 1916 4 30) + 22 * 60 * minute

/-- In 2026 the clock changes at night. -/
theorem march2026_evening : (march2026 + 60 * minute) % day < 22 * 60 * minute ∨ march2026 = april1916 := .inl (by decide)

private theorem april1916_eq : april1916 = 699559 * day + 22 * 60 * minute := by decide

/-- Prague around one spring change that takes the clock from UTC+1 to UTC+2. -/
def pragueSpring (change : Int)
    (evening : (change + 60 * minute) % day < 22 * 60 * minute ∨ change = april1916) : Zone where
  toWall := springWall change (60 * minute) (120 * minute)
  toUtc := springUtc change (60 * minute) (120 * minute)
  near instant := by
    simp only [springWall, minute, day]
    split_ifs <;> omega
  days instant date := by
    rw [april1916_eq] at evening
    simp only [springWall, springUtc, dateOf, midnight, minute, day] at evening ⊢
    split_ifs <;> omega
  forward wall := by
    simp only [springWall, springUtc, dateOf, minute, day]
    split_ifs <;> omega
  sameDay wall later := by
    have first : ordinal 1917 1 1 = 699805 := by decide
    rw [april1916_eq] at evening
    simp only [springWall, springUtc, dateOf, minute, day, first] at evening later ⊢
    split_ifs <;> omega
  early wall earlier := by
    have first : ordinal 1917 1 1 = 699805 := by decide
    rw [april1916_eq] at evening
    simp only [springWall, springUtc, dateOf, minute, day, first] at evening earlier ⊢
    split_ifs <;> omega
  shown instant := by
    simp only [springWall, springUtc, minute]
    split_ifs <;> omega
  midnights first last below := by
    simp only [springUtc, midnight, minute, day]
    split_ifs <;> omega

end Dagmar
