import Dagmar.Proofs.FailureCounts

/-! Failed logins of one principal, one after another. The failures are counted from
the first one of a window, and a failure that comes after the window opens the next
one, whatever failures lie just before it; so the count is that of the last window's
time only while nothing before the opening is needed for it. -/

namespace Dagmar.Lockout.Proofs

section Serial

/-- What is recorded, and the failures that were counted, the latest first. -/
structure Tally where
  marks : Marks
  counted : List Int

def Tally.fail (policy : Policy) (tally : Tally) (now : Int) : Tally where
  marks := recordFailedLogin policy now tally.marks
  counted := if isLocked tally.marks now then tally.counted else now :: tally.counted

/-- The failed logins at the given times, from a cleared state. -/
def tallyOf (policy : Policy) (marks : Marks) (times : List Int) : Tally :=
  times.foldl (Tally.fail policy) ⟨resetLockState marks, []⟩

/-- This failure and those counted since the last lock ended, as far as they are within the last window's time. -/
def Tally.recent (policy : Policy) (tally : Tally) (now : Int) : List Int :=
  (now :: tally.counted).filter fun time =>
    now - time ≤ policy.window ∧ ∀ lockedUntil ∈ tally.marks.lockedUntil, lockedUntil ≤ time

/-- What the policy asks of a failure. -/
structure Follows (policy : Policy) (tally : Tally) (now : Int) : Prop where
  counted : ¬ isLocked tally.marks now →
    (isLocked (tally.fail policy now).marks now ↔ policy.threshold ≤ (tally.recent policy now).length)
  held : isLocked tally.marks now → (tally.fail policy now).marks = tally.marks
  released : ∀ lockedUntil ∈ tally.marks.lockedUntil, lockedUntil ≤ now → (∀ time ∈ tally.counted, time < lockedUntil) →
    ¬ isLocked (tally.fail policy now).marks now

/-- The first failure of the window that a failure falls into. -/
def opening (policy : Policy) (now : Int) (marks : Marks) : Int :=
  if windowReset policy now marks then now else marks.firstFailedAt.getD now

/-- A window ends before the lock that was set in it, and where there are failures enough for a lock, those
of the open window are enough. -/
structure Steady (policy : Policy) (tally : Tally) (now : Int) : Prop where
  ended : ∀ lockedUntil ∈ tally.marks.lockedUntil, ∀ firstFailedAt ∈ tally.marks.firstFailedAt,
    lockedUntil ≤ now → firstFailedAt < lockedUntil → windowReset policy now tally.marks
  inside : ¬ isLocked tally.marks now → policy.threshold ≤ (tally.recent policy now).length →
    policy.threshold ≤ ((tally.recent policy now).filter (opening policy now tally.marks ≤ ·)).length

/-- What holds of the record after failures up to an instant. -/
structure Tally.Sound (policy : Policy) (tally : Tally) (now : Int) : Prop where
  before : ∀ time ∈ tally.counted, time ≤ now
  fresh : tally.marks.firstFailedAt = none → tally.counted = [] ∧ tally.marks.lockedUntil = none
  opened : ∀ firstFailedAt ∈ tally.marks.firstFailedAt, firstFailedAt ≤ now ∧
    tally.marks.failedAttempts = (tally.counted.filter (firstFailedAt ≤ ·)).length ∧
    ∀ time ∈ tally.counted, time ≤ firstFailedAt + policy.window
  locked : ∀ lockedUntil ∈ tally.marks.lockedUntil, ∀ firstFailedAt ∈ tally.marks.firstFailedAt,
    lockedUntil ≤ firstFailedAt ∨
      policy.threshold ≤ tally.marks.failedAttempts ∧ ∀ time ∈ tally.counted, time < lockedUntil

end Serial

section Steps
variable {policy : Policy} {tally : Tally} {now later : Int}

theorem fail_locked (locked : isLocked tally.marks now) : tally.fail policy now = tally := by
  rw [Tally.fail, record_of_locked locked, if_pos locked]

/-- Below the threshold no lock is set. -/
theorem record_below {marks : Marks} (free : ¬ isLocked marks now)
    (below : ¬ policy.threshold ≤ (recordFailedLogin policy now marks).failedAttempts) :
    (recordFailedLogin policy now marks).lockedUntil = marks.lockedUntil := by
  rw [recordFailedLogin, if_neg free] at below ⊢
  by_cases reset : windowReset policy now marks
  · simp only [if_pos reset] at below ⊢
    split_ifs at below ⊢ with reached
    · exact absurd reached below
    · rfl
  · simp only [if_neg reset] at below ⊢
    split_ifs at below ⊢ with reached
    · exact absurd reached below
    · rfl

/-- A failure that is counted locks exactly when the counter reaches the threshold. -/
theorem record_locks {marks : Marks} (free : ¬ isLocked marks now) (lasting : 0 < policy.lockDuration) :
    isLocked (recordFailedLogin policy now marks) now ↔
      policy.threshold ≤ (recordFailedLogin policy now marks).failedAttempts := by
  constructor
  · intro locked
    by_contra below
    rw [isLocked, record_below free below] at locked
    exact free locked
  · intro reached
    exact ⟨now + policy.lockDuration, (record_counts free).lockedUntil reached, by omega⟩

theorem unlocked_iff {marks : Marks} : ¬ isLocked marks now ↔ ∀ lockedUntil ∈ marks.lockedUntil, lockedUntil ≤ now := by
  simp [isLocked]

/-- The failures of the window that a failure falls into, itself among them, are as many as the counter says. -/
theorem Tally.Sound.counts (sound : tally.Sound policy now) (free : ¬ isLocked tally.marks later) (order : now ≤ later) :
    (recordFailedLogin policy later tally.marks).failedAttempts =
      ((later :: tally.counted).filter (opening policy later tally.marks ≤ ·)).length ∧
    opening policy later tally.marks ≤ later ∧ later ≤ opening policy later tally.marks + max 0 policy.window := by
  rw [(record_counts free).failedAttempts, opening]
  by_cases reset : windowReset policy later tally.marks
  · simp only [if_pos reset]
    refine ⟨?_, le_rfl, by omega⟩
    have none : tally.counted.filter (later ≤ ·) = [] := by
      rw [List.filter_eq_nil_iff]
      intro time member
      cases first : tally.marks.firstFailedAt with
      | none =>
        rw [(sound.fresh first).1] at member
        cases member
      | some firstFailedAt =>
        have passed := reset firstFailedAt first
        have inside := (sound.opened firstFailedAt first).2.2 time member
        simp only [decide_eq_true_eq]
        omega
    rw [List.filter_cons_of_pos (by simp), none]
    rfl
  · simp only [if_neg reset]
    simp only [windowReset, not_forall, Int.not_lt] at reset
    obtain ⟨firstFailedAt, first, inside⟩ := reset
    obtain ⟨begun, count, -⟩ := sound.opened firstFailedAt first
    have same : tally.marks.firstFailedAt.getD later = firstFailedAt := by
      rw [Option.mem_def.mp first]
      rfl
    rw [same, count, List.filter_cons_of_pos (by simpa using begun.trans order), List.length_cons]
    exact ⟨rfl, by omega, by omega⟩

/-- A failure keeps the record sound. -/
theorem Tally.Sound.fail (sound : tally.Sound policy now) (order : now ≤ later) (wide : 0 < policy.window)
    (lasting : 0 < policy.lockDuration) : (tally.fail policy later).Sound policy later := by
  by_cases locked : isLocked tally.marks later
  · rw [fail_locked locked]
    refine ⟨fun time member => (sound.before time member).trans order, sound.fresh, ?_, sound.locked⟩
    intro firstFailedAt first
    obtain ⟨begun, count⟩ := sound.opened firstFailedAt first
    exact ⟨begun.trans order, count⟩
  · have counts := @record_counts policy later tally.marks locked
    obtain ⟨count, begun, inside⟩ := sound.counts locked order
    have first : (recordFailedLogin policy later tally.marks).firstFailedAt = some (opening policy later tally.marks) := by
      rw [counts.firstFailedAt, opening]
      split
      next => rfl
      next reset =>
        simp only [windowReset, not_forall] at reset
        obtain ⟨firstFailedAt, stored, -⟩ := reset
        rw [Option.mem_def.mp stored]
        rfl
    have all : (tally.fail policy later).counted = later :: tally.counted := if_neg locked
    have upTo : ∀ time ∈ later :: tally.counted, time ≤ later := by
      rintro time (_ | ⟨_, member⟩)
      · exact le_rfl
      · exact (sound.before time member).trans order
    refine ⟨?_, ?_, ?_, ?_⟩
    · rw [all]
      exact upTo
    · intro none
      have both := none.symm.trans first
      cases both
    · intro firstFailedAt stored
      obtain rfl : opening policy later tally.marks = firstFailedAt := Option.some.inj (first.symm.trans stored)
      rw [all]
      refine ⟨begun, count, fun time member => ?_⟩
      have := upTo time member
      omega
    · intro lockedUntil stored firstFailedAt stored'
      obtain rfl : opening policy later tally.marks = firstFailedAt := Option.some.inj (first.symm.trans stored')
      rw [all]
      by_cases reached : policy.threshold ≤ (recordFailedLogin policy later tally.marks).failedAttempts
      · obtain rfl : later + policy.lockDuration = lockedUntil :=
          Option.some.inj ((counts.lockedUntil reached).symm.trans stored)
        refine .inr ⟨reached, fun time member => ?_⟩
        have := upTo time member
        omega
      · have kept : lockedUntil ∈ tally.marks.lockedUntil := (record_below locked reached).symm.trans stored
        have ended := unlocked_iff.mp locked lockedUntil kept
        rw [opening]
        by_cases reset : windowReset policy later tally.marks
        · rw [if_pos reset]
          exact .inl ended
        · rw [if_neg reset]
          have running := reset
          simp only [windowReset, not_forall] at running
          obtain ⟨firstFailedAt, begins, -⟩ := running
          rw [Option.mem_def.mp begins, Option.getD_some]
          rcases sound.locked lockedUntil kept firstFailedAt begins with before | ⟨enough, -⟩
          · exact .inl before
          · -- The counter has not been set back, so it would have reached the threshold again.
            rw [counts.failedAttempts, if_neg reset] at reached
            omega

end Steps

section Runs
variable {policy : Policy} {tally : Tally} {now later : Int}

/-- After a lock that no failure has followed yet, a failure is alone in what counts. -/
theorem recent_alone {lockedUntil : Int} (stored : lockedUntil ∈ tally.marks.lockedUntil)
    (before : ∀ time ∈ tally.counted, time < lockedUntil) : (tally.recent policy later).length ≤ 1 := by
  have none : (tally.counted.filter fun time =>
      later - time ≤ policy.window ∧ ∀ lockedUntil ∈ tally.marks.lockedUntil, lockedUntil ≤ time) = [] := by
    rw [List.filter_eq_nil_iff]
    intro time member recent
    have after := (of_decide_eq_true recent).2 lockedUntil stored
    exact absurd (before time member) (not_lt.mpr after)
  rw [Tally.recent, List.filter_cons, none]
  split <;> simp

/-- All failures of the open window are within the last window's time and after the last lock. -/
theorem recent_opened (inside : later ≤ opening policy later tally.marks + policy.window)
    (ended : ∀ lockedUntil ∈ tally.marks.lockedUntil, lockedUntil ≤ opening policy later tally.marks) :
    (tally.recent policy later).filter (opening policy later tally.marks ≤ ·) =
      (later :: tally.counted).filter (opening policy later tally.marks ≤ ·) := by
  rw [Tally.recent, List.filter_filter]
  apply List.filter_congr
  intro time _
  rw [Bool.and_eq_left_iff_imp]
  intro opened
  have opened := of_decide_eq_true opened
  refine decide_eq_true ⟨by omega, fun lockedUntil stored => ?_⟩
  exact (ended lockedUntil stored).trans opened

/-- A failure is as the policy asks exactly when it is steady. -/
theorem Tally.Sound.follows_iff (sound : tally.Sound policy now) (order : now ≤ later) (several : 2 ≤ policy.threshold)
    (wide : 0 < policy.window) (lasting : policy.window ≤ policy.lockDuration) :
    Follows policy tally later ↔ Steady policy tally later := by
  by_cases locked : isLocked tally.marks later
  · obtain ⟨finish, set, pending⟩ := locked
    have only : ∀ lockedUntil ∈ tally.marks.lockedUntil, ¬ lockedUntil ≤ later := by
      intro lockedUntil stored
      obtain rfl : finish = lockedUntil := Option.some.inj (set.symm.trans stored)
      omega
    have locked : isLocked tally.marks later := ⟨finish, set, pending⟩
    refine iff_of_true ⟨fun free => absurd locked free, fun held => by rw [fail_locked held], ?_⟩
      ⟨?_, fun free => absurd locked free⟩
    · exact fun lockedUntil stored ended _ => absurd ended (only lockedUntil stored)
    · exact fun lockedUntil stored _ _ ended _ => absurd ended (only lockedUntil stored)
  · have locks : isLocked (tally.fail policy later).marks later ↔
        policy.threshold ≤ (recordFailedLogin policy later tally.marks).failedAttempts := record_locks locked (by omega)
    obtain ⟨count, begun, inside⟩ := sound.counts locked order
    have ended := unlocked_iff.mp locked
    have opened (windows : ∀ lockedUntil ∈ tally.marks.lockedUntil, ∀ firstFailedAt ∈ tally.marks.firstFailedAt,
        lockedUntil ≤ later → firstFailedAt < lockedUntil → windowReset policy later tally.marks) :
        isLocked (tally.fail policy later).marks later ↔
          policy.threshold ≤ ((tally.recent policy later).filter (opening policy later tally.marks ≤ ·)).length := by
      rw [locks, count, recent_opened (by omega)]
      intro lockedUntil stored
      rw [opening]
      split
      next => exact ended lockedUntil stored
      next running =>
        cases first : tally.marks.firstFailedAt with
        | none => exact ended lockedUntil stored
        | some firstFailedAt =>
          exact not_lt.mp fun before => running (windows lockedUntil stored firstFailedAt first (ended lockedUntil stored) before)
    constructor
    · intro follows
      have windows : ∀ lockedUntil ∈ tally.marks.lockedUntil, ∀ firstFailedAt ∈ tally.marks.firstFailedAt,
          lockedUntil ≤ later → firstFailedAt < lockedUntil → windowReset policy later tally.marks := by
        intro lockedUntil stored firstFailedAt first _ before
        by_contra running
        rcases sound.locked lockedUntil stored firstFailedAt first with after | ⟨enough, earlier⟩
        · omega
        · have again : policy.threshold ≤ (recordFailedLogin policy later tally.marks).failedAttempts := by
            rw [(record_counts locked).failedAttempts, if_neg running]
            omega
          have enough := (follows.counted locked).mp (locks.mpr again)
          have few := @recent_alone policy tally later lockedUntil stored earlier
          omega
      exact ⟨windows, fun free enough => (opened windows).mp ((follows.counted free).mpr enough)⟩
    · intro steady
      have counted : isLocked (tally.fail policy later).marks later ↔ policy.threshold ≤ (tally.recent policy later).length :=
        ⟨fun now' => ((opened steady.ended).mp now').trans (List.length_filter_le _ _),
          fun enough => (opened steady.ended).mpr (steady.inside locked enough)⟩
      refine ⟨fun _ => counted, fun held => absurd held locked, ?_⟩
      intro lockedUntil stored _ before again
      have few := @recent_alone policy tally later _ stored before
      have enough := counted.mp again
      omega

/-- Failures in order keep the record sound. -/
theorem Tally.Sound.run (sound : tally.Sound policy now) (wide : 0 < policy.window) (lasting : 0 < policy.lockDuration)
    {times : List Int} (sorted : (now :: times).Pairwise (· ≤ ·)) :
    ∃ last, (last = now ∨ last ∈ times) ∧ (times.foldl (Tally.fail policy) tally).Sound policy last := by
  induction times generalizing tally now with
  | nil => exact ⟨now, .inl rfl, sound⟩
  | cons time times ih =>
    obtain ⟨after, rest⟩ := List.pairwise_cons.mp sorted
    obtain ⟨last, either, sound⟩ := ih (sound.fail (after time List.mem_cons_self) wide lasting) rest
    refine ⟨last, .inr ?_, sound⟩
    rcases either with rfl | later
    · exact List.mem_cons_self
    · exact List.mem_cons_of_mem _ later

theorem sound_start (marks : Marks) (now : Int) : Tally.Sound policy ⟨resetLockState marks, []⟩ now where
  before _ member := by cases member
  fresh _ := ⟨rfl, rfl⟩
  opened _ first := by cases first
  locked _ stored := by cases stored

/-- In a run of failures in order from a cleared state, a failure is as the policy asks exactly when it is steady. -/
theorem failures_in_windows (policy : Policy) (several : 2 ≤ policy.threshold) (wide : 0 < policy.window)
    (lasting : policy.window ≤ policy.lockDuration) (marks : Marks) (before after : List Int) (now : Int)
    (sorted : (before ++ now :: after).Pairwise (· ≤ ·)) :
    Follows policy (tallyOf policy marks before) now ↔ Steady policy (tallyOf policy marks before) now := by
  obtain ⟨inOrder, -, upTo⟩ := List.pairwise_append.mp sorted
  have upTo : ∀ time ∈ before, time ≤ now := fun time member => upTo time member now List.mem_cons_self
  have positive : 0 < policy.lockDuration := wide.trans_le lasting
  cases before with
  | nil => exact (sound_start marks now).follows_iff le_rfl several wide lasting
  | cons first times =>
    obtain ⟨last, either, sound⟩ := ((sound_start marks first).fail le_rfl wide positive).run wide positive inOrder
    refine sound.follows_iff ?_ several wide lasting
    rcases either with rfl | later
    · exact upTo last List.mem_cons_self
    · exact upTo last (List.mem_cons_of_mem _ later)

/-- Three failures of an employee within ten minutes lock the account. -/
theorem sample_failures_in_windows : Follows Actor.portal.policy (tallyOf Actor.portal.policy .unmarked [0, minutes 5]) (minutes 10) := by
  refine (failures_in_windows Actor.portal.policy (by decide) (by decide) (by decide) .unmarked [0, minutes 5] [] (minutes 10)
    (by decide)).mpr ⟨?_, ?_⟩
  · intro lockedUntil stored
    cases stored
  · decide

/-- Failures at 9:00, 9:50, 10:10 and 10:20: the third one opens a window of its own, so that the last one, the third
within half an hour, locks nothing. -/
theorem reopened_window_not_locked : ¬ ∀ (policy : Policy) (marks : Marks) (before : List Int) (now : Int),
    2 ≤ policy.threshold → 0 < policy.window → policy.window ≤ policy.lockDuration →
      (before ++ [now]).Pairwise (· ≤ ·) → Follows policy (tallyOf policy marks before) now := by
  intro always
  have follows := always Actor.portal.policy .unmarked [0, minutes 50, minutes 70] (minutes 80) (by decide) (by decide)
    (by decide) (by decide)
  have locked := (follows.counted (by decide)).mpr (by decide)
  exact absurd locked (by decide)

end Runs

end Dagmar.Lockout.Proofs
