import Dagmar.Lockout
import Mathlib.Order.Lattice

/-! No failed login is lost while logins of one principal take turns. The rows of a
principal count as one, the join of them all; merging them again, or with a row that
has recorded nothing, changes nothing. That the rows are still as a login has loaded
them when it commits is a condition here. -/

namespace Dagmar.Lockout.Proofs
open Library

section Safety
variable {actor : Actor}

/-- What a login that looks now finds recorded. -/
def recorded (store : Store) : Marks := (getLockoutState [] store.rows store.nextId).state.marks

/-- After as many failures as the policy allows the principal is locked for the time the policy sets. -/
def LockedOut (policy : Policy) (store : Store) : Prop :=
  policy.threshold ≤ store.failures.length →
    ∃ time ∈ store.failures, ∀ now < time + policy.lockDuration, isLocked (recorded store) now

/-- A commit loses nothing that was recorded, and a failure it counts is recorded. -/
structure Keeps (policy : Policy) (before after : Store) : Prop where
  counted : ∀ now, after.failures = now :: before.failures →
    (¬ windowReset policy now (recorded before) → (recorded before).failedAttempts < (recorded after).failedAttempts) ∧
    0 < (recorded after).failedAttempts ∧ (policy.threshold ≤ after.failures.length → isLocked (recorded after) now)
  uncounted : after.failures = before.failures → recorded after = recorded before

/-- No window ends among instants since the given one, unless it has ended before. -/
def Opens (policy : Policy) (since : Int) (marks : Marks) : Prop :=
  ∀ firstFailedAt ∈ marks.firstFailedAt, since ≤ firstFailedAt ∨ firstFailedAt + policy.window < since

/-- The committed rows are those the session has loaded. -/
def Current (rows : States) (lock : LockState) : Prop := ∀ row, row ∈ rows ↔ row ∈ lock.loaded

/-- What a login has loaded is there when it looks again, and is all there is when it commits. -/
def Undisturbed : Rule Store Attempt := fun world who state session =>
  match world.sessions who, session with
  | .entered lock, .again _ => ∀ row ∈ lock.loaded, row ∈ world.state.rows
  | .refused lock, .idle => state ≠ world.state → Current world.state.rows lock
  | .recorded lock _ _, .idle => state ≠ world.state → Current world.state.rows lock
  | _, _ => True

/-- Logins that take turns, all inside one window. -/
def FailsInTurn (actor : Actor) (since : Int) : Rule Store Attempt := fun world who state session =>
  FailsLogin actor world who state session ∧ Undisturbed world who state session ∧
    state.clock ≤ since + actor.policy.window

end Safety

section Joins

theorem join_comm (first second : Marks) : first.join second = second.join first := by
  simp only [Marks.join]
  congr 1
  · exact Nat.max_comm ..
  all_goals exact Std.Commutative.comm _ _

theorem join_assoc (first second third : Marks) : (first.join second).join third = first.join (second.join third) := by
  simp only [Marks.join]
  congr 1
  · exact Nat.max_assoc ..
  all_goals exact Std.Associative.assoc _ _ _

theorem join_self (marks : Marks) : marks.join marks = marks := by
  simp only [Marks.join, Nat.max_self]
  congr 1
  all_goals exact Std.IdempotentOp.idempotent _

theorem join_unmarked (marks : Marks) : Marks.unmarked.join marks = marks := by
  simp [Marks.join, Marks.unmarked]

instance : Max Marks := ⟨Marks.join⟩

instance : SemilatticeSup Marks := SemilatticeSup.mk' join_comm join_assoc join_self

instance : OrderBot Marks where
  bot := .unmarked
  bot_le marks := sup_eq_right.mp (join_unmarked marks)

theorem bot_eq : (⊥ : Marks) = .unmarked := rfl

/-- All that the rows have recorded. -/
def total (rows : List AuthLockoutState) : Marks := (rows.map AuthLockoutState.marks).foldl Marks.join .unmarked

theorem foldl_join_le {list : List Marks} {first bound : Marks} :
    list.foldl Marks.join first ≤ bound ↔ first ≤ bound ∧ ∀ marks ∈ list, marks ≤ bound := by
  induction list generalizing first with
  | nil => simp
  | cons marks list ih =>
    rw [List.foldl_cons, ih, List.forall_mem_cons, ← and_assoc]
    exact and_congr_left' sup_le_iff

theorem merged_le {states : List Loaded} {bound : Marks} :
    merged states ≤ bound ↔ ∀ object ∈ states, object.marks ≤ bound := by
  rw [merged, ← bot_eq, foldl_join_le, and_iff_right bot_le, List.forall_mem_map]

theorem total_le {rows : List AuthLockoutState} {bound : Marks} : total rows ≤ bound ↔ ∀ row ∈ rows, row.marks ≤ bound := by
  rw [total, ← bot_eq, foldl_join_le, and_iff_right bot_le, List.forall_mem_map]

theorem le_total {rows : List AuthLockoutState} {row : AuthLockoutState} (member : row ∈ rows) : row.marks ≤ total rows :=
  total_le.mp le_rfl row member

theorem total_mono {rows more : List AuthLockoutState} (included : ∀ row ∈ rows, row ∈ more) : total rows ≤ total more :=
  total_le.mpr fun row member => le_total (included row member)

theorem total_congr {rows others : List AuthLockoutState} (same : ∀ row, row ∈ rows ↔ row ∈ others) :
    total rows = total others :=
  le_antisymm (total_mono fun row => (same row).mp) (total_mono fun row => (same row).mpr)

end Joins

section Lookups
variable {known : List Loaded} {rows : States} {lock : LockState}

theorem mem_loaded {row : AuthLockoutState} :
    row ∈ lock.loaded ↔ ∃ object ∈ lock.objects, object.own = false ∧ object.stored = row := by
  simp [LockState.loaded, and_assoc]

/-- What a session may rely on after it has looked. -/
structure Reads (lock : LockState) : Prop where
  counts : lock.state.marks = total lock.loaded
  above : ∀ object ∈ lock.objects, object.own = false → object.stored.marks ≤ object.marks
  below : ∀ object ∈ lock.objects, object.marks ≤ total lock.loaded
  apart : ∀ duplicate ∈ lock.duplicates, lock.state.own = false → duplicate.own = false →
    lock.state.stored.id ≠ duplicate.stored.id

/-- The rows that a session has in hand when it looks are among those it finds. -/
structure Among (known : List Loaded) (rows : States) : Prop where
  stored : ∀ object ∈ known, object.own = false → object.stored ∈ rows
  above : ∀ object ∈ known, object.own = false → object.stored.marks ≤ object.marks
  below : ∀ object ∈ known, object.marks ≤ total rows.rows

theorem among_nil (rows : States) : Among [] rows :=
  ⟨fun _ impossible => absurd impossible List.not_mem_nil, fun _ impossible => absurd impossible List.not_mem_nil,
    fun _ impossible => absurd impossible List.not_mem_nil⟩

theorem Reads.among (reads : Reads lock) (present : ∀ row ∈ lock.loaded, row ∈ rows) : Among lock.objects rows where
  stored object member committed := present _ (mem_loaded.mpr ⟨object, member, committed, rfl⟩)
  above := reads.above
  below object member := (reads.below object member).trans (total_mono present)

/-- What is loaded for a row is the row as it is now. -/
theorem Among.loads (among : Among known rows) {row : AuthLockoutState} (member : row ∈ rows) :
    (load known row).own = false ∧ (load known row).stored = row ∧ row.marks ≤ (load known row).marks ∧
      (load known row).marks ≤ total rows.rows := by
  unfold load
  cases found : known.find? fun object => object.own = false ∧ object.stored.id = row.id with
  | none => exact ⟨rfl, rfl, le_rfl, le_total member⟩
  | some object =>
    have inside := List.mem_of_find?_eq_some found
    have chosen := List.find?_some found
    obtain ⟨committed, same⟩ : object.own = false ∧ object.stored.id = row.id := by simpa using chosen
    have equal : object.stored = row := rows.key_inj (among.stored object inside committed) member same
    exact ⟨committed, equal, equal ▸ among.above object inside committed, among.below object inside⟩

theorem mem_visible {object : Loaded} :
    object ∈ visible known rows ↔ (∃ row ∈ rows, load known row = object) ∨ object ∈ known ∧ object.own = true := by
  rw [visible, List.mem_insertionSort, List.mem_append, List.mem_map, List.mem_filter, decide_eq_true_eq]
  rfl

/-- Of each object that is visible, and what is loaded of them. -/
theorem Among.finds (among : Among known rows) :
    (∀ object ∈ visible known rows, object.own = false → object.stored ∈ rows ∧ object.stored.marks ≤ object.marks) ∧
    (∀ object ∈ visible known rows, object.marks ≤ total rows.rows) ∧
    ∀ row ∈ rows, ∃ object ∈ visible known rows, object.own = false ∧ object.stored = row ∧ row.marks ≤ object.marks := by
  refine ⟨?_, ?_, ?_⟩
  · intro object member committed
    rcases mem_visible.mp member with ⟨row, inside, rfl⟩ | ⟨-, own⟩
    · obtain ⟨-, same, above, -⟩ := among.loads inside
      rw [same]
      exact ⟨inside, above⟩
    · cases committed.symm.trans own
  · intro object member
    rcases mem_visible.mp member with ⟨row, inside, rfl⟩ | ⟨held, -⟩
    · exact (among.loads inside).2.2.2
    · exact among.below object held
  · intro row member
    obtain ⟨committed, same, above, -⟩ := among.loads member
    exact ⟨_, mem_visible.mpr (.inl ⟨row, member, rfl⟩), committed, same, above⟩

/-- No committed row is loaded twice. -/
theorem Among.apart (among : Among known rows) : (visible known rows).Pairwise fun first second =>
    first.own = false → second.own = false → first.stored.id ≠ second.stored.id := by
  have sorted := List.perm_insertionSort (fun first second : Loaded => first.stored.id ≤ second.stored.id)
    (rows.rows.map (load known) ++ known.filter fun object => object.own = true)
  have symmetric : ∀ {first second : Loaded}, (first.own = false → second.own = false → first.stored.id ≠ second.stored.id) →
      second.own = false → first.own = false → second.stored.id ≠ first.stored.id :=
    fun different left right => (different right left).symm
  rw [visible, sorted.pairwise_iff symmetric, List.pairwise_append]
  refine ⟨?_, ?_, ?_⟩
  · have unique := List.pairwise_map.mp rows.unique
    refine List.pairwise_map.mpr (unique.imp_of_mem fun left right different _ _ => ?_)
    rw [(among.loads left).2.1, (among.loads right).2.1]
    exact different
  · refine List.pairwise_of_forall_mem_list fun first left second _ committed => ?_
    have own := (List.mem_filter.mp left).2
    simp [committed] at own
  · intro first _ second right _ committed
    have own := (List.mem_filter.mp right).2
    simp [committed] at own

theorem getLockoutState_cases (known : List Loaded) (rows : States) (id : Int) :
    visible known rows = [] ∧ getLockoutState known rows id = ⟨⟨⟨id, .unmarked⟩, .unmarked, true⟩, []⟩ ∨
    ∃ state duplicates, visible known rows = state :: duplicates ∧
      getLockoutState known rows id = ⟨{ state with marks := merged (state :: duplicates) }, duplicates⟩ := by
  unfold getLockoutState
  split
  next none => exact .inl ⟨none, rfl⟩
  next _ state one =>
    refine .inr ⟨state, [], one, ?_⟩
    have same : merged [state] = state.marks := join_unmarked state.marks
    rw [same]
  next _ state duplicates _ several => exact .inr ⟨state, duplicates, several, rfl⟩

/-- A look finds what all the committed rows have recorded. -/
theorem Among.reads (among : Among known rows) (id : Int) :
    Reads (getLockoutState known rows id) ∧ ∀ row, row ∈ (getLockoutState known rows id).loaded ↔ row ∈ rows := by
  obtain ⟨found, bounded, covers⟩ := among.finds
  rcases getLockoutState_cases known rows id with ⟨none, shape⟩ | ⟨state, duplicates, several, shape⟩
  · have empty : ∀ row, row ∉ rows := by
      intro row member
      obtain ⟨object, inside, -⟩ := covers row member
      rw [none] at inside
      exact absurd inside List.not_mem_nil
    rw [shape]
    refine ⟨⟨rfl, ?_, ?_, fun _ impossible => absurd impossible List.not_mem_nil⟩, ?_⟩
    · intro object member committed
      cases List.mem_singleton.mp member
      cases committed
    · intro object member
      cases List.mem_singleton.mp member
      exact bot_le
    · intro row
      exact iff_of_false List.not_mem_nil (empty row)
  · have apart := among.apart
    rw [several] at found bounded covers apart
    have all : merged (state :: duplicates) = total rows.rows := by
      refine le_antisymm (merged_le.mpr bounded) (total_le.mpr fun row member => ?_)
      obtain ⟨object, inside, -, -, above⟩ := covers row member
      exact above.trans (merged_le.mp le_rfl object inside)
    rw [shape]
    -- The row that counts changes its marks only.
    have objects : ∀ object ∈ LockState.objects ⟨{ state with marks := merged (state :: duplicates) }, duplicates⟩,
        ∃ other ∈ state :: duplicates, object.own = other.own ∧ object.stored = other.stored ∧
          (object = other ∨ object.marks = total rows.rows) := by
      intro object member
      rcases List.mem_cons.mp member with rfl | duplicate
      · exact ⟨state, List.mem_cons_self, rfl, rfl, .inr all⟩
      · exact ⟨object, List.mem_cons_of_mem _ duplicate, rfl, rfl, .inl rfl⟩
    have loaded : ∀ row, row ∈ LockState.loaded ⟨{ state with marks := merged (state :: duplicates) }, duplicates⟩ ↔
        row ∈ rows := by
      intro row
      rw [mem_loaded]
      constructor
      · rintro ⟨object, member, committed, rfl⟩
        obtain ⟨other, inside, own, stored, -⟩ := objects object member
        rw [stored]
        exact (found other inside (own.symm.trans committed)).1
      · intro member
        obtain ⟨object, inside, committed, same, -⟩ := covers row member
        rcases List.mem_cons.mp inside with rfl | duplicate
        · exact ⟨_, List.mem_cons_self, committed, same⟩
        · exact ⟨object, List.mem_cons_of_mem _ duplicate, committed, same⟩
    have totals := total_congr loaded
    refine ⟨⟨all.trans totals.symm, ?_, ?_, fun duplicate member => (List.pairwise_cons.mp apart).1 duplicate member⟩, loaded⟩
    · intro object member committed
      obtain ⟨other, inside, own, stored, same | marks⟩ := objects object member
      · rw [same] at committed ⊢
        exact (found other inside committed).2
      · rw [marks, stored]
        exact le_total (found other inside (own.symm.trans committed)).1
    · intro object member
      rw [totals]
      obtain ⟨other, inside, -, -, same | marks⟩ := objects object member
      · exact same ▸ bounded other inside
      · exact marks.le

theorem recorded_eq (store : Store) : recorded store = total store.rows.rows := by
  obtain ⟨reads, loaded⟩ := (among_nil store.rows).reads store.nextId
  exact reads.counts.trans (total_congr loaded)

end Lookups

section Commits
variable {rows : States} {lock : LockState}

theorem update_stored (stored mine : Marks) : stored.update mine stored = mine := by
  have kept {α : Type} [DecidableEq α] (first second : α) : changed first second first = second := by
    unfold changed
    split
    next same => exact same.symm
    next => rfl
  simp only [Marks.update, kept]

/-- A commit of a session that has loaded all there is leaves one row. -/
theorem flush_current (apart : ∀ duplicate ∈ lock.duplicates, lock.state.own = false → duplicate.own = false →
      lock.state.stored.id ≠ duplicate.stored.id) (current : Current rows lock) :
    ∃ written, lock.flush rows = some written ∧ ∀ row, row ∈ written ↔ row = ⟨lock.state.stored.id, lock.state.marks⟩ := by
  have kept : ∀ row, row ∈ (rows.deleteWhere fun row =>
      ∃ duplicate ∈ lock.duplicates, duplicate.own = false ∧ duplicate.stored.id = row.id) ↔
      lock.state.own = false ∧ row = lock.state.stored := by
    intro row
    rw [Table.mem_deleteWhere, current row, mem_loaded]
    constructor
    · rintro ⟨⟨object, member, committed, rfl⟩, undeleted⟩
      rcases List.mem_cons.mp member with rfl | duplicate
      · exact ⟨committed, rfl⟩
      · exact absurd ⟨object, duplicate, committed, rfl⟩ undeleted
    · rintro ⟨committed, rfl⟩
      refine ⟨⟨_, List.mem_cons_self, committed, rfl⟩, ?_⟩
      rintro ⟨duplicate, member, other, same⟩
      exact apart duplicate member committed other same.symm
  have replaced : ∀ row, row ∈ (rows.deleteWhere fun row =>
      ∃ duplicate ∈ lock.duplicates, duplicate.own = false ∧ duplicate.stored.id = row.id).put
        ⟨lock.state.stored.id, lock.state.marks⟩ ↔ row = ⟨lock.state.stored.id, lock.state.marks⟩ := by
    intro row
    rw [Table.mem_put, kept]
    refine or_iff_left ?_
    rintro ⟨⟨-, rfl⟩, other⟩
    exact other rfl
  rw [LockState.flush, Loaded.flush]
  split_ifs with own same
  · exact ⟨_, rfl, replaced⟩
  · refine ⟨_, rfl, fun row => ?_⟩
    rw [kept, same]
    exact and_iff_right (Bool.eq_false_iff.mpr own)
  · have member := (kept lock.state.stored).mpr ⟨Bool.eq_false_iff.mpr own, rfl⟩
    rw [Table.get_of_mem member, Option.map_some, update_stored]
    exact ⟨_, rfl, replaced⟩

theorem flush_isSome {object : Loaded} (stored : object.own = false → object.stored ∈ rows) : (object.flush rows).isSome := by
  rw [Loaded.flush]
  split_ifs with own same
  · rfl
  · rfl
  · rw [Table.get_of_mem (stored (Bool.eq_false_iff.mpr own))]
    rfl

end Commits

section Counting
variable {policy : Policy} {now since : Int} {marks : Marks}

theorem record_of_locked (locked : isLocked marks now) : recordFailedLogin policy now marks = marks := if_pos locked

/-- What one failure leaves recorded. -/
structure Counts (policy : Policy) (now : Int) (before after : Marks) : Prop where
  failedAttempts : after.failedAttempts = (if windowReset policy now before then 0 else before.failedAttempts) + 1
  firstFailedAt : after.firstFailedAt = if windowReset policy now before then some now else before.firstFailedAt
  lockedUntil : policy.threshold ≤ after.failedAttempts → after.lockedUntil = some (now + policy.lockDuration)

theorem record_counts (free : ¬ isLocked marks now) : Counts policy now marks (recordFailedLogin policy now marks) := by
  rw [recordFailedLogin, if_neg free]
  by_cases reset : windowReset policy now marks
  · simp only [if_pos reset]
    split_ifs with reached
    · exact ⟨(if_pos reset).symm ▸ rfl, (if_pos reset).symm, fun _ => rfl⟩
    · exact ⟨(if_pos reset).symm ▸ rfl, (if_pos reset).symm, fun enough => absurd enough reached⟩
  · simp only [if_neg reset]
    split_ifs with reached
    · exact ⟨(if_neg reset).symm ▸ rfl, (if_neg reset).symm, fun _ => rfl⟩
    · exact ⟨(if_neg reset).symm ▸ rfl, (if_neg reset).symm, fun enough => absurd enough reached⟩

/-- What a step may leave recorded when logins take turns. -/
inductive Effect (policy : Policy) (since : Int) (before after : Store) : Prop where
  | same (total : total after.rows.rows = total before.rows.rows) (failures : after.failures = before.failures)
  | counted (now : Int) (inside : since ≤ now ∧ now ≤ since + policy.window)
      (counts : Counts policy now (total before.rows.rows) (total after.rows.rows))
      (failures : after.failures = now :: before.failures)

structure Holds (policy : Policy) (since : Int) (store : Store) : Prop where
  opens : Opens policy since (total store.rows.rows)
  started : store.failures ≠ [] → ∃ firstFailedAt ∈ (total store.rows.rows).firstFailedAt, since ≤ firstFailedAt
  counted : store.failures.length ≤ (total store.rows.rows).failedAttempts
  locked : policy.threshold ≤ store.failures.length →
    ∃ time ∈ store.failures, (total store.rows.rows).lockedUntil = some (time + policy.lockDuration)

/-- Inside the window a failure resets nothing that has been counted in it. -/
theorem unreset_of_started (inside : since ≤ now ∧ now ≤ since + policy.window)
    (started : ∃ firstFailedAt ∈ marks.firstFailedAt, since ≤ firstFailedAt) : ¬ windowReset policy now marks := by
  obtain ⟨firstFailedAt, stored, later⟩ := started
  intro reset
  have passed := reset firstFailedAt stored
  omega

theorem Holds.effect {before after : Store} (holds : Holds policy since before) (effect : Effect policy since before after) :
    Holds policy since after := by
  cases effect with
  | same total failures =>
    refine ⟨?_, ?_, ?_, ?_⟩ <;> rw [total] <;> try rw [failures]
    · exact holds.opens
    · exact holds.started
    · exact holds.counted
    · exact holds.locked
  | counted now inside counts failures =>
    have more : before.failures.length + 1 ≤ (total after.rows.rows).failedAttempts := by
      rw [counts.failedAttempts]
      cases none : before.failures with
      | nil => simp
      | cons time earlier =>
        have kept := unreset_of_started inside (holds.started (by simp [none]))
        rw [if_neg kept, ← none]
        exact Nat.succ_le_succ holds.counted
    have first : ∃ firstFailedAt ∈ (total after.rows.rows).firstFailedAt, since ≤ firstFailedAt := by
      rw [counts.firstFailedAt]
      split
      next => exact ⟨now, rfl, inside.1⟩
      next kept =>
        simp only [windowReset, not_forall, Int.not_lt] at kept
        obtain ⟨firstFailedAt, stored, unexpired⟩ := kept
        refine ⟨firstFailedAt, stored, ?_⟩
        rcases holds.opens firstFailedAt stored with later | closed <;> omega
    refine ⟨?_, fun _ => first, ?_, ?_⟩
    · intro firstFailedAt stored
      obtain ⟨other, same, later⟩ := first
      cases stored.symm.trans same
      exact .inl later
    · rw [failures, List.length_cons]
      exact more
    · intro reached
      rw [failures, List.length_cons] at reached
      exact ⟨now, failures ▸ List.mem_cons_self, counts.lockedUntil (reached.trans more)⟩

theorem isLocked_of_eq {lockedUntil : Int} (stored : marks.lockedUntil = some lockedUntil) (early : now < lockedUntil) :
    isLocked marks now :=
  ⟨lockedUntil, stored, early⟩

theorem Holds.lockedOut {store : Store} (holds : Holds policy since store) : LockedOut policy store := by
  intro reached
  obtain ⟨time, member, stored⟩ := holds.locked reached
  refine ⟨time, member, fun now early => ?_⟩
  rw [recorded_eq]
  exact isLocked_of_eq stored early

theorem Holds.keeps {before after : Store} (holds : Holds policy since before) (lasting : 0 < policy.lockDuration)
    (effect : Effect policy since before after) : Keeps policy before after := by
  have next := holds.effect effect
  refine ⟨?_, ?_⟩
  · intro now counted
    rw [recorded_eq, recorded_eq]
    cases effect with
    | same _ failures => exact absurd (failures.symm.trans counted) (List.cons_ne_self _ _).symm
    | counted time inside counts failures =>
      obtain ⟨rfl, -⟩ := List.cons.inj (failures.symm.trans counted)
      refine ⟨?_, ?_, ?_⟩
      · intro kept
        rw [counts.failedAttempts, if_neg kept]
        exact Nat.lt_succ_self _
      · rw [counts.failedAttempts]
        exact Nat.succ_pos _
      · intro reached
        exact isLocked_of_eq (counts.lockedUntil (reached.trans next.counted)) (Int.lt_add_of_pos_right _ lasting)
  · intro uncounted
    rw [recorded_eq, recorded_eq]
    cases effect with
    | same total _ => exact total
    | counted _ _ _ failures => exact absurd (uncounted.symm.trans failures) (List.cons_ne_self _ _).symm

end Counting

section Sessions
variable {actor : Actor} {since : Int} {world : World Store Attempt} {who : Nat} {store : Store} {session : Attempt}

/-- What a login may rely on after its looks. -/
def Sound (policy : Policy) (since : Int) : Attempt → Prop
  | .idle => True
  | .refused lock => Reads lock
  | .entered lock => Reads lock
  | .again lock => Reads lock
  | .recorded lock now counted => (since ≤ now ∧ now ≤ since + policy.window) ∧
    ∃ before, Reads before ∧ lock = before.record policy now ∧ counted = decide (¬ isLocked before.state.marks now)

structure InTurn (policy : Policy) (since : Int) (world : World Store Attempt) : Prop where
  inside : since ≤ world.state.clock ∧ world.state.clock ≤ since + policy.window
  holds : Holds policy since world.state
  sound : ∀ who, Sound policy since (world.sessions who)

theorem sound_beforeRecord {policy : Policy} {lock : LockState} (sound : Sound policy since (actor.beforeRecord lock)) :
    Reads lock := by
  cases actor with
  | portal => exact sound
  | admin => exact sound

/-- A commit that finds the rows as they were loaded leaves one row with the session's marks. -/
theorem total_flush {rows written : States} {lock : LockState} (current : Current rows lock)
    (apart : ∀ duplicate ∈ lock.duplicates, lock.state.own = false → duplicate.own = false →
      lock.state.stored.id ≠ duplicate.stored.id)
    (flushed : lock.flush rows = some written) : total written.rows = lock.state.marks := by
  obtain ⟨found, equal, one⟩ := flush_current apart current
  cases equal.symm.trans flushed
  have same : total written.rows = total [⟨lock.state.stored.id, lock.state.marks⟩] :=
    total_congr fun row => (one row).trans List.mem_singleton.symm
  exact same.trans (join_unmarked _)

theorem loaded_record (lock : LockState) (policy : Policy) (now : Int) : (lock.record policy now).loaded = lock.loaded := by
  simp only [LockState.loaded, LockState.objects, LockState.record, List.filter_cons]
  split <;> rfl

theorem Reads.total {rows : States} {lock : LockState} (reads : Reads lock) (current : Current rows lock) :
    total rows.rows = lock.state.marks :=
  (total_congr current).trans reads.counts.symm

/-- What a login in turn commits. -/
theorem InTurn.effect (inTurn : InTurn actor.policy since world) (allowed : FailsInTurn actor since world who store session) :
    Effect actor.policy since world.state store := by
  obtain ⟨step, undisturbed, -⟩ := allowed
  have mine := inTurn.sound who
  by_cases unchanged : store = world.state
  · exact unchanged ▸ .same rfl rfl
  cases step with
  | tick => exact .same rfl rfl
  | abandon => exact absurd rfl unchanged
  | look => exact .same rfl rfl
  | lookAgain => exact .same rfl rfl
  | record => exact absurd rfl unchanged
  | @refuse lock rows refused flushed =>
    rw [refused] at mine
    simp only [Undisturbed, refused] at undisturbed
    have current := undisturbed unchanged
    exact .same ((total_flush current mine.apart flushed).trans (mine.total current).symm) rfl
  | @commit lock now counted rows recorded flushed =>
    rw [recorded] at mine
    simp only [Undisturbed, recorded] at undisturbed
    have current := undisturbed unchanged
    obtain ⟨inside, before, reads, rfl, rfl⟩ := mine
    have written := total_flush current reads.apart flushed
    rw [Current, loaded_record] at current
    have found := reads.total current
    by_cases locked : isLocked before.state.marks now
    · refine .same ?_ (by simp [locked])
      rw [written, found]
      exact record_of_locked locked
    · refine .counted now inside ?_ (by simp [locked])
      rw [written, found]
      exact record_counts locked

theorem InTurn.sound_step (inTurn : InTurn actor.policy since world)
    (allowed : FailsInTurn actor since world who store session) : Sound actor.policy since session := by
  obtain ⟨step, undisturbed, -⟩ := allowed
  have mine := inTurn.sound who
  cases step with
  | tick => exact mine
  | abandon => trivial
  | look id idle numbered =>
    have reads := ((among_nil world.state.rows).reads id).1
    split
    next => exact reads
    next => exact reads
  | refuse => trivial
  | lookAgain id entered portal numbered writable =>
    rw [entered] at mine
    simp only [Undisturbed, entered] at undisturbed
    exact ((Reads.among mine undisturbed).reads id).1
  | record stands =>
    rw [stands] at mine
    exact ⟨inTurn.inside, _, sound_beforeRecord mine, rfl, rfl⟩
  | commit => trivial

theorem InTurn.step (inTurn : InTurn actor.policy since world) (allowed : FailsInTurn actor since world who store session) :
    InTurn actor.policy since (world.move who store session) := by
  refine ⟨⟨?_, allowed.2.2⟩, inTurn.holds.effect (inTurn.effect allowed), ?_⟩
  · have before := inTurn.inside.1
    cases allowed.1 with
    | tick later ordered => exact before.trans ordered
    | _ => exact before
  · exact World.forall_move _ (inTurn.sound_step allowed) fun other _ => inTurn.sound other

end Sessions

section Main

theorem actor_lasting (actor : Actor) : 0 < actor.policy.lockDuration := by
  cases actor <;> decide

theorem actor_threshold (actor : Actor) : 0 < actor.policy.threshold := by
  cases actor <;> decide

def Store.start (clock nextId : Int) (rows : States) : Store := ⟨clock, nextId, rows, []⟩

theorem failures_counted (actor : Actor) (clock nextId since : Int) (rows : States)
    (inside : since ≤ clock ∧ clock ≤ since + actor.policy.window)
    (opens : Opens actor.policy since (recorded (Store.start clock nextId rows))) {world : World Store Attempt}
    (reached : Reaches (FailsInTurn actor since) (World.quiet (Store.start clock nextId rows) .idle) world) :
    LockedOut actor.policy world.state ∧ ∀ who store session, FailsInTurn actor since world who store session →
      Keeps actor.policy world.state store := by
  have start : InTurn actor.policy since (World.quiet (Store.start clock nextId rows) .idle) := by
    rw [recorded_eq] at opens
    refine ⟨inside, ⟨opens, fun some => absurd rfl some, Nat.zero_le _, fun reached => ?_⟩, fun _ => trivial⟩
    exact absurd reached (Nat.not_le.mpr (actor_threshold actor))
  have inTurn : InTurn actor.policy since world :=
    reached.keeps (InTurn actor.policy since) start fun _ _ _ _ before allowed => before.step allowed
  exact ⟨inTurn.holds.lockedOut, fun who store session allowed =>
    inTurn.holds.keeps (actor_lasting actor) (inTurn.effect allowed)⟩

end Main

section Samples
variable {actor : Actor} {since : Int} {world : World Store Attempt} {who : Nat}

/-- A portal login that nobody disturbs is counted. -/
theorem failure_taken {clock nextId since : Int} {rows : States} {failures : List Int} {sessions : Nat → Attempt} {who : Nat}
    (idle : sessions who = .idle) (inside : clock ≤ since + Actor.portal.policy.window) (free : ¬ isLocked (total rows.rows) clock) :
    ∃ written, Reaches (FailsInTurn .portal since) ⟨⟨clock, nextId, rows, failures⟩, sessions⟩
        (World.move ⟨⟨clock, nextId, rows, failures⟩, sessions⟩ who ⟨clock, nextId + 1 + 1, written, clock :: failures⟩ .idle) ∧
      total written.rows = recordFailedLogin Actor.portal.policy clock (total rows.rows) := by
  obtain ⟨first, found⟩ := (among_nil rows).reads nextId
  obtain ⟨second, foundAgain⟩ := (first.among fun row => (found row).mp).reads (nextId + 1)
  have unlocked := first.total (fun row => (found row).symm) ▸ free
  have unlockedAgain := second.total (fun row => (foundAgain row).symm) ▸ free
  have current : Current rows
      ((getLockoutState (getLockoutState [] rows nextId).objects rows (nextId + 1)).record Actor.portal.policy clock) := by
    rw [Current, loaded_record]
    exact fun row => (foundAgain row).symm
  obtain ⟨written, flushed, -⟩ := @flush_current rows (LockState.record _ _ clock) second.apart current
  have step := @FailsLogin.look .portal ⟨⟨clock, nextId, rows, failures⟩, sessions⟩ who nextId idle le_rfl
  rw [if_neg unlocked] at step
  have looked : FailsInTurn .portal since ⟨⟨clock, nextId, rows, failures⟩, sessions⟩ who ⟨clock, nextId + 1, rows, failures⟩
      (.entered (getLockoutState [] rows nextId)) := ⟨step, by simp [Undisturbed, idle], inside⟩
  have reached := (Reaches.step .refl who looked).again ⟨.lookAgain (nextId + 1) (World.move_self ..) rfl le_rfl ?_, ?_, inside⟩
  · have recorded := reached.again ⟨.record (World.move_self ..), by simp [Undisturbed], inside⟩
    have committed := recorded.again ⟨.commit (World.move_self ..) flushed, ?_, inside⟩
    · refine ⟨written, ?_, ?_⟩
      · simpa [unlockedAgain] using committed
      · rw [total_flush current second.apart flushed, second.total fun row => (foundAgain row).symm]
        rfl
    · simp only [Undisturbed, World.move_self]
      exact fun _ => current
  · exact flush_isSome fun committed => (found _).mp (mem_loaded.mpr ⟨_, List.mem_cons_self, committed, rfl⟩)
  · simp only [Undisturbed, World.move_self]
    exact fun row => (found row).mp

def sampleMarks (failedAttempts : Nat) : Marks := ⟨failedAttempts, some 0, some 0, none, none⟩

/-- Three failures one after another lock the account. -/
theorem portal_locked : ∃ world, Reaches (FailsInTurn .portal 0) (World.quiet (Store.start 0 1 ∅) .idle) world ∧
    world.state.failures = [0, 0, 0] ∧ LockedOut Actor.portal.policy world.state ∧
    ∀ who store session, FailsInTurn .portal 0 world who store session → Keeps Actor.portal.policy world.state store := by
  have inside : (0 : Int) ≤ 0 + Actor.portal.policy.window := by decide
  obtain ⟨first, one, counted⟩ := @failure_taken 0 1 0 ∅ [] (fun _ => .idle) 0 rfl inside (by decide)
  have firstMarks : total first.rows = sampleMarks 1 := counted.trans (by decide)
  obtain ⟨second, two, counted⟩ := @failure_taken 0 3 0 first [0] _ 0 (Function.update_self ..) inside (by rw [firstMarks]; decide)
  have secondMarks : total second.rows = sampleMarks 2 := counted.trans (by rw [firstMarks]; decide)
  obtain ⟨third, three, -⟩ := @failure_taken 0 5 0 second [0, 0] _ 0 (Function.update_self ..) inside (by rw [secondMarks]; decide)
  have reached := (one.trans two).trans three
  have opens : Opens Actor.portal.policy 0 (recorded (Store.start 0 1 ∅)) := by
    intro firstFailedAt stored
    cases stored
  exact ⟨_, reached, rfl, failures_counted .portal 0 1 0 ∅ ⟨le_rfl, inside⟩ opens reached⟩

/-- The one row of a principal, and a login that has loaded it. -/
def oneRow (marks : Marks) : States := ⟨[⟨1, marks⟩], List.nodup_singleton _⟩

def oneLock (marks : Marks) : LockState := ⟨⟨⟨1, marks⟩, marks, false⟩, []⟩

theorem row_looked {clock nextId : Int} {marks : Marks} {failures : List Int} {sessions : Nat → Attempt} {who : Nat}
    (idle : sessions who = .idle) (free : ¬ isLocked marks clock) :
    Reaches (FailsLogin .portal) ⟨⟨clock, nextId, oneRow marks, failures⟩, sessions⟩
      (World.move ⟨⟨clock, nextId, oneRow marks, failures⟩, sessions⟩ who ⟨clock, nextId + 1 + 1, oneRow marks, failures⟩
        (.again (oneLock marks))) := by
  have step := @FailsLogin.look .portal ⟨⟨clock, nextId, oneRow marks, failures⟩, sessions⟩ who nextId idle le_rfl
  have first : getLockoutState [] (oneRow marks) nextId = oneLock marks := rfl
  have unlocked : ¬ isLocked (oneLock marks).state.marks clock := free
  rw [first, if_neg unlocked] at step
  exact (Reaches.step .refl who step).again
    (.lookAgain (nextId + 1) (World.move_self ..) rfl le_rfl (by simp [Loaded.flush, oneLock]))

theorem row_failed {clock nextId : Int} {rows written : States} {failures : List Int} {sessions : Nat → Attempt} {who : Nat}
    {lock : LockState} (stands : sessions who = .again lock) (free : ¬ isLocked lock.state.marks clock)
    (flushed : (lock.record Actor.portal.policy clock).flush rows = some written) :
    Reaches (FailsLogin .portal) ⟨⟨clock, nextId, rows, failures⟩, sessions⟩
      (World.move ⟨⟨clock, nextId, rows, failures⟩, sessions⟩ who ⟨clock, nextId, written, clock :: failures⟩ .idle) := by
  have recorded := Reaches.step .refl who
    (@FailsLogin.record .portal ⟨⟨clock, nextId, rows, failures⟩, sessions⟩ who lock stands)
  simpa [free] using recorded.again (.commit (World.move_self ..) flushed)

/-- A login that has looked before two others have failed writes its one failure over theirs. -/
theorem failures_lost : ∃ world store, Reaches (FailsLogin .portal) (World.quiet (Store.start 0 2 (oneRow .unmarked)) .idle) world ∧
    FailsLogin .portal world 0 store .idle ∧ store.failures = [0, 0, 0] ∧ ¬ LockedOut Actor.portal.policy store ∧
    (recorded store).failedAttempts < (recorded world.state).failedAttempts := by
  have free : ∀ count, ¬ isLocked (sampleMarks count) 0 := by
    intro count
    simp [isLocked, sampleMarks]
  -- Session 0 looks, then sessions 1 and 2 fail.
  let looked (sessions : Nat → Attempt) (who : Nat) (marks : Marks) := Function.update sessions who (.again (oneLock marks))
  let zeroLooked := looked (fun _ => .idle) 0 .unmarked
  let oneDone := Function.update (looked zeroLooked 1 .unmarked) 1 .idle
  have zero := @row_looked 0 2 .unmarked [] (fun _ => .idle) 0 rfl (by decide)
  have one := @row_looked 0 4 .unmarked [] zeroLooked 1 rfl (by decide)
  have oneFailed := @row_failed 0 6 (oneRow .unmarked) (oneRow (sampleMarks 1)) []
    (looked zeroLooked 1 .unmarked) 1 (oneLock .unmarked) rfl (by decide) rfl
  have two := @row_looked 0 6 (sampleMarks 1) [0] oneDone 2 rfl (free 1)
  have twoFailed := @row_failed 0 8 (oneRow (sampleMarks 1)) (oneRow (sampleMarks 2)) [0]
    (looked oneDone 2 (sampleMarks 1)) 2 (oneLock (sampleMarks 1)) rfl (free 1) rfl
  have ready := Reaches.step (((zero.trans one).trans oneFailed).trans (two.trans twoFailed)) 0 (.record rfl)
  have flushed : (LockState.record (oneLock .unmarked) Actor.portal.policy 0).flush (oneRow (sampleMarks 2)) =
      some (oneRow (sampleMarks 1)) := rfl
  refine ⟨_, _, ready, .commit (World.move_self ..) flushed, rfl, ?_, by decide⟩
  intro locked
  obtain ⟨time, member, lasts⟩ := locked (by decide)
  have lasting := actor_lasting .portal
  obtain ⟨lockedUntil, stored, -⟩ := lasts time (by omega)
  cases stored

end Samples

end Dagmar.Lockout.Proofs
