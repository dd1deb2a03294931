import Dagmar.Transactions
import Dagmar.Proofs.LockSafety

/-! Locks are not overtaken. Whoever changes the facts of an employment holds its
row from before it looks at the locks until it commits; whoever inserts or deletes
a lock holds the row or a share of its key. So what a transaction has read about an
employment it holds is what is committed when it commits. -/

namespace Dagmar.Proofs
open Library Library.Calendar Library.Outcome

section Kept
variable {zone : Zone} {clock : Clock} {db next : Db}

/-- A lock request takes away only the locks of its own rows, and none when it locks. -/
theorem bulk_kept {lockType other : LockType} {rows : List (Int × Option String)} {month : Int × Nat} {locked : Bool}
    {lockedBy : Option String} {key : Int × Int × Nat} (present : (db.locks other).get key ≠ none)
    (mine : locked ∨ key.1 ∉ rows.map Prod.fst) :
    ((setMonthLockStateBulk db lockType rows month locked lockedBy).locks other).get key ≠ none := by
  unfold setMonthLockStateBulk
  split
  · rw [locks_withLocks]
    split
    next same => exact get_putLocks.mpr (.inl (same ▸ present))
    · exact present
  next unlocking =>
    rw [locks_withLocks]
    split
    next same =>
      subst same
      obtain ⟨row, stored⟩ := Option.ne_none_iff_exists'.mp present
      obtain ⟨member, rfl⟩ := Table.get_eq_some_iff.mp stored
      rw [Table.get_of_mem (Table.mem_deleteWhere.mpr ⟨member, ?_⟩)]
      · exact Option.some_ne_none row
      · exact fun chosen => mine.resolve_left unlocking chosen.1
    · exact present

theorem targets_kept {lockType other : LockType} {locked : Bool} {lockedBy : Option String}
    {targets : List ((Int × Nat) × List (Int × Option String))} {key : Int × Int × Nat}
    (present : (db.locks other).get key ≠ none) (mine : ∀ target ∈ targets, key.1 ∉ target.2.map Prod.fst) :
    ((targets.foldl (fun db target => setMonthLockStateBulk db lockType target.2 target.1 locked lockedBy) db).locks
      other).get key ≠ none := by
  induction targets generalizing db with
  | nil => exact present
  | cons target targets ih =>
    exact ih (bulk_kept present (.inr (mine target List.mem_cons_self)))
      fun other member => mine other (List.mem_cons_of_mem _ member)

theorem setLocks_kept {username : Option String} {body : Admin.AdminLockSetIn} {count : Nat}
    (done : Admin.setLocks zone db username body = .ok (next, count)) {lockType : LockType} {key : Int × Int × Nat}
    (present : (db.locks lockType).get key ≠ none) (mine : key.1 ∉ body.employmentIds) :
    (next.locks lockType).get key ≠ none := by
  simp only [Admin.setLocks, bind_eq_ok, raiseIf_eq_ok, require_eq_ok, pure_eq_ok, Prod.mk.injEq] at done
  obtain ⟨_, -, _, -, _, -, months, -, _, -, _, -, targets, chosen, _, -, rfl, -⟩ := done
  have committed (flushed : Db) : (commit zone flushed).locks lockType = flushed.locks lockType := by cases lockType <;> rfl
  rw [committed]
  apply targets_kept present
  intro target kept owner
  obtain ⟨month, inside, found⟩ := mem_of_mapM chosen (List.mem_of_mem_filter kept)
  obtain ⟨rows, built, rfl⟩ := Option.map_eq_some_iff.mp found
  simp only [Admin.monthTargets, Option.bind_eq_bind, Option.bind_eq_some_iff, Option.pure_def, Option.some.injEq] at built
  obtain ⟨⟨start, finish⟩, -, rfl⟩ := built
  simp only [List.map_map, List.mem_map, List.mem_filter, List.mem_filterMap, List.mem_dedup] at owner
  obtain ⟨employment, ⟨⟨id, listed, stored⟩, -⟩, same⟩ := owner
  obtain ⟨-, owner, -⟩ := employment_again stored
  have chosen : id = key.1 := owner.symm.trans same
  exact mine (chosen ▸ listed)

theorem autoLock_kept {count : Nat} (done : autoLockCurrentShiftPlanMonth zone clock db = .ok (next, count))
    {lockType : LockType} {key : Int × Int × Nat} (present : (db.locks lockType).get key ≠ none) :
    (next.locks lockType).get key ≠ none := by
  unfold autoLockCurrentShiftPlanMonth autoLockShiftPlanMonthAt autoLockMonth at done
  dsimp only at done
  split at done
  · simp only [pure_eq_ok, Prod.mk.injEq] at done
    exact done.1 ▸ present
  · simp only [bind_eq_ok, require_eq_ok, pure_eq_ok, Prod.mk.injEq] at done
    obtain ⟨⟨start, finish⟩, -, rfl, -⟩ := done
    have committed (flushed : Db) (runs : Table ShiftPlanAutoLockRun ShiftPlanAutoLockRun.key) :
        (commit zone { flushed with autoLockRuns := runs }).locks lockType = flushed.locks lockType := by
      cases lockType <;> rfl
    rw [committed]
    split
    · exact present
    · exact bulk_kept present (.inl rfl)

end Kept

section Narrow
variable {zone : Zone} {clock : Clock} {view next : Db} {request : Request} {held : List Int}

/-- A transaction changes facts and deletes locks of the employments it holds only. -/
structure Narrow (view next : Db) (held : List Int) : Prop where
  events : ∀ event : AttendanceEvent, event.employmentId ∉ held → (event ∈ next.events ↔ event ∈ view.events)
  attendance : ∀ row : Attendance, row.employmentId ∉ held → (row ∈ next.attendance ↔ row ∈ view.attendance)
  plans : ∀ plan : ShiftPlan, plan.employmentId ∉ held → (plan ∈ next.shiftPlans ↔ plan ∈ view.shiftPlans)
  locks : ∀ lockType key, key.1 ∉ held → (view.locks lockType).get key ≠ none → (next.locks lockType).get key ≠ none
  grows : view.nextEventId ≤ next.nextEventId
  named : ∀ event ∈ next.events, event ∉ view.events → view.nextEventId ≤ event.id ∧ event.id < next.nextEventId ∨
    ∃ old ∈ view.events, old.id = event.id ∧ old.employmentId = event.employmentId

theorem Narrow.refl (view : Db) (held : List Int) : Narrow view view held :=
  ⟨fun _ _ => Iff.rfl, fun _ _ => Iff.rfl, fun _ _ => Iff.rfl, fun _ _ _ present => present, le_rfl,
    fun _ member fresh => absurd member fresh⟩

theorem EventsChanged.narrow {employment : Employment} {writes : List Timestamp} (mine : employment.id ∈ held)
    (changed : EventsChanged zone clock view next writes employment) : Narrow view next held := by
  refine ⟨?_, ?_, ?_, ?_, changed.numbered.grows, ?_⟩
  · intro event other
    constructor
    · intro member
      by_contra fresh
      exact other ((changed.added event member fresh).1 ▸ mine)
    · intro member
      by_contra missing
      exact other ((changed.removed event member missing).1 ▸ mine)
  · intro row _
    rw [changed.frame]
  · intro plan _
    rw [changed.frame]
  · intro lockType key _ present
    rw [changed.frame]
    cases lockType <;> exact present
  · intro event member fresh
    rw [(changed.added event member fresh).1]
    exact changed.numbered.named event member fresh

theorem DayFlush.narrow {employment : Employment} {date : Int} (mine : employment.id ∈ held)
    (flush : DayFlush zone clock view next employment date) : Narrow view next held := by
  refine ⟨?_, ?_, ?_, ?_, ?_, ?_⟩
  · intro event other
    refine ⟨flush.events event, ?_⟩
    intro member
    by_contra missing
    exact other ((flush.removed event member missing).1 ▸ mine)
  · intro row other
    exact flush.attendance row fun same => other ((Prod.mk.inj same).1 ▸ mine)
  · intro plan other
    exact flush.plans plan fun same => other ((Prod.mk.inj same).1 ▸ mine)
  · intro lockType key _ present
    rw [flush.frame]
    cases lockType <;> exact present
  · rw [flush.frame]
  · intro event member fresh
    exact absurd (flush.events event member) fresh

theorem factChange_narrow {subject : Int} {writes : List Timestamp} (rested : Rested zone view)
    (change : FactChange zone clock view next subject writes) (mine : subject ∈ held) : Narrow view next held := by
  cases change with
  | nothing same => exact same ▸ Narrow.refl view held
  | events committed =>
    obtain ⟨employment, changed, rfl⟩ := committed.changed rested
    exact changed.narrow mine
  | day committed =>
    obtain ⟨employment, date, flushed, flush, frame, rfl⟩ := committed.changed rested
    obtain ⟨events, attendance, plans, locks, grows, named⟩ := flush.narrow mine
    rw [frame]
    refine ⟨events, attendance, plans, ?_, grows, named⟩
    intro lockType key other present
    have kept := locks lockType key other present
    cases lockType <;> exact kept

theorem MonthsCommit.narrow (rested : Rested zone view) (committed : MonthsCommit zone view next)
    (locks : ∀ lockType key, key.1 ∉ held → (view.locks lockType).get key ≠ none → (next.locks lockType).get key ≠ none) :
    Narrow view next held := by
  have frame := (committed.changed rested).frame
  refine ⟨?_, ?_, ?_, locks, ?_, ?_⟩
  · intro event _
    rw [frame]
  · intro row _
    rw [frame]
  · intro plan _
    rw [frame]
  · rw [frame]
  · intro event member fresh
    rw [frame] at member
    exact absurd member fresh

/-- The employments that a transaction holds when it has taken all its locks. -/
def Covered (view : Db) (request : Request) (held : List Int) : Prop :=
  (∀ subject ∈ request.subject view, subject ∈ held) ∧
    ∀ username body, request = .setLocks username body → ∀ id ∈ body.employmentIds, id ∈ held

/-- The requests that run as the transactions of this system. -/
def Request.Transacted : Request → Prop
  | .createEmployment _ _ => False
  | .updateEmployment _ _ => False
  | .setShiftPlanSelection _ => False
  | _ => True

theorem narrow_of_handle (rested : Rested zone view) (done : request.handle zone clock view = .ok next)
    (transacted : Request.Transacted request) (covered : Covered view request held) : Narrow view next held := by
  cases request with
  | createEmployment userId payload => cases transacted
  | updateEmployment employmentId payload => cases transacted
  | setShiftPlanSelection body => cases transacted
  | setLocks username body =>
    obtain ⟨_, handled⟩ := answered done
    refine (setLocks_commit handled).narrow rested ?_
    intro lockType key other present
    exact setLocks_kept handled present fun chosen => other (covered.2 username body rfl _ chosen)
  | autoLock =>
    obtain ⟨_, handled⟩ := answered done
    rcases autoLock_commit handled with same | committed
    · exact same ▸ Narrow.refl view held
    · exact committed.narrow rested fun _ _ _ present => autoLock_kept handled present
  | _ =>
    obtain ⟨subject, found, change⟩ := factChange_of_handle done trivial
    exact factChange_narrow rested change (covered.1 subject found)

end Narrow

section Committed

/-- The two databases hold the same facts about an employment. -/
structure AgreeOn (first second : Db) (employmentId : Int) : Prop where
  events : ∀ event : AttendanceEvent, event.employmentId = employmentId → (event ∈ first.events ↔ event ∈ second.events)
  attendance : ∀ row : Attendance, row.employmentId = employmentId → (row ∈ first.attendance ↔ row ∈ second.attendance)
  plans : ∀ plan : ShiftPlan, plan.employmentId = employmentId → (plan ∈ first.shiftPlans ↔ plan ∈ second.shiftPlans)

def SameLocks (first second : Db) (employmentId : Int) : Prop :=
  ∀ lockType month, isMonthLocked first lockType employmentId month ↔ isMonthLocked second lockType employmentId month

theorem AgreeOn.trans {first second third : Db} {employmentId : Int} (left : AgreeOn first second employmentId)
    (right : AgreeOn second third employmentId) : AgreeOn first third employmentId :=
  ⟨fun event owner => (left.events event owner).trans (right.events event owner),
    fun row owner => (left.attendance row owner).trans (right.attendance row owner),
    fun plan owner => (left.plans plan owner).trans (right.plans plan owner)⟩

theorem AgreeOn.symm {first second : Db} {employmentId : Int} (same : AgreeOn first second employmentId) :
    AgreeOn second first employmentId :=
  ⟨fun event owner => (same.events event owner).symm, fun row owner => (same.attendance row owner).symm,
    fun plan owner => (same.plans plan owner).symm⟩

/-- The rules of a day are about the facts of its employment. -/
theorem AgreeOn.legal {first second : Db} {employmentId date : Int} (same : AgreeOn first second employmentId)
    (legal : DayLegal second employmentId date) : DayLegal first employmentId date := by
  apply legal.of_subset
  · exact fun event member owner => (same.events event owner).mp member
  · exact fun row member key => (same.attendance row (Prod.mk.inj key).1).mp member
  · exact fun plan member key => (same.plans plan (Prod.mk.inj key).1).mp member

structure Patched (db before after state : Db) : Prop where
  events : db.events.patch before.events after.events = some state.events
  attendance : db.attendance.patch before.attendance after.attendance = some state.attendance
  plans : db.shiftPlans.patch before.shiftPlans after.shiftPlans = some state.shiftPlans
  locks : ∀ lockType, (db.locks lockType).patch (before.locks lockType) (after.locks lockType) = some (state.locks lockType)
  count : state.nextEventId = after.nextEventId

theorem patch_ok {db before after state : Db} (patched : db.patch before after = some state) :
    Patched db before after state := by
  simp only [Db.patch, Option.bind_eq_bind, Option.bind_eq_some_iff, Option.pure_def, Option.some.injEq] at patched
  obtain ⟨table, events, again, flushed, attendance, first, plans, second, metrics, -, locks, third, planLocks, fourth,
    runs, -, rfl⟩ := patched
  have same : again = table := Table.ext (flushEvents_rows flushed)
  refine ⟨same ▸ events, first, second, ?_, rfl⟩
  intro lockType
  cases lockType with
  | attendance => exact third
  | shiftPlan => exact fourth

variable {db view next state : Db} {held shared : List Int} {employmentId : Int}

/-- The facts of an employment that the transaction holds are committed as it left them. -/
theorem Patched.own (patched : Patched db view next state) (agreed : AgreeOn view db employmentId) :
    AgreeOn state next employmentId :=
  ⟨fun event owner => Table.mem_patch_of_agreed patched.events (agreed.events event owner),
    fun row owner => Table.mem_patch_of_agreed patched.attendance (agreed.attendance row owner),
    fun plan owner => Table.mem_patch_of_agreed patched.plans (agreed.plans plan owner)⟩

/-- The facts of any other employment stay as they were committed. -/
theorem Patched.other (patched : Patched db view next state) (narrow : Narrow view next held)
    (agreed : ∀ id ∈ held, AgreeOn view db id) (other : employmentId ∉ held) : AgreeOn state db employmentId := by
  refine ⟨?_, ?_, ?_⟩
  · intro event owner
    subst owner
    apply Table.mem_patch_of_untouched patched.events (narrow.events event other).mp
    intro stored touched
    -- The overwritten event belongs to an employment that is held, so it still is the committed one of its number.
    obtain ⟨old, present, missing, same⟩ := Table.mem_overwritten.mp touched
    have mine : old.employmentId ∈ held := by
      by_contra foreign
      exact missing ((narrow.events old foreign).mpr present)
    have committed := ((agreed _ mine).events old rfl).mp present
    exact other (db.events.key_inj committed stored same ▸ mine)
  · intro row owner
    subst owner
    apply Table.mem_patch_of_untouched patched.attendance (narrow.attendance row other).mp
    intro _ touched
    obtain ⟨old, present, missing, same⟩ := Table.mem_overwritten.mp touched
    have owner : old.employmentId = row.employmentId := (Prod.mk.inj same).1
    exact missing ((narrow.attendance old (owner ▸ other)).mpr present)
  · intro plan owner
    subst owner
    apply Table.mem_patch_of_untouched patched.plans (narrow.plans plan other).mp
    intro _ touched
    obtain ⟨old, present, missing, same⟩ := Table.mem_overwritten.mp touched
    have owner : old.employmentId = plan.employmentId := (Prod.mk.inj same).1
    exact missing ((narrow.plans old (owner ▸ other)).mpr present)

/-- Locks come and go only for employments that the transaction holds or shares. -/
theorem Patched.locked (patched : Patched db view next state) (narrow : Narrow view next held)
    (keyed : ∀ id, Inserts view next id → id ∈ held ∨ id ∈ shared) (other : employmentId ∉ held)
    (unshared : employmentId ∉ shared) : SameLocks state db employmentId := by
  intro lockType month
  apply Table.get_patch_ne_none (patched.locks lockType)
  constructor
  · intro absent
    by_contra inserted
    obtain ⟨row, stored⟩ := Option.ne_none_iff_exists'.mp inserted
    obtain ⟨member, key⟩ := Table.get_eq_some_iff.mp stored
    have owner : row.employmentId = employmentId := (Prod.mk.inj key).1
    rcases keyed row.employmentId (.lock member (key ▸ absent)) with mine | mine
    · exact other (owner ▸ mine)
    · exact unshared (owner ▸ mine)
  · intro absent
    by_contra present
    exact narrow.locks lockType (employmentId, month.1, month.2) other present absent

/-- What the other sessions see of a commit: the employments they hold are untouched, and a
number they know is not given to an event of another employment. -/
structure Unnoticed (db state : Db) (held shared : List Int) : Prop where
  facts : ∀ id, id ∉ held → AgreeOn state db id
  locks : ∀ id, id ∉ held → id ∉ shared → SameLocks state db id
  grows : db.nextEventId ≤ state.nextEventId
  named : ∀ event ∈ state.events, db.nextEventId ≤ event.id ∧ event.id < state.nextEventId ∨
    ∃ old ∈ db.events, old.id = event.id ∧ old.employmentId = event.employmentId

theorem Patched.unnoticed (patched : Patched db view next state) (narrow : Narrow view next held)
    (agreed : ∀ id ∈ held, AgreeOn view db id) (keyed : ∀ id, Inserts view next id → id ∈ held ∨ id ∈ shared)
    (unused : db.nextEventId ≤ view.nextEventId) : Unnoticed db state held shared := by
  refine ⟨fun id other => patched.other narrow agreed other, fun id => patched.locked narrow keyed, ?_, ?_⟩
  · rw [patched.count]
    exact le_trans unused narrow.grows
  · intro event member
    rcases (Table.mem_patch patched.events).mp member with kept | new
    · exact .inr ⟨event, kept.1, rfl, rfl⟩
    · rcases narrow.named event new.1 new.2 with fresh | ⟨old, present, same, owner⟩
      · rw [patched.count]
        exact .inl ⟨le_trans unused fresh.1, fresh.2⟩
      · have mine : event.employmentId ∈ held := by
          by_contra foreign
          exact new.2 ((narrow.events event foreign).mp new.1)
        exact .inr ⟨old, ((agreed _ (owner ▸ mine)).events old rfl).mp present, same, owner⟩

end Committed

section Invariant
variable {zone : Zone}

/-- The employments a transaction locks are those its request is about, and stay so. -/
structure Addressed (db : Db) (request : Request) (ids : List Int) : Prop where
  transacted : Request.Transacted request
  employment : ∀ id, request.address = some (.employment id) → id ∈ ids
  event : ∀ id, request.address = some (.event id) → id < db.nextEventId ∧
    ∀ event ∈ db.events, event.id = id → event.employmentId ∈ ids
  listed : ∀ username body, request = .setLocks username body → ∀ id ∈ body.employmentIds, id ∈ ids

/-- What a transaction has read about the employments it holds is still committed. -/
structure Seen (zone : Zone) (db view : Db) (request : Request) (held : List Int) : Prop where
  rested : Rested zone view
  modern : ∀ lockType, ∀ row ∈ view.locks lockType, Modern row.year row.month
  named : ∀ id, request.address = some (.event id) → ∀ event ∈ view.events, event.id = id → event.employmentId ∈ held
  facts : ∀ id ∈ held, AgreeOn view db id
  locks : ∀ id ∈ held, SameLocks view db id

def Session.Sound (zone : Zone) (db : Db) : Session → Prop
  | .idle => True
  | .locking call held waiting => Addressed db call.request (held ++ waiting)
  | .writing call held _ view => Addressed db call.request held ∧ Seen zone db view call.request held

structure Orderly (zone : Zone) (world : World Db Session) : Prop where
  lockable : Lockable zone world.state
  numbered : ∀ event ∈ world.state.events, event.id < world.state.nextEventId
  exclusive : Exclusive Session.Holds Session.Shares world
  sound : ∀ who, Session.Sound zone world.state (world.sessions who)

variable {db state view : Db} {request : Request} {held shared ids : List Int}

theorem Addressed.of_lockOrder {order : List Int} (numbered : ∀ event ∈ db.events, event.id < db.nextEventId)
    (found : request.lockOrder db = some order) : Addressed db request order := by
  have subject {address : Address} (named : request.address = some address) (facts : Request.OfFacts request) :
      ∃ id, address.subject db = some id ∧ order = [id] := by
    have order : (request.subject db).map (fun id => [id]) = some order := by
      cases request <;> first | exact found | cases facts
    obtain ⟨id, resolved, rfl⟩ := Option.map_eq_some_iff.mp order
    rw [Request.subject, named, Option.bind_some] at resolved
    exact ⟨id, resolved, rfl⟩
  have facts {address : Address} (named : request.address = some address) : Request.OfFacts request := by
    cases request <;> trivial
  refine ⟨?_, ?_, ?_, ?_⟩
  · cases request <;> trivial
  · intro id named
    obtain ⟨_, same, rfl⟩ := subject named (facts named)
    cases same
    exact List.mem_singleton_self id
  · intro id named
    obtain ⟨_, resolved, rfl⟩ := subject named (facts named)
    obtain ⟨event, stored, rfl⟩ := Option.map_eq_some_iff.mp resolved
    obtain ⟨member, rfl⟩ := Table.get_eq_some_iff.mp stored
    refine ⟨numbered event member, ?_⟩
    intro other present same
    rw [db.events.key_inj present member same]
    exact List.mem_singleton_self _
  · rintro username body rfl id listed
    obtain rfl := Option.some.inj found
    rw [List.mem_insertionSort, List.mem_dedup]
    exact listed

theorem Addressed.unnoticed {others othersShared : List Int} (addressed : Addressed db request ids)
    (change : Unnoticed db state others othersShared) : Addressed state request ids := by
  refine ⟨addressed.transacted, addressed.employment, ?_, addressed.listed⟩
  intro id named
  obtain ⟨bound, owners⟩ := addressed.event id named
  refine ⟨lt_of_lt_of_le bound change.grows, ?_⟩
  rintro event member rfl
  rcases change.named event member with fresh | ⟨old, present, same, owner⟩
  · omega
  · rw [← owner]
    exact owners old present same

theorem Seen.unnoticed {others othersShared : List Int} (seen : Seen zone db view request held)
    (change : Unnoticed db state others othersShared) (foreign : ∀ id ∈ held, id ∉ others ∧ id ∉ othersShared) :
    Seen zone state view request held := by
  refine ⟨seen.rested, seen.modern, seen.named, ?_, ?_⟩
  · intro id mine
    exact (seen.facts id mine).trans (change.facts id (foreign id mine).1).symm
  · intro id mine lockType month
    obtain ⟨unheld, unshared⟩ := foreign id mine
    exact (seen.locks id mine lockType month).trans (change.locks id unheld unshared lockType month).symm

theorem Seen.start (lockable : Lockable zone db) (addressed : Addressed db request held) :
    Seen zone db db request held :=
  ⟨lockable.rested, lockable.modern, fun id named => (addressed.event id named).2,
    fun _ _ => ⟨fun _ _ => Iff.rfl, fun _ _ => Iff.rfl, fun _ _ => Iff.rfl⟩, fun _ _ _ _ => Iff.rfl⟩

theorem locks_reread (view db : Db) (selection : Selection) (lockType : LockType) :
    (view.reread db selection).locks lockType =
      (view.locks lockType).refresh (db.locks lockType) (selection.locks lockType ·) := by
  cases lockType <;> rfl

theorem Seen.reread (lockable : Lockable zone db) (addressed : Addressed db request held)
    (seen : Seen zone db view request held) (selection : Selection) :
    Seen zone db (view.reread db selection) request held := by
  have either {p q r : Prop} (same : p ↔ q) : (p ∧ ¬ r ∨ q ∧ r) ↔ q := by tauto
  refine ⟨?_, ?_, ?_, ?_, ?_⟩
  · intro event member
    rcases Table.mem_refresh.mp member with old | new
    · exact seen.rested event old.1
    · exact lockable.rested event new.1
  · intro lockType row member
    rw [locks_reread] at member
    rcases Table.mem_refresh.mp member with old | new
    · exact seen.modern lockType row old.1
    · exact lockable.modern lockType row new.1
  · intro id named event member
    rcases Table.mem_refresh.mp member with old | new
    · exact seen.named id named event old.1
    · exact (addressed.event id named).2 event new.1
  · intro id mine
    have agreed := seen.facts id mine
    exact ⟨fun event owner => Table.mem_refresh.trans (either (agreed.events event owner)),
      fun row owner => Table.mem_refresh.trans (either (agreed.attendance row owner)),
      fun plan owner => Table.mem_refresh.trans (either (agreed.plans plan owner))⟩
  · intro id mine lockType month
    have agreed := seen.locks id mine lockType month
    unfold isMonthLocked at agreed ⊢
    rw [locks_reread, Table.get_refresh]
    split
    · exact Iff.rfl
    · exact agreed

theorem Seen.covered (addressed : Addressed db request held) (seen : Seen zone db view request held) :
    Covered view request held := by
  refine ⟨?_, addressed.listed⟩
  intro subject found
  obtain ⟨address, named, resolved⟩ := Option.bind_eq_some_iff.mp found
  cases address with
  | employment id =>
    obtain rfl := Option.some.inj resolved
    exact addressed.employment _ named
  | event id =>
    obtain ⟨event, stored, rfl⟩ := Option.map_eq_some_iff.mp resolved
    obtain ⟨member, same⟩ := Table.get_eq_some_iff.mp stored
    exact seen.named id named event member same

theorem Seen.renumber (seen : Seen zone db view request held) (number : Int) :
    Seen zone db { view with nextEventId := number } request held := by
  refine ⟨seen.rested, ?_, seen.named, ?_, ?_⟩
  · intro lockType row member
    apply seen.modern lockType row
    cases lockType <;> exact member
  · intro id mine
    exact ⟨(seen.facts id mine).events, (seen.facts id mine).attendance, (seen.facts id mine).plans⟩
  · intro id mine lockType month
    have agreed := seen.locks id mine lockType month
    cases lockType <;> exact agreed

theorem Session.Sound.unnoticed {session : Session} {others othersShared : List Int} (sound : Session.Sound zone db session)
    (change : Unnoticed db state others othersShared)
    (foreign : ∀ id, session.Holds id → id ∉ others ∧ id ∉ othersShared) : Session.Sound zone state session := by
  cases session with
  | idle => trivial
  | locking call held waiting => exact Addressed.unnoticed sound change
  | writing call held shared view => exact ⟨sound.1.unnoticed change, sound.2.unnoticed change foreign⟩

/-- A step that commits nothing keeps the order when it waits for the locks it takes. -/
theorem Orderly.move {world : World Db Session} (orderly : Orderly zone world) {who : Nat} {session : Session}
    (held : ∀ id, session.Holds id → (world.sessions who).Holds id ∨
      Available Session.Holds world who id ∧ Available Session.Shares world who id)
    (shared : ∀ id, session.Shares id → (world.sessions who).Shares id ∨ (world.sessions who).Holds id ∨
      Available Session.Holds world who id)
    (sound : Session.Sound zone world.state session) : Orderly zone (world.move who world.state session) :=
  ⟨orderly.lockable, orderly.numbered, orderly.exclusive.move held shared,
    World.forall_move (Session.Sound zone world.state) sound fun other _ => orderly.sound other⟩

end Invariant

section Steps
variable {zone : Zone} {world : World Db Session} {who : Nat} {call : Call} {held shared : List Int}
  {view next state : Db} {number : Int}

/-- Everything that is known of a transaction when it commits. -/
structure Commits (zone : Zone) (world : World Db Session) (call : Call) (held shared : List Int) (view next state : Db) :
    Prop where
  seen : Seen zone world.state view call.request held
  covered : Covered view call.request held
  narrow : Narrow view next held
  patched : Patched world.state view next state
  unnoticed : Unnoticed world.state state held shared
  transition : Transition zone call.clock view next (Request.writes zone view call.request)

theorem Orderly.commits (orderly : Orderly zone world) (now : world.sessions who = .writing call held shared view)
    (unused : world.state.nextEventId ≤ number)
    (handled : call.request.handle zone call.clock { view with nextEventId := number } = .ok next)
    (keyed : ∀ id, Inserts view next id → id ∈ held ∨ id ∈ shared)
    (patched : world.state.patch { view with nextEventId := number } next = some state) :
    Commits zone world call held shared { view with nextEventId := number } next state := by
  have sound := orderly.sound who
  rw [now] at sound
  obtain ⟨addressed, seen⟩ := sound
  have seen' := seen.renumber number
  have covered := seen'.covered addressed
  have narrow := narrow_of_handle seen'.rested handled addressed.transacted covered
  have patch := patch_ok patched
  have keyed' : ∀ id, Inserts { view with nextEventId := number } next id → id ∈ held ∨ id ∈ shared := by
    intro id inserts
    apply keyed
    cases inserts with
    | event present new => exact .event present new
    | attendance present new => exact .attendance present new
    | shiftPlan present new => exact .shiftPlan present new
    | metric present new => exact .metric present new
    | @lock lockType row present new => exact .lock present (by cases lockType <;> exact new)
  exact ⟨seen', covered, narrow, patch, patch.unnoticed narrow seen'.facts keyed' unused, transition_of_handle handled⟩

theorem Commits.legal (lockable : Lockable zone world.state) (commits : Commits zone world call held shared view next state)
    (employmentId date : Int) (late : ordinal 1917 1 1 ≤ date) : DayLegal state employmentId date := by
  have before := lockable.legal employmentId date late
  by_cases mine : employmentId ∈ held
  · have agreed := commits.seen.facts employmentId mine
    have after : DayLegal next employmentId date := by
      refine commits.transition.legal commits.seen.rested ?_ (agreed.legal before)
      intro time written back
      exact (placed_writes zone view call.request time written).keepsDay (back ▸ late)
    exact (commits.patched.own agreed).legal after
  · exact (commits.unnoticed.facts employmentId mine).legal before

theorem Commits.lockable (lockable : Lockable zone world.state)
    (commits : Commits zone world call held shared view next state) : Lockable zone state := by
  refine ⟨?_, ?_, commits.legal lockable⟩
  · intro event member
    rcases (Table.mem_patch commits.patched.events).mp member with kept | new
    · exact lockable.rested event kept.1
    · exact commits.transition.rested commits.seen.rested event new.1
  · intro lockType row member
    rcases (Table.mem_patch (commits.patched.locks lockType)).mp member with kept | new
    · exact lockable.modern lockType row kept.1
    · exact commits.transition.modern commits.seen.rested commits.seen.modern lockType row new.1

theorem Orderly.commit (orderly : Orderly zone world) (now : world.sessions who = .writing call held shared view)
    (commits : Commits zone world call held shared { view with nextEventId := number } next state) :
    Orderly zone (world.move who state .idle) := by
  refine ⟨commits.lockable orderly.lockable, ?_, orderly.exclusive.move (fun _ => False.elim) (fun _ => False.elim), ?_⟩
  · intro event member
    rcases commits.unnoticed.named event member with fresh | ⟨old, present, same, -⟩
    · exact fresh.2
    · rw [← same]
      exact lt_of_lt_of_le (orderly.numbered old present) commits.unnoticed.grows
  · refine World.forall_move (Session.Sound zone state) ?_ ?_
    · trivial
    intro other different
    apply (orderly.sound other).unnoticed commits.unnoticed
    intro id holds
    have apart := orderly.exclusive other who different id holds
    rw [now] at apart
    exact apart

theorem Orderly.step (orderly : Orderly zone world) {session : Session}
    (allowed : Transacts zone world who state session) : Orderly zone (world.move who state session) := by
  have sound := orderly.sound who
  cases allowed with
  | start now found =>
    exact orderly.move (fun _ => fun holds => by cases holds) (fun _ => False.elim)
      (Addressed.of_lockOrder orderly.numbered found)
  | @lock call held waiting id now free unshared =>
    rw [now] at sound
    refine orderly.move ?_ (fun _ => False.elim) ?_
    · intro other holds
      rcases List.mem_cons.mp holds with rfl | before
      · exact .inr ⟨free, unshared⟩
      · rw [now]
        exact .inl before
    · obtain ⟨transacted, employment, event, listed⟩ := sound
      have moved (other : Int) : other ∈ held ++ id :: waiting → other ∈ id :: held ++ waiting := by
        simp only [List.mem_append, List.mem_cons, List.cons_append]
        tauto
      exact ⟨transacted, fun other named => moved other (employment other named),
        fun other named => ⟨(event other named).1, fun row member same => moved _ ((event other named).2 row member same)⟩,
        fun username body same other chosen => moved other (listed username body same other chosen)⟩
  | @locked call held now =>
    rw [now, Session.Sound, List.append_nil] at sound
    have addressed : Addressed world.state call.request held := sound
    refine orderly.move ?_ (fun _ holds => by cases holds) ⟨addressed, Seen.start orderly.lockable addressed⟩
    intro id holds
    rw [now]
    exact .inl holds
  | read now selection =>
    rw [now] at sound
    refine orderly.move ?_ ?_ ⟨sound.1, sound.2.reread orderly.lockable sound.1 selection⟩
    · intro id holds
      rw [now]
      exact .inl holds
    · intro id shares
      rw [now]
      exact .inl shares
  | share now free =>
    rw [now] at sound
    refine orderly.move ?_ ?_ sound
    · intro id holds
      rw [now]
      exact .inl holds
    · intro id shares
      rcases List.mem_cons.mp shares with rfl | before
      · exact .inr (.inr free)
      · rw [now]
        exact .inl before
  | commit now unused handled keyed patched =>
    exact orderly.commit now (orderly.commits now unused handled keyed patched)
  | abort => exact orderly.move (fun _ => False.elim) (fun _ => False.elim) trivial

theorem Commits.keepsLocked (lockable : Lockable zone world.state)
    (commits : Commits zone world call held shared view next state) (facts : Request.OfFacts call.request)
    (handled : call.request.handle zone call.clock view = .ok next) (employmentId : Int) (month : Int × Nat) :
    KeepsLocked world.state state employmentId month := by
  obtain ⟨subject, found, change⟩ := factChange_of_handle handled facts
  have mine := commits.covered.1 subject found
  have legal (date : Int) (late : ordinal 1917 1 1 ≤ date) : DayLegal view subject date :=
    (commits.seen.facts subject mine).legal (lockable.legal subject date late)
  have kept : KeepsLocked view next employmentId month :=
    factChange_keepsLocked commits.seen.rested commits.seen.modern legal change
  by_cases held : employmentId ∈ held
  · have before := commits.seen.facts employmentId held
    have locks := commits.seen.locks employmentId held
    have after := commits.patched.own before
    refine ⟨?_, ?_, ?_⟩
    · intro locked event owner inside
      rw [after.events event owner, kept.events ((locks _ _).mpr locked) event owner inside, before.events event owner]
    · intro locked row owner inside
      rw [after.attendance row owner, kept.attendance ((locks _ _).mpr locked) row owner inside,
        before.attendance row owner]
    · intro locked plan owner inside
      rw [after.plans plan owner, kept.plans ((locks _ _).mpr locked) plan owner inside, before.plans plan owner]
  · have same := commits.unnoticed.facts employmentId held
    exact ⟨fun _ event owner _ => same.events event owner, fun _ row owner _ => same.attendance row owner,
      fun _ plan owner _ => same.plans plan owner⟩

end Steps

section Runs
variable {zone : Zone} {clock : Clock} {db next : Db} {writes : List Timestamp}

theorem Transition.numbered (rested : Rested zone db) (transition : Transition zone clock db next writes)
    (numbered : ∀ event ∈ db.events, event.id < db.nextEventId) : ∀ event ∈ next.events, event.id < next.nextEventId := by
  cases transition with
  | facts changed =>
    obtain ⟨-, -, -, -, grows, named⟩ := factChange_narrow rested changed (List.mem_singleton_self _)
    intro event member
    by_cases kept : event ∈ db.events
    · exact lt_of_lt_of_le (numbered event kept) grows
    · rcases named event member kept with fresh | ⟨old, present, same, -⟩
      · exact fresh.2
      · rw [← same]
        exact lt_of_lt_of_le (numbered old present) grows
  | months committed =>
    rw [(committed.changed rested).frame]
    exact numbered
  | hired committed =>
    obtain ⟨employment, -, frame, -⟩ := committed.changed rested
    rw [frame]
    exact numbered
  | revised committed =>
    obtain ⟨employment, updated, flushed, revision, frame, -⟩ := committed.changed rested
    rw [frame]
    intro event member
    have count : flushed.nextEventId = db.nextEventId := by rw [revision.frame]
    exact count ▸ numbered event (revision.events event member).1

theorem run_numbered (zone : Zone) (users : Table PortalUser PortalUser.id) (employments : Table Employment Employment.id)
    (nextEmploymentId : Int) (calls : List Call) :
    Rested zone (run zone (Db.blank users employments nextEmploymentId) calls) ∧
      ∀ event ∈ (run zone (Db.blank users employments nextEmploymentId) calls).events,
        event.id < (run zone (Db.blank users employments nextEmploymentId) calls).nextEventId := by
  apply run_always fun db => Rested zone db ∧ ∀ event ∈ db.events, event.id < db.nextEventId
  · refine ⟨(blank_contained zone users employments nextEmploymentId).1.1, ?_⟩
    intro event member
    cases member
  · rintro db call next ⟨rested, numbered⟩ done
    have transition := transition_of_handle done
    exact ⟨transition.rested rested, transition.numbered rested numbered⟩

theorem run_orderly (zone : Zone) (users : Table PortalUser PortalUser.id) (employments : Table Employment Employment.id)
    (nextEmploymentId : Int) (calls : List Call) :
    Orderly zone (World.quiet (run zone (Db.blank users employments nextEmploymentId) calls) .idle) :=
  ⟨run_lockable zone users employments nextEmploymentId calls,
    (run_numbered zone users employments nextEmploymentId calls).2, fun _ _ _ _ => False.elim, fun _ => trivial⟩

/-- Locks are not overtaken: from any state that requests lead to, in any interleaving of
transactions, a step of a transaction about events, plans or statuses leaves the events and
attendance rows of every month as they are that carries an attendance lock when the step is
taken, and the plans of every month that carries a plan lock. -/
theorem locks_not_overtaken (zone : Zone) (users : Table PortalUser PortalUser.id)
    (employments : Table Employment Employment.id) (nextEmploymentId : Int) (calls : List Call) {world : World Db Session}
    (reached : Reaches (Transacts zone)
      (World.quiet (run zone (Db.blank users employments nextEmploymentId) calls) .idle) world)
    {who : Nat} {state : Db} {session : Session} (allowed : Transacts zone world who state session)
    (mutation : ∀ call held shared view, world.sessions who = .writing call held shared view → Request.OfFacts call.request)
    (employmentId : Int) (month : Int × Nat) : KeepsLocked world.state state employmentId month := by
  have orderly := reached.keeps (Orderly zone) (run_orderly zone users employments nextEmploymentId calls)
    fun _ _ _ _ orderly allowed => orderly.step allowed
  cases allowed with
  | commit now unused handled keyed patched =>
    exact (orderly.commits now unused handled keyed patched).keepsLocked orderly.lockable (mutation _ _ _ _ now) handled
      employmentId month
  | _ => exact KeepsLocked.refl _

/-- The attendance of August 2026 is locked, and a transaction that plans a shift in it has its lock. -/
def lockedDb : Db := run sampleZone (Db.blank sampleDb.users sampleDb.employments 2) sampleLock

def planCall : Call := ⟨sampleClock, .adminUpsertShiftPlan samplePlan⟩

def planAddressed : World Db Session := (World.quiet lockedDb .idle).move 0 lockedDb (.locking planCall [] [1])

def planLocked : World Db Session := planAddressed.move 0 lockedDb (.locking planCall [1] [])

def planWorld : World Db Session := planLocked.move 0 lockedDb (.writing planCall [1] [] lockedDb)

theorem planWorld_reached : Reaches (Transacts sampleZone) (World.quiet lockedDb .idle) planWorld := by
  have alone (mode : Session → Int → Prop) (idle : ∀ id, ¬ mode .idle id) : Available mode planAddressed 0 1 := by
    intro other different
    rw [planAddressed, World.move_other different]
    exact idle 1
  have addressed : Reaches (Transacts sampleZone) (World.quiet lockedDb .idle) planAddressed :=
    Reaches.step .refl 0 (.start rfl rfl)
  have locked : Reaches (Transacts sampleZone) (World.quiet lockedDb .idle) planLocked :=
    addressed.step 0 (.lock (World.move_self _ _ _ _) (alone Session.Holds fun _ => id) (alone Session.Shares fun _ => id))
  exact locked.step 0 (.locked (World.move_self _ _ _ _))

theorem handled_step {call : Call} (accepted : (call.request.handle zone call.clock db).toOption.isSome) :
    call.request.handle zone call.clock db = .ok (step zone db call) := by
  unfold step
  split
  next next done => exact done
  next done =>
    rw [done] at accepted
    cases accepted

theorem planCall_commits : ∃ state, Transacts sampleZone planWorld 0 state .idle ∧ state.shiftPlans.rows.length = 1 := by
  have accepted : planCall.request.handle sampleZone planCall.clock lockedDb = .ok (step sampleZone lockedDb planCall) :=
    handled_step (by decide +kernel)
  obtain ⟨state, patched⟩ := Option.isSome_iff_exists.mp
    (show (lockedDb.patch lockedDb (step sampleZone lockedDb planCall)).isSome by decide +kernel)
  have planned : (state.shiftPlans.rows.length = 1) := by
    have count : ((lockedDb.patch lockedDb (step sampleZone lockedDb planCall)).map fun db =>
        db.shiftPlans.rows.length) = some 1 := by decide +kernel
    rw [patched] at count
    exact Option.some.inj count
  refine ⟨state, .commit (World.move_self _ _ _ _) le_rfl accepted ?_ patched, planned⟩
  intro id inserts
  left
  rw [List.mem_singleton]
  have owners : (∀ row ∈ (step sampleZone lockedDb planCall).events, row.employmentId = 1) ∧
      (∀ row ∈ (step sampleZone lockedDb planCall).attendance, row.employmentId = 1) ∧
      (∀ row ∈ (step sampleZone lockedDb planCall).shiftPlans, row.employmentId = 1) ∧
      (∀ row ∈ (step sampleZone lockedDb planCall).metrics, row.employmentId = 1) ∧
      ∀ lockType, ∀ row ∈ (step sampleZone lockedDb planCall).locks lockType, row.employmentId = 1 := by
    refine ⟨?_, ?_, ?_, ?_, ?_⟩
    · exact show ∀ row ∈ (step sampleZone lockedDb planCall).events.rows, row.employmentId = 1 by decide +kernel
    · exact show ∀ row ∈ (step sampleZone lockedDb planCall).attendance.rows, row.employmentId = 1 by decide +kernel
    · exact show ∀ row ∈ (step sampleZone lockedDb planCall).shiftPlans.rows, row.employmentId = 1 by decide +kernel
    · exact show ∀ row ∈ (step sampleZone lockedDb planCall).metrics.rows, row.employmentId = 1 by decide +kernel
    · intro lockType
      cases lockType with
      | attendance =>
        exact show ∀ row ∈ (step sampleZone lockedDb planCall).attendanceLocks.rows, row.employmentId = 1 by decide +kernel
      | shiftPlan =>
        exact show ∀ row ∈ (step sampleZone lockedDb planCall).shiftPlanLocks.rows, row.employmentId = 1 by decide +kernel
  obtain ⟨events, attendance, plans, metrics, locks⟩ := owners
  cases inserts with
  | event present _ => exact events _ present
  | attendance present _ => exact attendance _ present
  | shiftPlan present _ => exact plans _ present
  | metric present _ => exact metrics _ present
  | lock present _ => exact locks _ _ present

theorem plan_in_locked_month : isMonthLocked planWorld.state .attendance 1 (2026, 8) ∧
    ∃ state, Transacts sampleZone planWorld 0 state .idle ∧ state.shiftPlans.rows.length = 1 ∧
      KeepsLocked planWorld.state state 1 (2026, 8) := by
  refine ⟨by decide +kernel, ?_⟩
  obtain ⟨state, allowed, planned⟩ := planCall_commits
  refine ⟨state, allowed, planned, locks_not_overtaken sampleZone sampleDb.users sampleDb.employments 2 sampleLock
    planWorld_reached allowed ?_ 1 (2026, 8)⟩
  intro call held shared view now
  have same : planWorld.sessions 0 = .writing planCall [1] [] lockedDb := World.move_self _ _ _ _
  cases same.symm.trans now
  trivial

end Runs

end Dagmar.Proofs
