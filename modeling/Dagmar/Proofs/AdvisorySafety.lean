import Dagmar.AdvisoryLocks

/-! A block releases its lock on the connection that its session has at the end. That
is the one which took the lock only if the pool gives the same one back after every
commit; else the lock stays, and a block that gets its connection enters beside it. -/

namespace Dagmar.Advisory.Proofs
open Library

section Safety

/-- Every lock of a connection is that of one block that has not ended. -/
def Released (world : World Held Session) : Prop :=
  ∀ conn, (world.state conn).Nodup ∧ ∀ key ∈ world.state conn, ∃ who, (world.sessions who).phase.taken = some (key, conn)

/-- From taking the lock until its release no other block for the key is inside its body. -/
def Alone (world : World Held Session) : Prop :=
  ∀ first second, first ≠ second → ∀ key home, (world.sessions first).phase.taken = some (key, home) →
    ¬ (world.sessions second).phase.InBody key

structure LocksSafe (world : World Held Session) : Prop where
  released : Released world
  alone : Alone world

/-- A lock is taken by a connection that does not have it; it is released, and by the connection that
took it; who did not get it does not release it for another; and the pool closes no connection with
a lock. -/
structure Steady (world : World Held Session) (who : Nat) (held : Held) (session : Session) : Prop where
  fresh : ∀ block conn rest, (world.sessions who).phase = .entering block → session.phase = .inside block.key conn rest →
    block.key ∉ world.state conn
  home : ∀ key conn failed, (world.sessions who).phase = .leaving key (some conn) failed → session.phase = .outside →
    failed = false ∧ (world.sessions who).conn = some conn
  refused : ∀ key conn, world.sessions who = ⟨some conn, .leaving key none false⟩ → session.phase = .outside →
    key ∉ world.state conn
  closed : ∀ conn, Free world conn → world.state conn ≠ [] → held conn = world.state conn

def LocksSteadily : Rule Held Session := fun world who held session =>
  Locks world who held session ∧ Steady world who held session

end Safety

section Invariant

structure Kept (world : World Held Session) : Prop where
  nodup : ∀ conn, (world.state conn).Nodup
  held : ∀ conn key, key ∈ world.state conn ↔ ∃ who, (world.sessions who).phase.taken = some (key, conn)
  single : ∀ first second key home other, (world.sessions first).phase.taken = some (key, home) →
    (world.sessions second).phase.taken = some (key, other) → first = second

variable {world : World Held Session} {who : Nat} {session : Session}

theorem kept_quiet : Kept quietWorld where
  nodup _ := List.nodup_nil
  held conn key := by simp [quietWorld, World.quiet, Phase.taken]
  single _ _ _ _ _ taken := by cases taken

theorem InBody.taken {phase : Phase} {key : AdvisoryKey} (body : phase.InBody key) : ∃ home, phase.taken = some (key, home) := by
  obtain ⟨home, rest, rfl⟩ := body
  exact ⟨home, rfl⟩

theorem Kept.safe (kept : Kept world) : LocksSafe world where
  released conn := ⟨kept.nodup conn, fun key member => (kept.held conn key).mp member⟩
  alone first second different key home taken body := by
    obtain ⟨other, again⟩ := InBody.taken body
    exact different (kept.single first second key home other taken again)

/-- A step that takes and releases no lock. -/
theorem Kept.same (kept : Kept world) (same : session.phase.taken = (world.sessions who).phase.taken) :
    Kept (world.move who world.state session) := by
  have moved (other : Nat) : ((world.move who world.state session).sessions other).phase.taken = (world.sessions other).phase.taken := by
    by_cases mine : other = who
    · rw [mine, World.move_self, same]
    · rw [World.move_other mine]
  refine ⟨kept.nodup, fun conn key => ?_, fun first second key home other => ?_⟩
  · simp only [moved]
    exact kept.held conn key
  · rw [moved, moved]
    exact kept.single first second key home other

/-- The blocks that hold locks in the other sessions are those of before. -/
theorem Kept.single_move (kept : Kept world) {held : Held}
    (apart : ∀ key home other conn, session.phase.taken = some (key, home) → other ≠ who →
      (world.sessions other).phase.taken ≠ some (key, conn)) :
    ∀ first second key home other, ((world.move who held session).sessions first).phase.taken = some (key, home) →
      ((world.move who held session).sessions second).phase.taken = some (key, other) → first = second := by
  intro first second key home other left right
  by_cases mine : first = who
  · by_cases yours : second = who
    · rw [mine, yours]
    · rw [mine, World.move_self] at left
      rw [World.move_other yours] at right
      exact absurd right (apart key home second other left yours)
  · rw [World.move_other mine] at left
    by_cases yours : second = who
    · rw [yours, World.move_self] at right
      exact absurd left (apart key other first home right mine)
    · rw [World.move_other yours] at right
      exact kept.single first second key home other left right

theorem Kept.take (kept : Kept world) {key : AdvisoryKey} {conn : Nat} (before : (world.sessions who).phase.taken = none)
    (after : session.phase.taken = some (key, conn)) (unheld : ∀ other, key ∉ world.state other) :
    Kept (world.move who (Function.update world.state conn (key :: world.state conn)) session) := by
  refine ⟨fun home => ?_, fun home wanted => ?_, kept.single_move ?_⟩
  · by_cases here : home = conn
    · rw [here, World.move_state, Function.update_self]
      exact List.nodup_cons.mpr ⟨unheld conn, kept.nodup conn⟩
    · rw [World.move_state, Function.update_of_ne here]
      exact kept.nodup home
  · have added : wanted ∈ Function.update world.state conn (key :: world.state conn) home ↔
        some (key, conn) = some (wanted, home) ∨ wanted ∈ world.state home := by
      by_cases here : home = conn
      · simp [here, eq_comm]
      · simp [Function.update_of_ne here, Ne.symm here]
    have others : (∃ other, (world.sessions other).phase.taken = some (wanted, home)) ↔
        ∃ other, other ≠ who ∧ (world.sessions other).phase.taken = some (wanted, home) := by
      refine ⟨fun ⟨other, taken⟩ => ⟨other, ?_, taken⟩, fun ⟨other, _, taken⟩ => ⟨other, taken⟩⟩
      intro mine
      rw [mine, before] at taken
      cases taken
    rw [World.move_state, added, kept.held, others, World.exists_move fun session : Session => session.phase.taken = some (wanted, home), after]
  · intro wanted home other elsewhere mine _ taken
    rw [after] at mine
    cases mine
    exact unheld elsewhere ((kept.held elsewhere key).mpr ⟨other, taken⟩)

theorem Kept.release (kept : Kept world) {key : AdvisoryKey} {conn : Nat}
    (before : (world.sessions who).phase.taken = some (key, conn)) (after : session.phase.taken = none) :
    Kept (world.move who (Function.update world.state conn ((world.state conn).erase key)) session) := by
  refine ⟨fun home => ?_, fun home wanted => ?_, kept.single_move ?_⟩
  · by_cases here : home = conn
    · rw [here, World.move_state, Function.update_self]
      exact (kept.nodup conn).erase key
    · rw [World.move_state, Function.update_of_ne here]
      exact kept.nodup home
  · have removed : wanted ∈ Function.update world.state conn ((world.state conn).erase key) home ↔
        ¬ (key = wanted ∧ conn = home) ∧ wanted ∈ world.state home := by
      by_cases here : home = conn
      · simp [here, (kept.nodup conn).mem_erase_iff, eq_comm]
      · simp [Function.update_of_ne here, Ne.symm here]
    rw [World.move_state, removed, kept.held, World.exists_move fun session : Session => session.phase.taken = some (wanted, home), after]
    refine ⟨fun ⟨different, other, taken⟩ => .inr ⟨other, ?_, taken⟩, ?_⟩
    · intro mine
      rw [mine, before] at taken
      exact different (Prod.mk.inj (Option.some.inj taken))
    · rintro (none | ⟨other, different, taken⟩)
      · cases none
      · refine ⟨fun ⟨same, here⟩ => ?_, other, taken⟩
        subst same here
        exact different (kept.single other who key conn conn taken before)
  · intro wanted home other elsewhere mine
    rw [after] at mine
    cases mine

end Invariant

section Steps
variable {world : World Held Session}

/-- Nobody has the lock that a connection may take and does not have. -/
theorem unheld_of_granted {key : AdvisoryKey} {conn : Nat} (granted : ∀ other ≠ conn, key ∉ world.state other)
    (fresh : key ∉ world.state conn) (other : Nat) : key ∉ world.state other := by
  by_cases here : other = conn
  · exact here ▸ fresh
  · exact granted other here

theorem Kept.step (kept : Kept world) {who : Nat} {held : Held} {session : Session}
    (allowed : LocksSteadily world who held session) : Kept (world.move who held session) := by
  obtain ⟨step, steady⟩ := allowed
  cases step with
  | checkout => exact kept.same rfl
  | giveBack outside => exact kept.same (by rw [outside])
  | enter block outside => exact kept.same (by rw [outside]; rfl)
  | take entering granted =>
    have fresh := steady.fresh _ _ _ (congrArg Session.phase entering) rfl
    exact kept.take (by rw [entering]; rfl) rfl (unheld_of_granted granted fresh)
  | refuse entering => exact kept.same (by rw [entering]; rfl)
  | @miss block _ entering =>
    refine kept.same ?_
    rw [entering]
    cases block.tries <;> rfl
  | statement inside => exact kept.same (by rw [inside]; rfl)
  | commit inside => exact kept.same (by rw [inside]; rfl)
  | finish inside => exact kept.same (by rw [inside]; rfl)
  | raises _ inside => exact kept.same (by rw [inside]; rfl)
  | @release key home conn leaving =>
    cases home with
    | some home =>
      obtain ⟨-, same⟩ := steady.home key home false (congrArg Session.phase leaving) rfl
      rw [leaving] at same
      cases same
      exact kept.release (by rw [leaving]; rfl) rfl
    | none =>
      have absent := steady.refused key conn leaving rfl
      rw [List.erase_of_not_mem absent, Function.update_eq_self]
      exact kept.same (by rw [leaving]; rfl)
  | @abandon key home failed leaving unable =>
    cases home with
    | some home =>
      obtain ⟨fine, same⟩ := steady.home key home failed leaving rfl
      rcases unable with broken | without
      · exact absurd (broken.symm.trans fine) (by decide)
      · exact absurd (without.symm.trans same) (by simp)
    | none => exact kept.same (by rw [leaving]; rfl)
  | close conn free =>
    have untouched : Function.update world.state conn [] = world.state := by
      by_cases empty : world.state conn = []
      · rw [← empty, Function.update_eq_self]
      · exact absurd (steady.closed conn free empty).symm (by rwa [Function.update_self])
    rw [untouched]
    exact kept.same rfl

/-- In every run of steady steps the locks of ended blocks are released, and each block is alone. -/
theorem advisory_locks_safe (reached : Reaches LocksSteadily quietWorld world) : LocksSafe world := by
  have kept : Kept world := reached.keeps Kept kept_quiet fun _ _ _ _ before allowed => before.step allowed
  exact kept.safe

end Steps

section Samples

theorem Steady.of_phase {world : World Held Session} {who : Nat} {session : Session}
    (taken : ∀ block conn rest, (world.sessions who).phase = .entering block → session.phase ≠ .inside block.key conn rest)
    (ended : session.phase ≠ .outside) : Steady world who world.state session where
  fresh block conn rest entering inside := absurd inside (taken block conn rest entering)
  home _ _ _ _ outside := absurd outside ended
  refused _ _ _ outside := absurd outside ended
  closed _ _ _ := rfl

/-- A session inside a body does not take a lock and does not end the block. -/
theorem Steady.of_inside {world : World Held Session} {who : Nat} {session : Session} {key : AdvisoryKey} {home : Nat}
    {rest : List Action} (inside : (world.sessions who).phase = .inside key home rest) (ended : session.phase ≠ .outside) :
    Steady world who world.state session :=
  .of_phase (fun _ _ _ entering => by rw [inside] at entering; cases entering) ended

theorem free_move {world : World Held Session} {who conn : Nat} {held : Held} {session : Session} (without : session.conn ≠ some conn)
    (others : ∀ other, other ≠ who → (world.sessions other).conn ≠ some conn) : Free (world.move who held session) conn :=
  World.forall_move (fun session : Session => session.conn ≠ some conn) without others

/-- A session that always gets its connection back runs through every body. -/
theorem body_runs {first world : World Held Session} {who home : Nat} (free : ∀ other, other ≠ who → (world.sessions other).conn ≠ some home)
    (held : Held) (key : AdvisoryKey) (body : List Action)
    (reached : Reaches LocksSteadily first (world.move who held ⟨some home, .inside key home body⟩)) :
    Reaches LocksSteadily first (world.move who held ⟨some home, .inside key home []⟩) := by
  induction body with
  | nil => exact reached
  | cons action rest ih =>
    have stands (conn : Option Nat) (phase : Phase) :
        (world.move who held ⟨conn, phase⟩).sessions who = ⟨conn, phase⟩ := World.move_self ..
    cases action with
    | statement =>
      exact ih (reached.again ⟨.statement (stands _ _), .of_inside (congrArg Session.phase (stands _ _)) (fun same => by cases same)⟩)
    | commit =>
      have committed : Reaches LocksSteadily first (world.move who held ⟨none, .inside key home rest⟩) :=
        reached.again ⟨.commit (congrArg Session.phase (stands _ _)),
          .of_inside (congrArg Session.phase (stands _ _)) (fun same => by cases same)⟩
      have back : Free (world.move who held ⟨none, .inside key home rest⟩) home := free_move (fun same => by cases same) free
      have connects : Locks (world.move who held ⟨none, .inside key home rest⟩) who held ⟨some home, .inside key home rest⟩ := by
        have step := @Locks.checkout _ who home (congrArg Session.conn (stands _ _)) back
        rwa [stands] at step
      exact ih (committed.again ⟨connects,
        .of_inside (congrArg Session.phase (stands _ _)) (fun same => by cases same)⟩)

def sampleKey : AdvisoryKey := (sendResetLink 7).key

/-- The first connection has the lock, and the others have none. -/
def firstHolds : Held := Function.update (fun _ => []) 0 [sampleKey]

/-- A request that is about to send the link has the first connection. -/
theorem sample_connected : Reaches LocksSteadily quietWorld
    (quietWorld.move 0 quietWorld.state ⟨some 0, .entering (sendResetLink 7)⟩) := by
  have entered : Reaches LocksSteadily quietWorld (quietWorld.move 0 quietWorld.state ⟨none, .entering (sendResetLink 7)⟩) :=
    Reaches.step .refl 0 ⟨.enter _ rfl, .of_phase (fun _ _ _ outside => by cases outside) (fun same => by cases same)⟩
  have free : Free (quietWorld.move 0 quietWorld.state ⟨none, .entering (sendResetLink 7)⟩) 0 :=
    free_move (fun same => by cases same) fun _ _ same => by cases same
  exact entered.again ⟨.checkout 0 rfl free, .of_phase (fun _ _ _ _ inside => by cases inside) (fun same => by cases same)⟩

theorem sample_taken : Reaches LocksSteadily quietWorld
    (quietWorld.move 0 firstHolds ⟨some 0, .inside sampleKey 0 (sendResetLink 7).body⟩) :=
  sample_connected.again ⟨.take rfl fun _ _ => List.not_mem_nil, {
    fresh := fun _ _ _ _ _ => List.not_mem_nil
    home := fun _ _ _ leaving => by cases leaving
    refused := fun _ _ leaving => by cases leaving
    closed := fun _ _ held => absurd rfl held }⟩

/-- A request sends the link and has its connection back after every commit. -/
theorem sample_advisory_locks_safe : ∃ world, Reaches LocksSteadily quietWorld world ∧
    world.sessions 0 = ⟨some 0, .inside sampleKey 0 []⟩ ∧ LocksSafe world := by
  have done := body_runs (fun _ _ same => by cases same) firstHolds sampleKey _ sample_taken
  exact ⟨_, done, World.move_self .., advisory_locks_safe done⟩

/-- The same request up to its first commit. -/
theorem sample_committed : Reaches Locks quietWorld
    (quietWorld.move 0 firstHolds ⟨none, .inside sampleKey 0 ((sendResetLink 7).body.drop 4)⟩) := by
  have taken := Reaches.mono sample_taken fun _ _ _ _ allowed => allowed.1
  have locked := taken.again (.statement rfl)
  have revoked := locked.again (.statement rfl)
  have inserted := revoked.again (.statement rfl)
  exact inserted.again (.commit rfl)

/-- It gets the second connection for the rest, where it does not find its lock. -/
theorem sample_leaked : Reaches Locks quietWorld
    (quietWorld.move 0 (Function.update firstHolds 1 []) ⟨some 1, .outside⟩) := by
  have free (rest : List Action) : Free (quietWorld.move 0 firstHolds ⟨none, .inside sampleKey 0 rest⟩) 1 :=
    free_move (fun same => by cases same) fun _ _ same => by cases same
  have connected := sample_committed.again (.checkout 1 rfl (free _))
  have settings := connected.again (.statement rfl)
  have email := settings.again (.statement rfl)
  have locked := email.again (.statement rfl)
  have updated := locked.again (.statement rfl)
  have committed := updated.again (.commit rfl)
  have back := committed.again (.checkout 1 rfl (free _))
  have finished := back.again (.finish rfl)
  exact finished.again (.release rfl)

/-- Another request for the same user gets the connection that has the lock, and with it the lock again. -/
theorem sample_entered : Reaches Locks quietWorld
    ((quietWorld.move 0 firstHolds ⟨none, .inside sampleKey 0 ((sendResetLink 7).body.drop 4)⟩).move 1
      (Function.update firstHolds 0 [sampleKey, sampleKey]) ⟨some 0, .inside sampleKey 0 (sendResetLink 7).body⟩) := by
  have entered := sample_committed.step 1 (.enter (sendResetLink 7) rfl)
  have connected := entered.again (.checkout 0 rfl ?_)
  · exact connected.again (.take rfl fun other different => by simp [firstHolds, Function.update_of_ne different])
  · have between : Free (quietWorld.move 0 firstHolds ⟨none, .inside sampleKey 0 ((sendResetLink 7).body.drop 4)⟩) 0 :=
      free_move (fun same => by cases same) fun _ _ same => by cases same
    exact free_move (fun same => by cases same) fun other _ => between other

/-- The block has ended and its lock is still there; or a second block for the user is inside. -/
theorem advisory_lock_leaks : (∃ world, Reaches Locks quietWorld world ∧ ¬ Released world) ∧
    ∃ world, Reaches Locks quietWorld world ∧ ¬ Alone world := by
  refine ⟨⟨_, sample_leaked, fun released => ?_⟩, ⟨_, sample_entered, fun alone => ?_⟩⟩
  · obtain ⟨who, taken⟩ := (released 0).2 sampleKey (List.mem_singleton_self _)
    have nobody : ∀ other, ((quietWorld.move 0 (Function.update firstHolds 1 []) ⟨some 1, .outside⟩).sessions other).phase = .outside :=
      World.forall_move (fun session : Session => session.phase = .outside) rfl fun _ _ => rfl
    rw [nobody who] at taken
    cases taken
  · exact alone 0 1 (by decide) sampleKey 0 rfl ⟨0, _, rfl⟩

end Samples

end Dagmar.Advisory.Proofs
