import Mathlib.Logic.Function.Basic
import Mathlib.Logic.Relation

/-! Sessions that take turns on a shared state. A rule says what one session may
do next: the state it leaves and what it remembers. Sessions hold locks in two
modes, and a lock held in the strong mode is held by nobody else in either. -/

namespace Dagmar.Library

universe u v w

structure World (σ : Type u) (τ : Type v) where
  state : σ
  sessions : Nat → τ

namespace World
variable {σ : Type u} {τ : Type v}

def quiet (state : σ) (idle : τ) : World σ τ := ⟨state, fun _ => idle⟩

def move (world : World σ τ) (who : Nat) (state : σ) (session : τ) : World σ τ :=
  ⟨state, Function.update world.sessions who session⟩

@[simp] theorem move_state (world : World σ τ) (who : Nat) (state : σ) (session : τ) :
    (world.move who state session).state = state := rfl

@[simp] theorem move_self (world : World σ τ) (who : Nat) (state : σ) (session : τ) :
    (world.move who state session).sessions who = session := by
  simp [move]

theorem move_other {world : World σ τ} {who other : Nat} {state : σ} {session : τ} (different : other ≠ who) :
    (world.move who state session).sessions other = world.sessions other := by
  simp [move, different]

@[simp] theorem move_move (world : World σ τ) (who : Nat) (state next : σ) (session last : τ) :
    (world.move who state session).move who next last = world.move who next last := by
  simp [move]

/-- What holds of the moved session and of the others holds of all sessions. -/
theorem forall_move (property : τ → Prop) {world : World σ τ} {who : Nat} {state : σ} {session : τ}
    (moved : property session) (others : ∀ other, other ≠ who → property (world.sessions other)) :
    ∀ other, property ((world.move who state session).sessions other) := by
  intro other
  by_cases same : other = who
  · rw [same, move_self]
    exact moved
  · rw [move_other same]
    exact others other same

/-- One of the sessions has it: the moved one or another one that had it before. -/
theorem exists_move (property : τ → Prop) {world : World σ τ} {who : Nat} {state : σ} {session : τ} :
    (∃ other, property ((world.move who state session).sessions other)) ↔
      property session ∨ ∃ other, other ≠ who ∧ property (world.sessions other) := by
  refine ⟨fun ⟨other, holds⟩ => ?_, ?_⟩
  · by_cases same : other = who
    · rw [same, move_self] at holds
      exact .inl holds
    · rw [move_other same] at holds
      exact .inr ⟨other, same, holds⟩
  · rintro (moved | ⟨other, different, holds⟩)
    · exact ⟨who, by rwa [move_self]⟩
    · exact ⟨other, by rwa [move_other different]⟩

end World

section Runs
variable {σ : Type u} {τ : Type v}

/-- What a session may do in a world: the state and the session it leaves. -/
abbrev Rule (σ : Type u) (τ : Type v) := World σ τ → Nat → σ → τ → Prop

inductive Moves (rule : Rule σ τ) (world : World σ τ) : World σ τ → Prop where
  | step {who : Nat} {state : σ} {session : τ} (allowed : rule world who state session) :
      Moves rule world (world.move who state session)

/-- Any number of steps of any sessions, in any order. -/
def Reaches (rule : Rule σ τ) : World σ τ → World σ τ → Prop := Relation.ReflTransGen (Moves rule)

theorem Reaches.step {rule : Rule σ τ} {first world : World σ τ} (reached : Reaches rule first world) (who : Nat) {state : σ}
    {session : τ} (allowed : rule world who state session) : Reaches rule first (world.move who state session) :=
  reached.tail (.step allowed)

/-- A further step of the session that moved last. -/
theorem Reaches.again {rule : Rule σ τ} {first world : World σ τ} {who : Nat} {state next : σ} {session last : τ}
    (reached : Reaches rule first (world.move who state session))
    (allowed : rule (world.move who state session) who next last) : Reaches rule first (world.move who next last) := by
  rw [← World.move_move world who state next session last]
  exact reached.step who allowed

theorem Reaches.mono {rule wider : Rule σ τ} {first last : World σ τ} (reached : Reaches rule first last)
    (implies : ∀ world who state session, rule world who state session → wider world who state session) :
    Reaches wider first last := by
  induction reached with
  | refl => exact .refl
  | tail _ moved wide =>
    cases moved with
    | step allowed => exact wide.step _ (implies _ _ _ _ allowed)

/-- What every step keeps holds in every world that is reached. -/
theorem Reaches.keeps {rule : Rule σ τ} {first last : World σ τ} (reached : Reaches rule first last)
    (invariant : World σ τ → Prop) (start : invariant first)
    (kept : ∀ world who state session, invariant world → rule world who state session →
      invariant (world.move who state session)) : invariant last := by
  induction reached with
  | refl => exact start
  | tail _ moved holds =>
    cases moved with
    | step allowed => exact kept _ _ _ _ holds allowed

end Runs

section Locks
variable {σ : Type u} {τ : Type v} {κ : Type w} {strong weak : τ → κ → Prop}

/-- Nobody else holds the lock in this mode. -/
def Available (mode : τ → κ → Prop) (world : World σ τ) (who : Nat) (key : κ) : Prop :=
  ∀ other, other ≠ who → ¬ mode (world.sessions other) key

theorem Available.move {mode : τ → κ → Prop} {world : World σ τ} {who : Nat} {key : κ} (free : Available mode world who key)
    (state : σ) (session : τ) : Available mode (world.move who state session) who key := by
  intro other different
  rw [World.move_other different]
  exact free other different

def Exclusive (strong weak : τ → κ → Prop) (world : World σ τ) : Prop :=
  ∀ first second, first ≠ second → ∀ key, strong (world.sessions first) key →
    ¬ strong (world.sessions second) key ∧ ¬ weak (world.sessions second) key

/-- A step keeps the locks exclusive when it waits for what it adds. -/
theorem Exclusive.move {world : World σ τ} (exclusive : Exclusive strong weak world) {who : Nat} {state : σ} {session : τ}
    (held : ∀ key, strong session key → strong (world.sessions who) key ∨
      Available strong world who key ∧ Available weak world who key)
    (shared : ∀ key, weak session key → weak (world.sessions who) key ∨ strong (world.sessions who) key ∨
      Available strong world who key) :
    Exclusive strong weak (world.move who state session) := by
  intro first second different key holds
  by_cases mine : first = who
  · subst mine
    rw [World.move_self] at holds
    rw [World.move_other different.symm]
    rcases held key holds with before | ⟨free, unshared⟩
    · exact exclusive first second different key before
    · exact ⟨free second different.symm, unshared second different.symm⟩
  · rw [World.move_other mine] at holds
    by_cases yours : second = who
    · subst yours
      rw [World.move_self]
      obtain ⟨unheld, unshared⟩ := exclusive first second different key holds
      refine ⟨?_, ?_⟩
      · intro taken
        rcases held key taken with before | ⟨free, -⟩
        · exact unheld before
        · exact free first mine holds
      · intro taken
        rcases shared key taken with before | before | free
        · exact unshared before
        · exact unheld before
        · exact free first mine holds
    · rw [World.move_other yours]
      exact exclusive first second different key holds

/-- One mode alone: what a step adds is held by nobody else. -/
theorem Exclusive.alone {world : World σ τ} (exclusive : Exclusive strong (fun _ _ => False) world) {who : Nat} {state : σ}
    {session : τ} (held : ∀ key, strong session key → strong (world.sessions who) key ∨ Available strong world who key) :
    Exclusive strong (fun _ _ => False) (world.move who state session) := by
  refine exclusive.move (fun key holds => (held key holds).imp_right fun free => ⟨free, ?_⟩) fun _ impossible => impossible.elim
  exact fun _ _ impossible => impossible

end Locks

end Dagmar.Library
