import Dagmar.Library.Interleaving

/-! Blocks of code that hold an advisory lock of PostgreSQL across their commits. The
lock belongs to the connection that took it. A session gives its connection back to the
pool with every commit, and its next statement gets whichever connection is free. -/

namespace Dagmar.Advisory
open Library

section Blocks

/-- Locks are named by two numbers or by one; the two spaces are apart. -/
inductive AdvisoryKey where
  | pair (classId objectId : Int)
  | single (key : Int)
deriving DecidableEq

def schedulerAdvisoryLock : Int := 248613

/-- What the code between taking and releasing the lock asks of its session. -/
inductive Action where
  | statement
  | commit
deriving DecidableEq

structure Block where
  key : AdvisoryKey
  /-- The lock is only tried, and what releases it comes in every case; else the block waits for it. -/
  tries : Bool
  body : List Action
deriving DecidableEq

def resetIssuanceLock (userId : Int) (body : List Action) : Block := ⟨.pair 1145520466 userId, false, body⟩

def runAttendanceRemindersOnce (body : List Action) : Block := ⟨.single schedulerAdvisoryLock, true, body⟩

/-- `send_reset_link` where the mail is accepted. It locks the user, revokes the tokens and inserts the
new one; it reads the settings and, after the commit, the address again; it locks the user again and
updates the token. -/
def sendResetLink (userId : Int) : Block :=
  resetIssuanceLock userId
    [.statement, .statement, .statement, .commit, .statement, .statement, .statement, .statement, .commit]

/-- `process_attendance_reminders` reads what is due and commits one row after each mail. -/
def processAttendanceReminders (reads sent : Nat) : Block :=
  runAttendanceRemindersOnce (List.replicate reads .statement ++ (List.replicate sent [.statement, .commit]).flatten)

end Blocks

section Sessions

/-- Where a request stands: inside a body with the connection that took the lock and what is left to do,
and then before the statement that releases the lock, if it got the lock. After a statement that failed
PostgreSQL refuses the others of the transaction. -/
inductive Phase where
  | outside
  | entering (block : Block)
  | inside (key : AdvisoryKey) (home : Nat) (rest : List Action)
  | leaving (key : AdvisoryKey) (home : Option Nat) (failed : Bool)
deriving DecidableEq

structure Session where
  /-- The connection of the transaction that is open. -/
  conn : Option Nat
  phase : Phase
deriving DecidableEq

/-- The locks of each connection. A connection that takes a lock again has it twice. -/
abbrev Held := Nat → List AdvisoryKey

/-- The lock that a block has taken and not yet tried to release, and the connection that took it. -/
def Phase.taken : Phase → Option (AdvisoryKey × Nat)
  | .inside key home _ => some (key, home)
  | .leaving key (some home) _ => some (key, home)
  | _ => none

def Phase.InBody (phase : Phase) (key : AdvisoryKey) : Prop := ∃ home rest, phase = .inside key home rest

variable (world : World Held Session) (who : Nat)

/-- No session has the connection. -/
def Free (conn : Nat) : Prop := ∀ other, (world.sessions other).conn ≠ some conn

inductive Locks : Held → Session → Prop where
  | checkout (conn : Nat) (without : (world.sessions who).conn = none) (free : Free world conn) :
      Locks world.state { world.sessions who with conn := some conn }
  /-- A commit, a rollback or the end of a request outside the block. -/
  | giveBack (outside : (world.sessions who).phase = .outside) : Locks world.state ⟨none, .outside⟩
  | enter (block : Block) (outside : (world.sessions who).phase = .outside) :
      Locks world.state { world.sessions who with phase := .entering block }
  | take {block : Block} {conn : Nat} (entering : world.sessions who = ⟨some conn, .entering block⟩)
      (granted : ∀ other ≠ conn, block.key ∉ world.state other) :
      Locks (Function.update world.state conn (block.key :: world.state conn)) ⟨some conn, .inside block.key conn block.body⟩
  | refuse {block : Block} {conn other : Nat} (entering : world.sessions who = ⟨some conn, .entering block⟩)
      (tries : block.tries = true) (elsewhere : other ≠ conn) (held : block.key ∈ world.state other) :
      Locks world.state ⟨some conn, .leaving block.key none false⟩
  /-- There is no connection, or the statement that takes the lock fails. -/
  | miss {block : Block} (failed : Bool) (entering : (world.sessions who).phase = .entering block) :
      Locks world.state
        { world.sessions who with phase := if block.tries then .leaving block.key none failed else .outside }
  | statement {key : AdvisoryKey} {home conn : Nat} {rest : List Action}
      (inside : world.sessions who = ⟨some conn, .inside key home (.statement :: rest)⟩) :
      Locks world.state ⟨some conn, .inside key home rest⟩
  | commit {key : AdvisoryKey} {home : Nat} {rest : List Action}
      (inside : (world.sessions who).phase = .inside key home (.commit :: rest)) : Locks world.state ⟨none, .inside key home rest⟩
  | finish {key : AdvisoryKey} {home : Nat} (inside : (world.sessions who).phase = .inside key home []) :
      Locks world.state { world.sessions who with phase := .leaving key (some home) false }
  | raises {key : AdvisoryKey} {home : Nat} {rest : List Action} (failed : Bool)
      (inside : (world.sessions who).phase = .inside key home rest) :
      Locks world.state { world.sessions who with phase := .leaving key (some home) failed }
  /-- A connection that does not have the lock gets a warning only. -/
  | release {key : AdvisoryKey} {home : Option Nat} {conn : Nat} (leaving : world.sessions who = ⟨some conn, .leaving key home false⟩) :
      Locks (Function.update world.state conn ((world.state conn).erase key)) ⟨some conn, .outside⟩
  /-- There is no connection, or the transaction has failed: the statement that releases the lock raises. -/
  | abandon {key : AdvisoryKey} {home : Option Nat} {failed : Bool} (leaving : (world.sessions who).phase = .leaving key home failed)
      (unable : failed = true ∨ (world.sessions who).conn = none) :
      Locks world.state { world.sessions who with phase := .outside }
  /-- The pool closes a connection, and PostgreSQL releases the locks of a connection that is closed. -/
  | close (conn : Nat) (free : Free world conn) : Locks (Function.update world.state conn []) (world.sessions who)

end Sessions

def quietWorld : World Held Session := World.quiet (fun _ => []) ⟨none, .outside⟩

end Dagmar.Advisory
