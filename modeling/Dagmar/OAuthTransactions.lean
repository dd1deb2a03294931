import Dagmar.Library.Interleaving
import Dagmar.Library.Table

/-! The transactions of logins at Google and Apple while requests run side by side.
A callback takes the row of its state for update; the request for the result reads
the row without a lock. Values written to a row that is known by its key show with
the commit. Instants count microseconds. -/

namespace Dagmar.OAuth
open Library

section Rows

inductive Provider where
  | google
  | apple
deriving DecidableEq, Repr

inductive Purpose where
  | login
  | link
deriving DecidableEq, Repr

inductive Portal where
  | employee
  | admin
deriving DecidableEq, Repr

structure OAuthTransaction where
  id : String
  stateHash : String
  browserHash : String
  provider : Provider
  purpose : Purpose
  portal : Portal
  expiresAt : Int
  consumedAt : Option Int
  resultPayload : Option String
  resultExpiresAt : Option Int
  resultConsumedAt : Option Int
deriving DecidableEq

abbrev Transactions := Table OAuthTransaction OAuthTransaction.id

structure Settings where
  sha256 : String → String
  providerEnabled : Provider → Bool
  externalAuthTransactionTtlSeconds : Int
  externalAuthResultTtlSeconds : Int

def seconds (count : Int) : Int := count * 1000000

/-- The secret of the browser is the one whose hash is stored; an empty one never is. -/
def OAuthTransaction.boundTo (settings : Settings) (row : OAuthTransaction) (browserSecret : Option String) : Bool :=
  browserSecret.any fun secret => secret ≠ "" ∧ row.browserHash = settings.sha256 secret

end Rows

section Requests

/-- What `start_transaction` is called with, and the texts it draws. -/
structure Start where
  provider : Provider
  purpose : Purpose
  portal : Portal
  offered : Option String
  id : String
  state : String
  drawn : String
deriving DecidableEq

def Start.browserSecret (start : Start) : String :=
  match start.offered with
  | some secret => if 32 ≤ secret.length then secret else start.drawn
  | none => start.drawn

def Start.transaction (settings : Settings) (start : Start) (now : Int) : OAuthTransaction where
  id := start.id
  stateHash := settings.sha256 start.state
  browserHash := settings.sha256 start.browserSecret
  provider := start.provider
  purpose := start.purpose
  portal := start.portal
  expiresAt := now + seconds settings.externalAuthTransactionTtlSeconds
  consumedAt := none
  resultPayload := none
  resultExpiresAt := none
  resultConsumedAt := none

/-- A call of `consume_transaction`; the clock is read before the row is. -/
structure Callback where
  provider : Provider
  state : String
  browserSecret : Option String
  now : Int
deriving DecidableEq

inductive Consumption where
  | callbackReplayed
  | transactionExpired
  | browserBindingFailed
  | consumed
deriving DecidableEq, Repr

def Callback.consumption (settings : Settings) (callback : Callback) (row : OAuthTransaction) : Consumption :=
  if row.consumedAt ≠ none then .callbackReplayed
  else if row.expiresAt ≤ callback.now then .transactionExpired
  else if ¬ row.boundTo settings callback.browserSecret then .browserBindingFailed
  else .consumed

structure ResultRequest where
  transactionId : String
  browserSecret : Option String
  now : Int
deriving DecidableEq

/-- `consume_login_result` refuses every other row. -/
def ResultRequest.admits (settings : Settings) (request : ResultRequest) (row : OAuthTransaction) : Prop :=
  row.portal = .employee ∧ row.purpose = .login ∧ row.resultConsumedAt = none ∧
    (∃ expiry ∈ row.resultExpiresAt, request.now < expiry) ∧ row.boundTo settings request.browserSecret = true ∧
    (∃ payload ∈ row.resultPayload, payload ≠ "")

inductive Entry where
  | started (start : Start) (expiresAt : Int)
  | consumed (callback : Callback)
  | completed (id : String) (expiresAt : Int)
  | delivered (request : ResultRequest) (payload : Option String)
deriving DecidableEq

/-- What has been committed, with its history, the latest first. -/
structure Store where
  transactions : Transactions
  history : List Entry

def Store.start : Store := ⟨∅, []⟩

/-- Where a request stands. `starting` has deleted some old rows, `locked` has the row of its
state for update, `exchanging` asks the provider, `found` holds the row as it was read. -/
inductive Flow where
  | idle
  | starting (now : Int) (purged : List String)
  | calling (callback : Callback)
  | locked (callback : Callback) (row : OAuthTransaction)
  | exchanging (id : String)
  | found (request : ResultRequest) (row : OAuthTransaction)
deriving DecidableEq

def HoldsRow : Flow → String → Prop
  | .starting _ purged, id => id ∈ purged
  | .locked _ row, id => row.id = id
  | _, _ => False

end Requests

section Steps

def Store.write (store : Store) (row : OAuthTransaction) (entries : List Entry) : Store :=
  ⟨store.transactions.put row, entries ++ store.history⟩

def Store.without (store : Store) (ids : List String) : Store :=
  { store with transactions := store.transactions.deleteWhere fun row => row.id ∈ ids }

/-- The steps of `start_transaction`, `consume_transaction`, `_handle_callback` and `consume_login_result`. -/
inductive Transacts (settings : Settings) (world : World Store Flow) (who : Nat) : Store → Flow → Prop where
  /-- An error, a failed check or a lost connection. -/
  | abandon : Transacts settings world who world.state .idle
  /-- Unlinking a provider and the deletion of a user take rows away. -/
  | remove (ids : List String) (idle : world.sessions who = .idle)
      (free : ∀ id ∈ ids, Available HoldsRow world who id) :
      Transacts settings world who (world.state.without ids) .idle
  -- `start_transaction`
  | purge (now : Int) (ids : List String) (idle : world.sessions who = .idle)
      (old : ∀ id ∈ ids, ∃ row ∈ world.state.transactions, row.id = id ∧ row.expiresAt < now - seconds 3600)
      (free : ∀ id ∈ ids, Available HoldsRow world who id) :
      Transacts settings world who world.state (.starting now ids)
  | start {now : Int} {purged : List String} (start : Start) (starting : world.sessions who = .starting now purged)
      (enabled : settings.providerEnabled start.provider = true)
      (random : ∀ other expiry, .started other expiry ∈ world.state.history →
        other.id ≠ start.id ∧ settings.sha256 other.state ≠ settings.sha256 start.state) :
      Transacts settings world who
        ((world.state.without purged).write (start.transaction settings now)
          [.started start (start.transaction settings now).expiresAt])
        .idle
  -- `consume_transaction`
  | call (callback : Callback) (idle : world.sessions who = .idle) :
      Transacts settings world who world.state (.calling callback)
  | lock {callback : Callback} {row : OAuthTransaction} (calling : world.sessions who = .calling callback)
      (member : row ∈ world.state.transactions) (state : row.stateHash = settings.sha256 callback.state)
      (provider : row.provider = callback.provider) (free : Available HoldsRow world who row.id) :
      Transacts settings world who world.state (.locked callback row)
  | expire {callback : Callback} {row : OAuthTransaction} (locked : world.sessions who = .locked callback row)
      (expired : callback.consumption settings row = .transactionExpired) :
      Transacts settings world who (world.state.write { row with consumedAt := some callback.now } []) .idle
  | consume {callback : Callback} {row : OAuthTransaction} (locked : world.sessions who = .locked callback row)
      (accepted : callback.consumption settings row = .consumed) :
      Transacts settings world who (world.state.write { row with consumedAt := some callback.now } [.consumed callback])
        (.exchanging row.id)
  -- `_handle_callback`
  | complete {id : String} {row : OAuthTransaction} (payload : String) (now : Int)
      (exchanging : world.sessions who = .exchanging id) (got : world.state.transactions.get id = some row)
      (login : row.purpose = .login ∧ row.portal = .employee) (free : Available HoldsRow world who id) :
      Transacts settings world who
        (world.state.write
          { row with
            resultPayload := some payload
            resultExpiresAt := some (now + seconds settings.externalAuthResultTtlSeconds) }
          [.completed id (now + seconds settings.externalAuthResultTtlSeconds)])
        .idle
  -- `consume_login_result`
  | read {row : OAuthTransaction} (request : ResultRequest) (idle : world.sessions who = .idle)
      (got : world.state.transactions.get request.transactionId = some row) (admits : request.admits settings row) :
      Transacts settings world who world.state (.found request row)
  | deliver {request : ResultRequest} {row current : OAuthTransaction} (found : world.sessions who = .found request row)
      (got : world.state.transactions.get request.transactionId = some current)
      (free : Available HoldsRow world who request.transactionId) :
      Transacts settings world who
        (world.state.write { current with resultPayload := none, resultConsumedAt := some request.now }
          [.delivered request row.resultPayload])
        .idle

end Steps

end Dagmar.OAuth
