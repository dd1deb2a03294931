import Dagmar.Credentials
import Dagmar.Library.Interleaving

/-! The reset tokens of one user while requests run side by side. Every statement
of a request is a step of its session, a revoking statement one step for its snapshot
and one for each row it comes to. Values written to a row that is known by its key
show with the commit, and any request may end early without one. The sessions are
opened without autoflush: a change to the user is sent at the commit, after the
tokens have been revoked. -/

namespace Dagmar.Credentials
open Library

section Rows

def PortalUserResetToken.live (row : PortalUserResetToken) : Prop := row.usedAt = none ∧ row.revokedAt = none

instance (row : PortalUserResetToken) : Decidable row.live := inferInstanceAs (Decidable (_ ∧ _))

def PortalUserResetToken.revokedIn (ids : List Int) (now : Int) (row : PortalUserResetToken) : PortalUserResetToken :=
  if row.id ∈ ids then { row with revokedAt := some now } else row

/-- `mark_reset_delivery`; a delivery that has failed is revoked as well. -/
def PortalUserResetToken.markDelivery (id : Int) (state : ResetDeliveryState) (revoked : Option Int)
    (row : PortalUserResetToken) : PortalUserResetToken :=
  if row.id = id then { row with deliveryState := state, revokedAt := revoked.or row.revokedAt } else row

def PortalUserResetToken.markUsed (id : Int) (now : Int) (row : PortalUserResetToken) : PortalUserResetToken :=
  if row.id = id then { row with usedAt := some now } else row

inductive ResetEntry where
  | inserted (id : Int)
  | accepted (row : PortalUserResetToken) (now : Int)
  | passwordChanged
  | blocked
  | deactivated
deriving DecidableEq

/-- What has been committed for the user, with its history, the latest first. -/
structure Account where
  isActive : Bool
  isBlocked : Bool
  resetTokens : Table PortalUserResetToken PortalUserResetToken.id
  history : List ResetEntry

def Account.start (isActive isBlocked : Bool) : Account := ⟨isActive, isBlocked, ∅, []⟩

def Account.admits (account : Account) : Prop := account.isActive = true ∧ account.isBlocked = false

instance (account : Account) : Decidable account.admits := inferInstanceAs (Decidable (_ ∧ _))

def Account.rewrite (account : Account) (f : PortalUserResetToken → PortalUserResetToken)
    (same : ∀ row, (f row).id = row.id) (entries : List ResetEntry) : Account :=
  { account with
    resetTokens := account.resetTokens.mapRows f same
    history := entries ++ account.history }

end Rows

section Requests

/-- The administrator's requests, as far as they touch tokens. -/
inductive AccountRequest where
  | blockUser (blocked : Bool)
  | updateUser (isActive : Option Bool) (password : Bool)
  | setUserPassword
deriving DecidableEq

namespace AccountRequest

def isBlocked (found : Bool) : AccountRequest → Bool
  | .blockUser blocked => blocked
  | _ => found

def isActive (found : Bool) : AccountRequest → Bool
  | .updateUser isActive _ => isActive.getD found
  | _ => found

def setsPassword : AccountRequest → Bool
  | .blockUser _ => false
  | .updateUser _ password => password
  | .setUserPassword => true

/-- What the request commits that ends the user's tokens, each with its own revoking statement. -/
def entries : AccountRequest → List ResetEntry
  | .blockUser blocked => if blocked then [.blocked] else []
  | .updateUser isActive password =>
    (if password then [.passwordChanged] else []) ++ if isActive = some false then [.deactivated] else []
  | .setUserPassword => [.passwordChanged]

/-- The request sends an update of the user when a column differs from what it read. -/
def sendsUser (request : AccountRequest) (foundActive foundBlocked : Bool) : Prop :=
  request.isActive foundActive ≠ foundActive ∨ request.isBlocked foundBlocked ≠ foundBlocked ∨ request.setsPassword = true

end AccountRequest

/-- A column is sent only when it differs from what was read. -/
def flushed (found wanted current : Bool) : Bool := if wanted = found then current else wanted

inductive Purpose where
  | issue (token : String) (expiresAt : Int)
  | reset (id : Int) (now : Int)
  | change (request : AccountRequest) (foundActive foundBlocked : Bool)
deriving DecidableEq

def Purpose.holdsUser : Purpose → Bool
  | .issue _ _ => true
  | .reset _ _ => true
  | .change _ _ _ => false

/-- Where a request stands. `ready` has so many revoking statements left; `revoking` is inside
one, with the rows it has still to come to. Both have revoked some rows so far. -/
inductive Progress where
  | idle
  | mailing (id : Int)
  | confirming (id : Int)
  | stale (id : Int)
  | found (id : Int) (now : Int)
  | admitted (id : Int) (now : Int)
  | locked (id : Int) (now : Int)
  | ready (purpose : Purpose) (left : Nat) (revoked : List Int)
  | revoking (purpose : Purpose) (left : Nat) (rows revoked : List Int)
deriving DecidableEq

def HoldsUser : Progress → Unit → Prop
  | .confirming _, _ => True
  | .stale _, _ => True
  | .locked _ _, _ => True
  | .ready purpose _ _, _ => purpose.holdsUser = true
  | .revoking purpose _ _ _, _ => purpose.holdsUser = true
  | _, _ => False

def Purpose.holdsToken (id : Int) : Purpose → Prop
  | .reset row _ => row = id
  | _ => False

def HoldsToken : Progress → Int → Prop
  | .ready purpose _ revoked, id => id ∈ revoked ∨ purpose.holdsToken id
  | .revoking purpose _ _ revoked, id => id ∈ revoked ∨ purpose.holdsToken id
  | _, _ => False

/-- The rows that a revoking statement of a session finds; it has seen its own revocations. -/
def Account.liveIds (account : Account) (revoked : List Int) : List Int :=
  (account.resetTokens.select fun row => row.live ∧ row.id ∉ revoked).map PortalUserResetToken.id

end Requests

section Steps

theorem revokedIn_id (ids : List Int) (now : Int) (row : PortalUserResetToken) : (row.revokedIn ids now).id = row.id := by
  unfold PortalUserResetToken.revokedIn
  split <;> rfl

theorem markDelivery_id (id : Int) (state : ResetDeliveryState) (revoked : Option Int) (row : PortalUserResetToken) :
    (row.markDelivery id state revoked).id = row.id := by
  unfold PortalUserResetToken.markDelivery
  split <;> rfl

theorem markUsed_id (id : Int) (now : Int) (row : PortalUserResetToken) : (row.markUsed id now).id = row.id := by
  unfold PortalUserResetToken.markUsed
  split <;> rfl

def Account.revoke (account : Account) (ids : List Int) (now : Int) (entries : List ResetEntry) : Account :=
  account.rewrite (·.revokedIn ids now) (revokedIn_id ids now) entries

def Account.mark (account : Account) (id : Int) (state : ResetDeliveryState) (revoked : Option Int) : Account :=
  account.rewrite (·.markDelivery id state revoked) (markDelivery_id id state revoked) []

def Account.use (account : Account) (id : Int) (now : Int) (entries : List ResetEntry) : Account :=
  account.rewrite (·.markUsed id now) (markUsed_id id now) entries

def Account.insert (account : Account) (row : PortalUserResetToken) : Account :=
  { account with
    resetTokens := account.resetTokens.put row
    history := .inserted row.id :: account.history }

def Account.change (account : Account) (request : AccountRequest) (foundActive foundBlocked : Bool) : Account :=
  { account with
    isActive := flushed foundActive (request.isActive foundActive) account.isActive
    isBlocked := flushed foundBlocked (request.isBlocked foundBlocked) account.isBlocked }

/-- The steps of `send_reset_link`, `portal_reset`, `block_user`, `update_user` and `set_user_password`. -/
inductive Resets (world : World Account Progress) (who : Nat) : Account → Progress → Prop where
  /-- An error, a failed check or a lost connection. -/
  | abandon : Resets world who world.state .idle
  -- `send_reset_link`
  | lockToIssue (token : String) (expiresAt : Int) (idle : world.sessions who = .idle)
      (free : Available HoldsUser world who ()) (admits : world.state.admits) :
      Resets world who world.state (.ready (.issue token expiresAt) 1 [])
  | issue {token : String} {expiresAt : Int} {revoked : List Int} (row : PortalUserResetToken) (now : Int)
      (ready : world.sessions who = .ready (.issue token expiresAt) 0 revoked)
      (numbered : world.state.resetTokens.get row.id = none)
      (random : ∀ other ∈ world.state.resetTokens, other.token ≠ row.token)
      (made : row.token = token ∧ row.expiresAt = expiresAt ∧ row.usedAt = none ∧ row.deliveryState = .pending ∧
        row.revokedAt = none) :
      Resets world who ((world.state.revoke revoked now []).insert row) (.mailing row.id)
  | undelivered {id : Int} (now : Int) (mailing : world.sessions who = .mailing id)
      (free : Available HoldsToken world who id) :
      Resets world who (world.state.mark id .failed (some now)) .idle
  | lockToConfirm {id : Int} (mailing : world.sessions who = .mailing id) (free : Available HoldsUser world who ()) :
      Resets world who world.state (if world.state.admits then .confirming id else .stale id)
  | confirm {id : Int} (confirming : world.sessions who = .confirming id) (free : Available HoldsToken world who id) :
      Resets world who (world.state.mark id .sent none) .idle
  | outdated {id : Int} (now : Int) (stale : world.sessions who = .stale id) (free : Available HoldsToken world who id) :
      Resets world who (world.state.mark id .failed (some now)) .idle
  -- `portal_reset`
  | find {row : PortalUserResetToken} (now : Int) (idle : world.sessions who = .idle)
      (member : row ∈ world.state.resetTokens) (usable : usable row now) :
      Resets world who world.state (.found row.id now)
  | allow {id now : Int} (found : world.sessions who = .found id now) (admits : world.state.admits) :
      Resets world who world.state (.admitted id now)
  | lockToReset {id now : Int} (admitted : world.sessions who = .admitted id now)
      (free : Available HoldsUser world who ()) (admits : world.state.admits) :
      Resets world who world.state (.locked id now)
  | lockToken {id now : Int} {row : PortalUserResetToken} (locked : world.sessions who = .locked id now)
      (free : Available HoldsToken world who id) (got : world.state.resetTokens.get id = some row)
      (usable : usable row now) :
      Resets world who world.state (.ready (.reset id now) 1 [])
  | reset {id now : Int} {revoked : List Int} {row : PortalUserResetToken} (at' : Int)
      (ready : world.sessions who = .ready (.reset id now) 0 revoked)
      (got : world.state.resetTokens.get id = some row) :
      Resets world who ((world.state.revoke revoked at' []).use id now [.passwordChanged, .accepted row now]) .idle
  -- `block_user`, `update_user`, `set_user_password`
  | read (request : AccountRequest) (idle : world.sessions who = .idle) :
      Resets world who world.state
        (.ready (.change request world.state.isActive world.state.isBlocked) request.entries.length [])
  | change {request : AccountRequest} {foundActive foundBlocked : Bool} {revoked : List Int} (now : Int)
      (ready : world.sessions who = .ready (.change request foundActive foundBlocked) 0 revoked)
      (free : request.sendsUser foundActive foundBlocked → Available HoldsUser world who ()) :
      Resets world who ((world.state.revoke revoked now request.entries).change request foundActive foundBlocked) .idle
  -- `revoke_password_reset_tokens`
  | snapshot {purpose : Purpose} {left : Nat} {revoked : List Int}
      (ready : world.sessions who = .ready purpose (left + 1) revoked) :
      Resets world who world.state (.revoking purpose left (world.state.liveIds revoked) revoked)
  | visit {purpose : Purpose} {left : Nat} {rows revoked : List Int} {id : Int} {row : PortalUserResetToken}
      (revoking : world.sessions who = .revoking purpose left rows revoked) (waiting : id ∈ rows)
      (free : Available HoldsToken world who id) (got : world.state.resetTokens.get id = some row) :
      Resets world who world.state
        (.revoking purpose left (rows.erase id) (if row.live then id :: revoked else revoked))
  | finish {purpose : Purpose} {left : Nat} {revoked : List Int}
      (revoking : world.sessions who = .revoking purpose left [] revoked) :
      Resets world who world.state (.ready purpose left revoked)

end Steps

end Dagmar.Credentials
