import Dagmar.Json
import Dagmar.Credentials
import Dagmar.OAuthTransactions

/-! Identities at Google and Apple: an account links one after its password was verified
again, a sign-in looks for the account that a subject is linked to, and an unlink takes
the identity away. The statements of a request run one by one between those of others;
an insert waits for the commit of a row that it collides with, so it and its commit are
one step. -/

namespace Dagmar.ExternalAuth
open Library Library.Outcome OAuth

section Rows

/-- The account that a request is made for, by the portal it came through. -/
inductive Account where
  | employee (userId : Int)
  | admin (username : String)
deriving DecidableEq, Repr

def Account.portal : Account → Portal
  | .employee _ => .employee
  | .admin _ => .admin

/-- The row with the columns that name the account and the nonce. -/
structure Transaction extends OAuthTransaction where
  portalUserId : Option Int
  adminUsername : Option String
  nonce : String
deriving DecidableEq

abbrev Transactions := Table Transaction fun row => row.id

/-- The row as it was inserted. -/
def Transaction.opened (row : Transaction) : Transaction :=
  { row with consumedAt := none, resultPayload := none, resultExpiresAt := none, resultConsumedAt := none }

/-- `ck_external_identity_account_target`. -/
def Targets (accountType : Portal) (portalUserId : Option Int) (adminUsername : Option String) : Prop :=
  (accountType = .employee ∧ portalUserId.isSome ∧ adminUsername.isNone) ∨
    (accountType = .admin ∧ portalUserId.isNone ∧ adminUsername.isSome)

instance (accountType : Portal) (portalUserId : Option Int) (adminUsername : Option String) :
    Decidable (Targets accountType portalUserId adminUsername) := inferInstanceAs (Decidable (_ ∨ _))

structure ExternalIdentity where
  id : Int
  accountType : Portal
  portalUserId : Option Int
  adminUsername : Option String
  provider : Provider
  issuer : String
  subject : String
  email : Option String
  emailVerified : Option Bool
  linkedAt : Int
  lastLoginAt : Option Int
  target : Targets accountType portalUserId adminUsername
deriving DecidableEq

abbrev Identities := Table ExternalIdentity ExternalIdentity.id

structure Settings extends OAuth.Settings where
  adminUsername : String
  adminPasswordHash : Option Credentials.PasswordHash
  clientId : Provider → String
  lower : String → String
  /-- `repr` of what is neither a text nor an integer. -/
  repr : Json → String
  /-- What `jwt.decode` checks: the signature, the audience, the issuers, the times and which claims there are. -/
  checkToken : Provider → String → Except String Unit
  /-- What it returns. -/
  payload : String → Json

def Account.portalUserId : Account → Option Int
  | .employee userId => some userId
  | .admin _ => none

def Account.adminUsername (settings : Settings) : Account → Option String
  | .employee _ => none
  | .admin username => some (settings.lower username)

end Rows

section Claims
variable (settings : Settings)

structure ProviderClaims where
  issuer : String
  subject : String
  email : Option String
  emailVerified : Option Bool
deriving DecidableEq, Repr

/-- `str`. -/
def str : Json → String
  | .text value => value
  | .number value => toString value
  | .null => "None"
  | .flag value => if value then "True" else "False"
  | json => settings.repr json

/-- `str(value or "")`. -/
def strOrEmpty : Json → String
  | .null | .flag false | .number 0 | .list [] | .object [] => ""
  | .float value => if value = 0 then "" else settings.repr (.float value)
  | json => str settings json

/-- What `exchange_and_validate` makes of an identity token. -/
def validateToken (provider : Provider) (nonce idToken : String) : Except String ProviderClaims := do
  settings.checkToken provider idToken
  let claims := settings.payload idToken
  raiseIf (strOrEmpty settings (claims.find "nonce") ≠ nonce) "nonce_invalid"
  raiseIf (¬ (claims.find "azp").isNull ∧ ¬ (claims.find "azp").isText (settings.clientId provider)) "token_validation_failed"
  let subject ← require (claims.find "sub").text? "token_validation_failed"
  raiseIf (subject = "") "token_validation_failed"
  return {
    issuer := str settings (claims.find "iss")
    subject
    email := (claims.find "email").text?
    emailVerified := match claims.find "email_verified" with
      | .flag value => some value
      | .text value => some (settings.lower value = "true")
      | _ => none }

end Claims

section Requests
variable (settings : Settings)

/-- `_identity_query`; the name of an administrator is compared as it came. -/
def ExternalIdentity.isOf (identity : ExternalIdentity) (provider : Provider) (account : Account) : Prop :=
  identity.accountType = account.portal ∧ identity.provider = provider ∧
    match account with
    | .employee userId => identity.portalUserId = some userId
    | .admin username => identity.adminUsername = some username

def ExternalIdentity.hasSubject (identity : ExternalIdentity) (provider : Provider) (claims : ProviderClaims) : Prop :=
  identity.provider = provider ∧ identity.issuer = claims.issuer ∧ identity.subject = claims.subject

/-- `_verify_link_password`. -/
def verifyLinkPassword (accounts : Credentials.Db) (account : Account) (password : String) : Prop :=
  match account with
  | .employee userId =>
    ∃ user, accounts.users.get userId = some user ∧ ∃ hash ∈ user.passwordHash, hash.password = password
  | .admin username =>
    settings.lower username = settings.lower settings.adminUsername ∧
      ∃ hash ∈ settings.adminPasswordHash, hash.password = password

/-- The row that `start_transaction` inserts; a login names no account. -/
def startTransaction (start : Start) (account : Option Account) (nonce : String) (now : Int) : Transaction where
  toOAuthTransaction := start.transaction settings.toSettings now
  portalUserId := account.bind Account.portalUserId
  adminUsername := account.bind (Account.adminUsername settings)
  nonce := nonce

/-- The columns of the identity that `_complete_link` adds. -/
def linkedIdentity (row : Transaction) (claims : ProviderClaims) (id now : Int)
    (target : Targets row.portal row.portalUserId row.adminUsername) : ExternalIdentity where
  id := id
  accountType := row.portal
  portalUserId := row.portalUserId
  adminUsername := row.adminUsername
  provider := row.provider
  issuer := claims.issuer
  subject := claims.subject
  email := claims.email
  emailVerified := claims.emailVerified
  linkedAt := now
  lastLoginAt := none
  target := target

/-- The unique constraints that a new identity has to meet. -/
structure Free (identities : Identities) (identity : ExternalIdentity) : Prop where
  subject : ∀ other ∈ identities, other.provider = identity.provider → other.issuer = identity.issuer →
    other.subject ≠ identity.subject
  employee : ∀ other ∈ identities, other.provider = identity.provider → ∀ userId ∈ identity.portalUserId,
    other.portalUserId ≠ some userId
  admin : ∀ other ∈ identities, other.provider = identity.provider → ∀ username ∈ identity.adminUsername,
    other.adminUsername ≠ some username

/-- What `_complete_login` writes: the columns that differ from those it has read. -/
def ExternalIdentity.seen (read : ExternalIdentity) (claims : ProviderClaims) (now : Int) (current : ExternalIdentity) :
    ExternalIdentity :=
  let email := if claims.email.any (· ≠ "") then claims.email else read.email
  let emailVerified := claims.emailVerified.or read.emailVerified
  { current with
    lastLoginAt := some now
    email := if email = read.email then current.email else email
    emailVerified := if emailVerified = read.emailVerified then current.emailVerified else emailVerified }

/-- A failure that sends the browser back, or the answer of `issue_portal_login`. -/
inductive Failure where
  | external (code : String)
  | api (error : ApiError)

/-- The account that a sign-in ends in: the user that was found, or the name that the session of an
administrator is set for. -/
def completeLogin (accounts : Credentials.Db) (hasEmployment : Bool) (row : Transaction) (identity : ExternalIdentity) :
    Except Failure Account :=
  match row.portal with
  | .employee => do
    let user ← require (identity.portalUserId.bind accounts.users.get) (.external "external_account_inactive")
    raiseIf (¬ user.isActive ∨ user.passwordHash = none) (.external "external_account_inactive")
    raiseIf user.isBlocked (.external "portal_account_blocked")
    (Credentials.issuePortalLogin accounts user hasEmployment).mapError .api
    return .employee user.id
  | .admin => do
    raiseIf (settings.adminPasswordHash = none ∨ identity.adminUsername ≠ some (settings.lower settings.adminUsername))
      (.external "external_account_inactive")
    return .admin (settings.lower ((row.adminUsername.filter (· ≠ "")).getD settings.adminUsername))

end Requests

section States

/-- A request of an account that has given its password again; every request has a number of its own. -/
structure Confirmation where
  number : Nat
  account : Account
  provider : Provider
  password : String
deriving DecidableEq

inductive Entry where
  | confirmed (confirmation : Confirmation)
  | started (confirmation : Option Confirmation) (row : Transaction)
  | consumed (id : String) (callback : Callback)
  | accepted (id idToken : String)
  | linked (id : String) (identity : ExternalIdentity)
  | unlinked (confirmation : Confirmation) (identityId : Int)
  | signedIn (id : String) (account : Account) (identityId : Int)

def Entry.startedId : Entry → Option String
  | .started _ row => some row.id
  | _ => none

def Entry.startedNonce : Entry → Option String
  | .started _ row => some row.nonce
  | _ => none

def Entry.consumedId : Entry → Option String
  | .consumed id _ => some id
  | _ => none

def Entry.linkedIdentity : Entry → Option Int
  | .linked _ identity => some identity.id
  | _ => none

def Entry.acceptedId : Entry → Option String
  | .accepted id _ => some id
  | _ => none

def Entry.acceptedToken : Entry → Option String
  | .accepted _ idToken => some idToken
  | _ => none

/-- The transaction that a link or a sign-in has used up. -/
def Entry.finishedId : Entry → Option String
  | .linked id _ | .signedIn id _ _ => some id
  | _ => none

/-- The confirmation that a start or an unlink was made with. -/
def Entry.confirmationNumber : Entry → Option Nat
  | .started confirmation _ => confirmation.map Confirmation.number
  | .unlinked confirmation _ => some confirmation.number
  | _ => none

/-- What has been committed, with what has happened, the latest first. -/
structure Store where
  accounts : Credentials.Db
  transactions : Transactions
  identities : Identities
  history : List Entry

def Store.start (accounts : Credentials.Db) : Store := ⟨accounts, ∅, ∅, []⟩

/-- Where a request stands. `confirmed` has verified the password for a link or an unlink, `unlinked`
has found no identity of the account; a callback has the row of its state for update when it is
`locked`, and the row as it read it again from `exchanging` on; `unowned` and `identified` have
looked for the identity of the subject. -/
inductive Flow where
  | idle
  | confirmed (confirmation : Confirmation)
  | unlinked (confirmation : Confirmation)
  | calling (callback : Callback)
  | locked (callback : Callback) (row : Transaction)
  | consumed (id : String)
  | exchanging (row : Transaction)
  | validated (row : Transaction) (claims : ProviderClaims)
  | unowned (row : Transaction) (claims : ProviderClaims)
  | identified (row : Transaction) (claims : ProviderClaims) (identity : ExternalIdentity)
  | admitted (row : Transaction) (claims : ProviderClaims) (identity : ExternalIdentity) (account : Account)
  | unlinking (confirmation : Confirmation) (identity : ExternalIdentity) (pending : List String)

def HoldsRow : Flow → String → Prop
  | .locked _ row, id => row.id = id
  | _, _ => False

def Store.log (store : Store) (entry : Entry) : Store := { store with history := entry :: store.history }

def Store.write (store : Store) (row : Transaction) : Store := { store with transactions := store.transactions.put row }

def Store.identify (store : Store) (identity : ExternalIdentity) : Store :=
  { store with identities := store.identities.put identity }

def Store.without (store : Store) (ids : List String) : Store :=
  { store with transactions := store.transactions.deleteWhere fun row => row.id ∈ ids }

/-- Whatever happens to accounts elsewhere; what refers to a user that is gone goes with it. -/
def Store.administer (store : Store) (accounts : Credentials.Db) : Store :=
  { store with
    accounts
    transactions := store.transactions.deleteWhere fun row =>
      row.portalUserId.any fun userId => (accounts.users.get userId).isNone
    identities := store.identities.deleteWhere fun identity =>
      identity.portalUserId.any fun userId => (accounts.users.get userId).isNone }

/-- The foreign key to the users. -/
def Store.knows (store : Store) (portalUserId : Option Int) : Prop :=
  ∀ userId ∈ portalUserId, (store.accounts.users.get userId).isSome

/-- Link transactions of an account that wait for their callback. -/
def Transaction.isPending (settings : Settings) (row : Transaction) (provider : Provider) (account : Account) : Prop :=
  row.provider = provider ∧ row.portal = account.portal ∧ row.purpose = .link ∧ row.consumedAt = none ∧
    match account with
    | .employee userId => row.portalUserId = some userId
    | .admin username => row.adminUsername = some (settings.lower username)

end States

section Steps

/-- The steps of `_start_link`, `login_start`, `_handle_callback` and `_unlink`. -/
inductive Acts (settings : Settings) (world : World Store Flow) (who : Nat) : Store → Flow → Prop where
  /-- An error, a failed check or a lost connection. -/
  | abandon : Acts settings world who world.state .idle
  | administer (accounts : Credentials.Db) (idle : world.sessions who = .idle)
      (free : ∀ row ∈ world.state.transactions, row ∉ (world.state.administer accounts).transactions →
        Available HoldsRow world who row.id) :
      Acts settings world who (world.state.administer accounts) .idle
  | confirm (confirmation : Confirmation) (idle : world.sessions who = .idle)
      (verified : verifyLinkPassword settings world.state.accounts confirmation.account confirmation.password)
      (new : ∀ other, .confirmed other ∈ world.state.history → other.number ≠ confirmation.number) :
      Acts settings world who (world.state.log (.confirmed confirmation)) (.confirmed confirmation)
  -- `_start_link` and `login_start`
  | search {confirmation : Confirmation} (confirmed : world.sessions who = .confirmed confirmation)
      (absent : ∀ identity ∈ world.state.identities, ¬ identity.isOf confirmation.provider confirmation.account) :
      Acts settings world who world.state (.unlinked confirmation)
  | startLink {confirmation : Confirmation} (start : Start) (nonce : String) (now : Int) (purged : List String)
      (unlinked : world.sessions who = .unlinked confirmation)
      (enabled : settings.providerEnabled start.provider = true) (provider : start.provider = confirmation.provider)
      (purpose : start.purpose = .link) (portal : start.portal = confirmation.account.portal)
      (old : ∀ id ∈ purged, ∃ row ∈ world.state.transactions, row.id = id ∧ row.expiresAt < now - seconds 3600)
      (free : ∀ id ∈ purged, Available HoldsRow world who id)
      (random : ∀ other row, .started other row ∈ world.state.history →
        row.id ≠ start.id ∧ row.stateHash ≠ settings.sha256 start.state ∧ row.nonce ≠ nonce)
      (known : world.state.knows confirmation.account.portalUserId) :
      Acts settings world who
        (((world.state.without purged).write (startTransaction settings start (some confirmation.account) nonce now)).log
          (.started (some confirmation) (startTransaction settings start (some confirmation.account) nonce now)))
        .idle
  | startLogin (start : Start) (nonce : String) (now : Int) (purged : List String)
      (idle : world.sessions who = .idle) (enabled : settings.providerEnabled start.provider = true)
      (purpose : start.purpose = .login)
      (old : ∀ id ∈ purged, ∃ row ∈ world.state.transactions, row.id = id ∧ row.expiresAt < now - seconds 3600)
      (free : ∀ id ∈ purged, Available HoldsRow world who id)
      (random : ∀ other row, .started other row ∈ world.state.history →
        row.id ≠ start.id ∧ row.stateHash ≠ settings.sha256 start.state ∧ row.nonce ≠ nonce) :
      Acts settings world who
        (((world.state.without purged).write (startTransaction settings start none nonce now)).log
          (.started none (startTransaction settings start none nonce now)))
        .idle
  -- `consume_transaction`
  | call (callback : Callback) (idle : world.sessions who = .idle) :
      Acts settings world who world.state (.calling callback)
  | lock {callback : Callback} {row : Transaction} (calling : world.sessions who = .calling callback)
      (member : row ∈ world.state.transactions) (state : row.stateHash = settings.sha256 callback.state)
      (provider : row.provider = callback.provider) (free : Available HoldsRow world who row.id) :
      Acts settings world who world.state (.locked callback row)
  | expire {callback : Callback} {row : Transaction} (locked : world.sessions who = .locked callback row)
      (expired : callback.consumption settings.toSettings row.toOAuthTransaction = .transactionExpired) :
      Acts settings world who (world.state.write { row with consumedAt := some callback.now }) .idle
  | consume {callback : Callback} {row : Transaction} (locked : world.sessions who = .locked callback row)
      (accepted : callback.consumption settings.toSettings row.toOAuthTransaction = .consumed) :
      Acts settings world who
        ((world.state.write { row with consumedAt := some callback.now }).log (.consumed row.id callback))
        (.consumed row.id)
  | refresh {id : String} {row : Transaction} (consumed : world.sessions who = .consumed id)
      (got : world.state.transactions.get id = some row) :
      Acts settings world who world.state (.exchanging row)
  -- `exchange_and_validate`
  | validate {row : Transaction} {claims : ProviderClaims} (idToken : String)
      (exchanging : world.sessions who = .exchanging row)
      (valid : validateToken settings row.provider row.nonce idToken = .ok claims) :
      Acts settings world who (world.state.log (.accepted row.id idToken)) (.validated row claims)
  -- `_complete_link`
  | disown {row : Transaction} {claims : ProviderClaims} (validated : world.sessions who = .validated row claims)
      (purpose : row.purpose = .link)
      (absent : ∀ identity ∈ world.state.identities, ¬ identity.hasSubject row.provider claims) :
      Acts settings world who world.state (.unowned row claims)
  | link {row : Transaction} {claims : ProviderClaims} (id now : Int) (unowned : world.sessions who = .unowned row claims)
      (target : Targets row.portal row.portalUserId row.adminUsername)
      (unused : ∀ other identity, .linked other identity ∈ world.state.history → identity.id ≠ id)
      (free : Free world.state.identities (linkedIdentity row claims id now target))
      (known : world.state.knows row.portalUserId) :
      Acts settings world who
        ((world.state.identify (linkedIdentity row claims id now target)).log
          (.linked row.id (linkedIdentity row claims id now target)))
        .idle
  -- `_complete_login`
  | identify {row : Transaction} {claims : ProviderClaims} {identity : ExternalIdentity}
      (validated : world.sessions who = .validated row claims) (purpose : row.purpose = .login)
      (member : identity ∈ world.state.identities) (subject : identity.hasSubject row.provider claims)
      (portal : identity.accountType = row.portal) :
      Acts settings world who world.state (.identified row claims identity)
  | letIn {row : Transaction} {claims : ProviderClaims} {identity : ExternalIdentity} {account : Account}
      (hasEmployment : Bool) (identified : world.sessions who = .identified row claims identity)
      (completed : completeLogin settings world.state.accounts hasEmployment row identity = .ok account) :
      Acts settings world who world.state (.admitted row claims identity account)
  /-- The instant of the sign-in is new to the row, and a row that is gone cannot be updated. -/
  | signInUser {row stored : Transaction} {claims : ProviderClaims} {identity current : ExternalIdentity} {userId : Int}
      (payload : String) (now : Int) (admitted : world.sessions who = .admitted row claims identity (.employee userId))
      (got : world.state.identities.get identity.id = some current)
      (result : world.state.transactions.get row.id = some stored) (free : Available HoldsRow world who row.id) :
      Acts settings world who
        (((world.state.identify (identity.seen claims now current)).write
          { stored with
            resultPayload := some payload
            resultExpiresAt := some (now + seconds settings.externalAuthResultTtlSeconds) }).log
          (.signedIn row.id (.employee userId) identity.id))
        .idle
  | signInAdmin {row : Transaction} {claims : ProviderClaims} {identity current : ExternalIdentity} {username : String}
      (now : Int) (admitted : world.sessions who = .admitted row claims identity (.admin username))
      (got : world.state.identities.get identity.id = some current) :
      Acts settings world who
        ((world.state.identify (identity.seen claims now current)).log (.signedIn row.id (.admin username) identity.id))
        .idle
  -- `_unlink`
  | collect {confirmation : Confirmation} {identity : ExternalIdentity} (pending : List String)
      (confirmed : world.sessions who = .confirmed confirmation) (member : identity ∈ world.state.identities)
      (linked : identity.isOf confirmation.provider confirmation.account)
      (matching : ∀ id, id ∈ pending ↔
        ∃ row ∈ world.state.transactions, row.id = id ∧ row.isPending settings confirmation.provider confirmation.account) :
      Acts settings world who world.state (.unlinking confirmation identity pending)
  | unlink {confirmation : Confirmation} {identity : ExternalIdentity} {pending : List String}
      (unlinking : world.sessions who = .unlinking confirmation identity pending)
      (free : ∀ id ∈ pending, Available HoldsRow world who id) :
      Acts settings world who
        (({ world.state.without pending with
            identities := world.state.identities.deleteWhere fun other => other.id = identity.id } : Store).log
          (.unlinked confirmation identity.id))
        .idle

end Steps

end Dagmar.ExternalAuth
