import Dagmar.Schema

/-! The credentials of portal users: passwords, browser sessions, instance tokens
and reset tokens, and the requests that issue and revoke them. A password hash is
salted afresh each time it is made; a signature or the hash of a token stands for
what was signed or hashed. -/

namespace Dagmar.Credentials
open Library Library.Outcome

section Rows

structure PasswordHash where
  salt : Nat
  password : String
  outdated : Bool
deriving DecidableEq

inductive InstanceStatus where
  | pending
  | active
  | revoked
  | deactivated
deriving DecidableEq, Repr

structure Instance where
  id : String
  status : InstanceStatus
  tokenHash : Option Nat
deriving DecidableEq

structure PortalUser where
  id : Int
  email : String
  passwordHash : Option PasswordHash
  isActive : Bool
  isBlocked : Bool
  instanceId : Option String
deriving DecidableEq

inductive ResetDeliveryState where
  | pending
  | sent
  | failed
deriving DecidableEq, Repr

structure PortalUserResetToken where
  id : Int
  userId : Int
  token : String
  expiresAt : Int
  usedAt : Option Int
  deliveryState : ResetDeliveryState
  revokedAt : Option Int
deriving DecidableEq

/-- The tables, with the salt and the number of the next secret to be made. -/
structure Db where
  users : Table PortalUser PortalUser.id
  instances : Table Instance Instance.id
  resetTokens : Table PortalUserResetToken PortalUserResetToken.id
  nextSalt : Nat
  nextSecret : Nat

/-- A browser session as it is signed: the tag is made from the password hash. -/
structure PortalSession where
  userId : Int
  credentialTag : PasswordHash
  issuedAt : Int
  jti : Nat
deriving DecidableEq

end Rows

section Revocation

def Db.instanceOf (db : Db) (user : PortalUser) : Option Instance := user.instanceId.bind db.instances.get

def revokeInstanceCredential (db : Db) (user : PortalUser) : Db :=
  match db.instanceOf user with
  | none => db
  | some instance' => { db with instances := db.instances.put { instance' with tokenHash := none } }

def revokePasswordResetTokens (db : Db) (now : Int) (userId : Int) : Db :=
  { db with
    resetTokens := db.resetTokens.mapRows
      (fun row => if row.userId = userId ∧ row.usedAt = none ∧ row.revokedAt = none then
        { row with revokedAt := some now } else row)
      (fun row => by split <;> rfl) }

/-- `hash_password`: a new salt. -/
def hashPassword (db : Db) (password : String) : Db × PasswordHash :=
  ({ db with nextSalt := db.nextSalt + 1 }, ⟨db.nextSalt, password, false⟩)

def changePortalPassword (db : Db) (now : Int) (user : PortalUser) (rawPassword : String) : Except String Db := do
  let password := strip rawPassword
  raiseIf (password = "") "Heslo nesmí být prázdné."
  raiseIf (512 < password.length) "password too long"
  let (db, hash) := hashPassword db password
  let user := { user with passwordHash := some hash }
  return revokeInstanceCredential (revokePasswordResetTokens { db with users := db.users.put user } now user.id) user

end Revocation

section Administration

def userNotFound : ApiError := .api 404 "user_not_found" "Uzivatel nenalezen." []

def accountBlocked : ApiError :=
  .api 403 "portal_account_blocked" "Váš přístup byl zablokován, obraťte se na svého nadřízeného." []

def applyPassword (db : Db) (now : Int) (user : PortalUser) : Option String → Api Db
  | none => return db
  | some rawPassword =>
    if strip rawPassword = "" then .error (.http 400 "Heslo nesmi byt prazdne.")
    else match changePortalPassword db now user (strip rawPassword) with
      | .ok db => .ok db
      | .error message => .error (.http 400 message)

/-- The bounds of a password in a body. -/
def passwordField (password : Option String) (longest : Nat) : Api Unit :=
  raiseIf (∃ text ∈ password, text.length < 8 ∨ longest < text.length) (.invalid "password")

def blockUser (db : Db) (now : Int) (userId : Int) (blocked : Bool) : Api Db := do
  let user ← require (db.users.get userId) userNotFound
  let user := { user with isBlocked := blocked }
  let db := { db with users := db.users.put user }
  if blocked then return revokeInstanceCredential (revokePasswordResetTokens db now userId) user else return db

/-- The part of an update that touches credentials. -/
def updateUser (db : Db) (now : Int) (userId : Int) (isActive : Option Bool) (password : Option String) : Api Db := do
  passwordField password 256
  let user ← require (db.users.get userId) userNotFound
  let user := { user with isActive := isActive.getD user.isActive }
  let db := { db with users := db.users.put user }
  let db := if isActive = some false then revokeInstanceCredential (revokePasswordResetTokens db now userId) user else db
  applyPassword db now user password

def setUserPassword (db : Db) (now : Int) (userId : Int) (password : String) : Api Db := do
  passwordField (some password) 256
  let user ← require (db.users.get userId) userNotFound
  applyPassword db now user (some password)

end Administration

section Issuing

def invalidCredentials (detail : String) : ApiError := .api 401 "portal_invalid_credentials" detail []

/-- `issue_portal_login`; whether an employment is open for signing in is not decided here. -/
def issuePortalLogin (db : Db) (user : PortalUser) (hasEmployment : Bool) : Api Unit := do
  raiseIf user.isBlocked accountBlocked
  raiseIf (¬ user.isActive) (.api 403 "external_account_inactive" "Interní účet není aktivní." [])
  let instance' ← require (db.instanceOf user)
    (.api 409 "portal_missing_instance_token" "Uživatel nemá připravený přístupový token." [])
  raiseIf (instance'.status ≠ .active) (.api 403 "portal_instance_inactive" "Přístupová instance není aktivní." [])
  raiseIf (¬ hasEmployment) (.api 403 "portal_no_available_employment"
    "Přihlášení není povoleno, protože uživatel nemá dostupný úvazek v povoleném přihlašovacím okně." [])

/-- A sign-in that is refused because of a block has already committed a new hash of an old kind. -/
def portalLogin (db : Db) (now : Int) (email password : String) (lockedOut hasEmployment : Bool) :
    Db × Except ApiError PortalSession :=
  if lockedOut then (db, .error (.api 423 "portal_account_locked"
    "Účet je dočasně uzamčen po opakovaných neplatných pokusech." [])) else
  match db.users.rows.find? (·.email = email) with
  | none => (db, .error (invalidCredentials "Neplatne prihlasovaci udaje"))
  | some user =>
    match user.passwordHash with
    | none => (db, .error (invalidCredentials "Neplatne prihlasovaci udaje"))
    | some hash =>
      if ¬ user.isActive ∨ hash.password ≠ password then
        (db, .error (invalidCredentials "Neplatne prihlasovaci udaje"))
      else
        let (rehashed, hash) := if hash.outdated then hashPassword db password else (db, hash)
        let user := { user with passwordHash := some hash }
        let rehashed := { rehashed with users := rehashed.users.put user }
        if user.isBlocked then (rehashed, .error accountBlocked)
        else match issuePortalLogin rehashed user hasEmployment with
          | .error error => (db, .error error)
          | .ok () => ({ rehashed with nextSecret := rehashed.nextSecret + 1 }, .ok ⟨user.id, hash, now, rehashed.nextSecret⟩)

def claimInstanceToken (db : Db) (instanceId : String) : Api (Db × Nat) := do
  let instance' ← require (db.instances.get instanceId) (.http 404 "Instance not found")
  raiseIf (instance'.status ≠ .active) (.http 409 "Instance is not active")
  return ({ db with
    instances := db.instances.put { instance' with tokenHash := some db.nextSecret }
    nextSecret := db.nextSecret + 1 }, db.nextSecret)

end Issuing

section Resetting

def resetTokenInvalid : ApiError := .api 400 "portal_reset_token_invalid" "Odkaz je neplatný nebo vypršel." []

/-- The conditions under which a reset token is looked up, twice. -/
def usable (row : PortalUserResetToken) (now : Int) : Prop :=
  row.usedAt = none ∧ row.revokedAt = none ∧ row.deliveryState = .sent ∧ now < row.expiresAt

instance (row : PortalUserResetToken) (now : Int) : Decidable (usable row now) := inferInstanceAs (Decidable (_ ∧ _))

def markUsed (db : Db) (now : Int) (id : Int) : Db :=
  { db with
    resetTokens := db.resetTokens.mapRows
      (fun row => if row.id = id then { row with usedAt := some now } else row) (fun row => by split <;> rfl) }

def resetRow (db : Db) (now : Int) (token : String) : Option PortalUserResetToken :=
  db.resetTokens.rows.find? fun row => row.token = token ∧ usable row now

def portalReset (db : Db) (now : Int) (token password : String) : Api Db := do
  raiseIf (token.length < 16 ∨ 512 < token.length) (.invalid "token")
  passwordField (some password) 512
  let row ← require (resetRow db now token) resetTokenInvalid
  let user ← require (db.users.get row.userId) resetTokenInvalid
  raiseIf (¬ user.isActive) resetTokenInvalid
  raiseIf user.isBlocked accountBlocked
  match changePortalPassword db now user password with
  | .error message => .error (.api 400 "portal_password_policy_failed" message [])
  | .ok db => return markUsed db now row.id

end Resetting

section Authentication

structure Settings where
  sessionMaxAgeSeconds : Int

/-- What a request carries. A cookie whose signature does not match reads as none. -/
structure Presented where
  cmlWebClaims : Bool
  cmlUserId : Option Int
  cmlBrowserEntryOnly : Bool
  fromBrowser : Bool
  bearer : Option Nat
  cookie : Option PortalSession
  csrf : Bool
  now : Int

def sessionInvalid : ApiError := .api 401 "portal_session_invalid" "Přihlášení není platné." []

def entryRequired : ApiError := .api 403 "cml_browser_entry_required" "Docházku otevřete v KájovoCML." []

def verifyInstanceToken (db : Db) (token : Nat) : Option Instance := db.instances.rows.find? (·.tokenHash = some token)

def requireInstanceAuth (db : Db) (presented : Presented) (token : Nat) : Api Instance := do
  raiseIf (presented.cmlBrowserEntryOnly ∧ presented.fromBrowser ∧ ¬ presented.cmlWebClaims) entryRequired
  let instance' ← require (verifyInstanceToken db token) sessionInvalid
  raiseIf (instance'.status ≠ .active) (.http 403 "Instance not active")
  return instance'

def scalarOneOrNone {α : Type} : List α → Api (Option α)
  | [] => return none
  | [row] => return some row
  | _ => .error (.uncaught "MultipleResultsFound")

def getPortalSession (settings : Settings) (presented : Presented) : Option PortalSession :=
  presented.cookie.filter fun session =>
    0 < session.userId && decide (presented.now - session.issuedAt ≤ settings.sessionMaxAgeSeconds)

def portalSessionMatchesPassword (session : PortalSession) (hash : PasswordHash) : Prop := session.credentialTag = hash

instance (session : PortalSession) (hash : PasswordHash) : Decidable (portalSessionMatchesPassword session hash) :=
  inferInstanceAs (Decidable (_ = _))

/-- A signed-in user, the instance, and what the request was signed in with. -/
inductive Credential where
  | cml
  | bearer (token : Nat)
  | cookie (session : PortalSession)
deriving DecidableEq

/-- The user of a browser session. -/
def sessionUser (settings : Settings) (db : Db) (presented : Presented) : Api (PortalUser × PortalSession) := do
  raiseIf presented.cmlBrowserEntryOnly entryRequired
  let session ← require (getPortalSession settings presented) sessionInvalid
  let user ← require (db.users.get session.userId) sessionInvalid
  let hash ← require user.passwordHash sessionInvalid
  raiseIf (¬ portalSessionMatchesPassword session hash) sessionInvalid
  raiseIf (¬ presented.csrf) (.api 403 "csrf_invalid" "CSRF token chybí nebo není platný." [])
  return (user, session)

/-- The last checks of a bearer or a browser session. -/
def admitUser (user : Option PortalUser) (instance' : Option Instance) (credential : Credential) :
    Api (PortalUser × Instance × Credential) := do
  let user ← require user (.http 401 "K tokenu neni prirazen uzivatel")
  let instance' ← require (instance'.filter (·.status = .active))
    (.api 403 "portal_instance_inactive" "Přístupová instance není aktivní." [])
  raiseIf user.isBlocked accountBlocked
  return (user, instance', credential)

def requirePortalUserAuth (settings : Settings) (db : Db) (presented : Presented) :
    Api (PortalUser × Instance × Credential) :=
  match (if presented.cmlWebClaims then presented.cmlUserId else none), presented.bearer with
  | some userId, _ => do
    let unavailable : ApiError := .http 403 "CML local account unavailable"
    let user ← require (db.users.get userId) unavailable
    raiseIf (¬ user.isActive ∨ user.isBlocked) unavailable
    let instance' ← require ((db.instanceOf user).filter (·.status = .active)) unavailable
    return (user, instance', .cml)
  | none, some token => do
    let instance' ← requireInstanceAuth db presented token
    let user ← scalarOneOrNone (db.users.select (·.instanceId = some instance'.id))
    admitUser user (some instance') (.bearer token)
  | none, none => do
    let (user, session) ← sessionUser settings db presented
    admitUser (some user) (db.instanceOf user) (.cookie session)

end Authentication

section Runs

inductive Request where
  | login (email password : String) (lockedOut hasEmployment : Bool)
  | claimToken (instanceId : String)
  | blockUser (userId : Int) (blocked : Bool)
  | updateUser (userId : Int) (isActive : Option Bool) (password : Option String)
  | setUserPassword (userId : Int) (password : String)
  | reset (token password : String)

/-- What committed requests did: a credential was issued, or a user's credentials were
to end. A block notes the password hash it found. -/
inductive Entry where
  | issued (credential : Credential)
  | blocked (userId : Int) (hash : Option PasswordHash)
  | deactivated (userId : Int)
  | passwordChanged (userId : Int)
deriving DecidableEq

/-- The database, and what has been committed, the latest first. -/
structure Server where
  db : Db
  history : List Entry

/-- What a request commits and adds to the history; `none` when it raises before it commits. -/
def Request.commit (db : Db) (now : Int) : Request → Option (Db × List Entry)
  | .login email password lockedOut hasEmployment =>
    match portalLogin db now email password lockedOut hasEmployment with
    | (next, .ok session) => some (next, [.issued (.cookie session)])
    | (next, .error _) => some (next, [])
  | .claimToken instanceId =>
    (claimInstanceToken db instanceId).toOption.map fun (next, token) => (next, [.issued (.bearer token)])
  | .blockUser userId blocked =>
    (Credentials.blockUser db now userId blocked).toOption.map fun next =>
      (next, if blocked then [.blocked userId ((db.users.get userId).bind PortalUser.passwordHash)] else [])
  | .updateUser userId isActive password =>
    (Credentials.updateUser db now userId isActive password).toOption.map fun next =>
      (next, (if password.isSome then [.passwordChanged userId] else []) ++
        if isActive = some false then [.deactivated userId] else [])
  | .setUserPassword userId password =>
    (Credentials.setUserPassword db now userId password).toOption.map fun next => (next, [.passwordChanged userId])
  | .reset token password =>
    (portalReset db now token password).toOption.map fun next =>
      (next, (resetRow db now token).toList.map fun row => .passwordChanged row.userId)

def step (server : Server) (request : Int × Request) : Server :=
  match request.2.commit server.db request.1 with
  | some (next, entries) => ⟨next, entries ++ server.history⟩
  | none => server

def run (server : Server) (requests : List (Int × Request)) : Server := requests.foldl step server

/-- Users and instances before any credential has been issued. -/
def Server.start (users : Table PortalUser PortalUser.id) (instances : Table Instance Instance.id)
    (resetTokens : Table PortalUserResetToken PortalUserResetToken.id) : Server where
  db :=
    { users := users
      instances := instances.mapRows (fun row => { row with tokenHash := none }) fun _ => rfl
      resetTokens := resetTokens
      nextSalt := ((users.rows.filterMap PortalUser.passwordHash).map PasswordHash.salt).foldr max 0 + 1
      nextSecret := 0 }
  history := []

end Runs

end Dagmar.Credentials
