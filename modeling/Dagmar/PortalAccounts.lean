import Dagmar.CmlProfiles

/-! The accounts that an administrator creates and changes, and what the requests ask
of a text before any credential is looked at. A body bounds a password as it came;
what is stored of it is trimmed. -/

namespace Dagmar.Credentials.Accounts
open Library Library.Outcome
open Cml (Platform validateEmail validatePhone)

section Bodies

structure PortalUserCreateIn where
  name : String
  email : String
  phone : Option String := none
  role : String
  password : Option String := none
  isActive : Bool := true

structure PortalUserUpdateIn where
  name : Option String := none
  email : Option String := none
  phone : Option String := none
  role : Option String := none
  isActive : Option Bool := none
  password : Option String := none

def textField (field : String) (text : Option String) (shortest longest : Nat) : Api Unit :=
  raiseIf (∃ value ∈ text, value.length < shortest ∨ longest < value.length) (.invalid field)

def nameField (name : Option String) : Api Unit := do
  textField "name" name 1 160
  raiseIf (∃ value ∈ name, strip value = "") (.invalid "Jméno je povinné.")

def emailField (platform : Platform) (email : String) : Api String := do
  textField "email" (some email) 3 160
  require (validateEmail platform email) (.invalid "Zadejte platný e-mail ve formátu jmeno@domena.cz.")

def phoneField (platform : Platform) (phone : Option String) : Api Unit := do
  textField "phone" phone 0 32
  raiseIf (∃ value ∈ phone, validatePhone platform value = none)
    (.invalid "Telefon zadejte jako české nebo mezinárodní číslo, například +420 777 888 999.")

end Bodies

section Users
variable (platform : Platform)

def normalizedEmail (email : String) : String := platform.lower (strip email)

def reservedEmail (email : String) : Api Unit :=
  raiseIf (email = "provoz@hotelchodovasc.cz") (.api 400 "reserved_admin_email" "Tento e-mail je vyhrazen pro admin ucet." [])

def userRole (role : Option String) : Api Unit :=
  raiseIf (∃ value ∈ role, value ≠ "employee") (.api 400 "invalid_user_role" "Neplatna role uzivatele." [])

def freeEmail (db : Db) (email : String) (excludingId : Option Int) : Api Unit :=
  raiseIf (db.users.select (fun user => user.email = email ∧ some user.id ≠ excludingId) ≠ [])
    (.api 409 "user_email_exists" "Uzivatel s timto e-mailem uz existuje." [])

/-- The number of the row and the name of the instance are new. -/
def createUser (db : Db) (now userId : Int) (instanceId : String) (payload : PortalUserCreateIn) : Api Db := do
  nameField (some payload.name)
  let email ← emailField platform payload.email
  phoneField platform payload.phone
  textField "role" (some payload.role) 1 32
  passwordField payload.password 256
  let email := normalizedEmail platform email
  reservedEmail email
  userRole (some payload.role)
  freeEmail db email none
  let instances ← require (db.instances.insertAll [⟨instanceId, .active, none⟩]) (.uncaught "IntegrityError")
  let user : PortalUser := ⟨userId, email, none, payload.isActive, false, some instanceId⟩
  let users ← require (db.users.insertAll [user]) (.uncaught "IntegrityError")
  applyPassword { db with instances := instances, users := users } now user payload.password

/-- The part of an update that sets the e-mail. -/
def changeEmail (db : Db) (user : PortalUser) : Option String → Api Db
  | none => return db
  | some email => do
    let email := normalizedEmail platform email
    reservedEmail email
    if email = user.email then return db
    else
      freeEmail db email (some user.id)
      return { db with users := db.users.put { user with email := email } }

def updateUser (db : Db) (now userId : Int) (payload : PortalUserUpdateIn) : Api Db := do
  nameField payload.name
  let email ← payload.email.elim (return none) fun email => return some (← emailField platform email)
  phoneField platform payload.phone
  textField "role" payload.role 1 32
  passwordField payload.password 256
  let user ← require (db.users.get userId) userNotFound
  let db ← changeEmail platform db user email
  userRole payload.role
  Credentials.updateUser db now userId payload.isActive payload.password

/-- The bounds of `PortalLoginIn` come before the login. -/
def portalLogin (db : Db) (now : Int) (email password : String) (lockedOut hasEmployment : Bool) :
    Db × Except ApiError PortalSession :=
  match (do textField "email" (some email) 3 160; textField "password" (some password) 1 256 : Api Unit) with
  | .error error => (db, .error error)
  | .ok () => Credentials.portalLogin db now (normalizedEmail platform email) password lockedOut hasEmployment

end Users

section Passwords

/-- The operations that set a password, apart from the password itself. -/
inductive PasswordChange where
  | portalReset (token : String)
  | setUserPassword (userId : Int)
  | createUser (userId : Int) (instanceId : String) (payload : PortalUserCreateIn)
  | updateUser (userId : Int) (payload : PortalUserUpdateIn)

def PasswordChange.handle (platform : Platform) (db : Db) (now : Int) (password : String) : PasswordChange → Api Db
  | .portalReset token => Credentials.portalReset db now token password
  | .setUserPassword userId => Credentials.setUserPassword db now userId password
  | .createUser userId instanceId payload =>
    Accounts.createUser platform db now userId instanceId { payload with password := some password }
  | .updateUser userId payload => Accounts.updateUser platform db now userId { payload with password := some password }

/-- The user whose password is set. -/
def PasswordChange.target (db : Db) (now : Int) : PasswordChange → Option Int
  | .portalReset token => (resetRow db now token).map PortalUserResetToken.userId
  | .setUserPassword userId | .createUser userId _ _ | .updateUser userId _ => some userId

/-- The longest password that the body of the operation admits; the shortest is 8. -/
def PasswordChange.longest : PasswordChange → Nat
  | .portalReset _ => 512
  | .setUserPassword _ | .createUser .. | .updateUser .. => 256

end Passwords

end Dagmar.Credentials.Accounts
