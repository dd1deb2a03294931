import Dagmar.CmlAssertion
import Dagmar.Credentials
import Dagmar.Library.Interleaving

/-! Profiles that the central screen provisions. Calls run side by side: a call takes
its two advisory locks, looks for its receipt and for conflicts, and creates a user with
an instance and a receipt in one transaction. Receipts are never changed or deleted;
everything else in the database may be, by anybody. -/

namespace Dagmar.Cml
open Library

section Input

structure Profile where
  name : String
  email : String
  phone : Option String
  role : String
deriving DecidableEq

/-- What `create` is called with, once it has been validated. -/
structure ProvisionInput where
  operationId : String
  centralUserId : String
  profile : Profile
deriving DecidableEq

/-- The functions of the platform on texts. An advisory lock is named by a number made of a text. -/
structure Platform where
  loads : Bytes → Option Json
  lower : String → String
  isDigit : Char → Bool
  sha256 : List Char → String
  lockId : String → Int

/-- `validate_phone`; the outer `none` is a `ValueError`. -/
def validatePhone (platform : Platform) (value : String) : Option (Option String) :=
  let normalized := strip value
  let digits := (normalized.toList.filter (· ≠ ' ')).dropWhile (· = '+')
  if normalized = "" then some none
  else if digits.all platform.isDigit ∧ 9 ≤ digits.length then some (some normalized)
  else none

def validateEmail (platform : Platform) (value : String) : Option String :=
  let normalized := platform.lower (strip value)
  let domain := ((normalized.toList.splitOn '@').getLast?).getD []
  if '@' ∈ normalized.toList ∧ '.' ∈ domain then some normalized else none

def boundedText (value : Json) (shortest longest : Nat) : Option String :=
  value.text?.filter fun text => shortest ≤ text.length ∧ text.length ≤ longest

def phoneField (platform : Platform) : Json → Option (Option String)
  | .null => some none
  | value => (boundedText value 0 32).bind (validatePhone platform)

def hasOnly (names : List String) : Json → Bool
  | .object fields => fields.all fun field => field.1 ∈ names
  | _ => false

def validateProfile (platform : Platform) (value : Json) : Option Profile :=
  if hasOnly ["name", "email", "phone", "role"] value then do
    let name := strip (← boundedText (value.find "name") 1 160)
    let email ← validateEmail platform (← boundedText (value.find "email") 3 160)
    let phone ← phoneField platform (value.find "phone")
    let role ← boundedText (value.find "role") 1 32
    if name = "" ∨ 128 < name.length ∨ role ≠ "employee" ∨ email = "provoz@hotelchodovasc.cz" then none
    else some ⟨name, email, phone, role⟩
  else none

def canonicalUuid (value : Json) : Option String := value.text?.filter fun text => isUuid text.toList

/-- `none` is `PROFILE_INPUT_INVALID`. -/
def provisionInput (platform : Platform) (raw : Bytes) : Option ProvisionInput := do
  let value ← platform.loads raw
  if hasOnly ["operation_id", "central_user_id", "profile"] value then do
    let operationId ← canonicalUuid (value.find "operation_id")
    let centralUserId ← canonicalUuid (value.find "central_user_id")
    let profile ← validateProfile platform (value.find "profile")
    some ⟨operationId, centralUserId, profile⟩
  else none

end Input

section Fingerprints

def hexDigit (n : Nat) : Char := Nat.digitChar n

/-- A character in a JSON text that is not restricted to ASCII. -/
def escape (c : Char) : List Char :=
  if c = '"' then ['\\', '"']
  else if c = '\\' then ['\\', '\\']
  else if c = '\n' then ['\\', 'n']
  else if c = '\r' then ['\\', 'r']
  else if c = '\t' then ['\\', 't']
  else if c.toNat = 8 then ['\\', 'b']
  else if c.toNat = 12 then ['\\', 'f']
  else if c.toNat < 32 then ['\\', 'u', '0', '0', hexDigit (c.toNat / 16), hexDigit (c.toNat % 16)]
  else [c]

def quoted (text : String) : List Char := '"' :: text.toList.flatMap escape ++ ['"']

def phoneText : Option String → List Char
  | none => "null".toList
  | some text => quoted text

/-- `json.dumps` with sorted keys and no blanks. -/
def dumps (centralUserId : String) (profile : Profile) : List Char :=
  '\x7b' :: quoted "central_user_id" ++ ':' :: quoted centralUserId ++ ',' :: quoted "profile" ++ ':' :: '\x7b' ::
    quoted "email" ++ ':' :: quoted profile.email ++ ',' :: quoted "name" ++ ':' :: quoted profile.name ++
    ',' :: quoted "phone" ++ ':' :: phoneText profile.phone ++ ',' :: quoted "role" ++ ':' :: quoted profile.role ++
    ['\x7d', '\x7d']

def fingerprint (platform : Platform) (input : ProvisionInput) : String :=
  platform.sha256 (dumps input.centralUserId input.profile)

/-- The advisory locks of a call, in order. -/
def lockIds (platform : Platform) (input : ProvisionInput) : List Int :=
  let first := platform.lockId ("cml-profile-operation:" ++ input.operationId)
  let second := platform.lockId ("cml-profile-identity:" ++ input.centralUserId)
  [min first second, max first second]

end Fingerprints

section Rows

structure CmlProfileProvision where
  operationId : String
  centralUserId : String
  fingerprint : String
  nativeId : Int
deriving DecidableEq

/-- A portal user with the columns a profile has. -/
structure ProfileUser extends Credentials.PortalUser where
  name : String
  phone : Option String
  role : String
deriving DecidableEq

/-- An instance with the columns a profile gives it. -/
structure ProfileInstance extends Credentials.Instance where
  deviceFingerprint : List Char
  displayName : String
deriving DecidableEq

structure Tables where
  users : Table ProfileUser (·.id)
  instances : Table ProfileInstance (·.id)
  receipts : Table CmlProfileProvision CmlProfileProvision.operationId
  nextUserId : Int

/-- The answer of a call. -/
structure ProvisionResult where
  confirmed : Bool
  operationId : String
  centralUserId : String
  fingerprint : String
  nativeId : Int
  profile : Option ProfileUser
deriving DecidableEq

def resultOf (users : Table ProfileUser (·.id)) (receipt : CmlProfileProvision) : ProvisionResult :=
  let user := users.get receipt.nativeId
  ⟨user.isSome, receipt.operationId, receipt.centralUserId, receipt.fingerprint, receipt.nativeId, user⟩

/-- The fingerprint of a long address is a digest. -/
def deviceFingerprint (platform : Platform) (email : String) : List Char :=
  if 128 < ("user:" ++ email).length then "cml-user:".toList ++ (platform.sha256 email.toList).toList
  else ("user:" ++ email).toList

def newInstance (platform : Platform) (input : ProvisionInput) (id : String) : ProfileInstance :=
  ⟨⟨id, .active, none⟩, deviceFingerprint platform input.profile.email, input.profile.name⟩

def newUser (input : ProvisionInput) (id : Int) (instanceId : String) : ProfileUser :=
  ⟨⟨id, input.profile.email, none, true, false, some instanceId⟩, input.profile.name, input.profile.phone, input.profile.role⟩

def newReceipt (platform : Platform) (input : ProvisionInput) (id : Int) : CmlProfileProvision :=
  ⟨input.operationId, input.centralUserId, fingerprint platform input, id⟩

end Rows

section Calls

inductive ProvisionEntry where
  | created (receipt : CmlProfileProvision)
  | answered (input : ProvisionInput) (result : ProvisionResult)
  | failed (code : String)
deriving DecidableEq

/-- The committed tables, and what calls have done, the latest first. -/
structure Store where
  tables : Tables
  history : List ProvisionEntry

/-- Where a call stands. From `created` on it has a user and an instance that nobody else sees;
`receipted` has a receipt as well. After an integrity error a call holds nothing any more. -/
inductive Provisioning where
  | idle
  | locking (input : ProvisionInput) (held waiting : List Int)
  | looking (input : ProvisionInput) (held : List Int)
  | unreceipted (input : ProvisionInput) (held : List Int)
  | unclaimed (input : ProvisionInput) (held : List Int)
  | unmailed (input : ProvisionInput) (held : List Int)
  | created (input : ProvisionInput) (held : List Int) (id : Int) (instanceId : String)
  | receipted (input : ProvisionInput) (held : List Int) (id : Int) (instanceId : String)
  | conflicted (input : ProvisionInput)

def HoldsLock : Provisioning → Int → Prop
  | .locking _ held _, key => key ∈ held
  | .looking _ held, key => key ∈ held
  | .unreceipted _ held, key => key ∈ held
  | .unclaimed _ held, key => key ∈ held
  | .unmailed _ held, key => key ∈ held
  | .created _ held _ _, key => key ∈ held
  | .receipted _ held _ _, key => key ∈ held
  | _, _ => False

def fail (store : Store) (code : String) : Store := { store with history := .failed code :: store.history }

def answer (store : Store) (input : ProvisionInput) (receipt : CmlProfileProvision) : Store :=
  { store with history := .answered input (resultOf store.tables.users receipt) :: store.history }

/-- The unique columns of the receipts leave room for another one. -/
def Unclaimed (receipts : Table CmlProfileProvision CmlProfileProvision.operationId) (receipt : CmlProfileProvision) : Prop :=
  ∀ row ∈ receipts, row.operationId ≠ receipt.operationId ∧ row.centralUserId ≠ receipt.centralUserId ∧
    row.nativeId ≠ receipt.nativeId

variable (platform : Platform)

/-- The statements of `create`. An insertion waits for one that it meets, so that the unique columns
are unique at the commit; an integrity error may come of any insertion. Anything else that fails
ends the call. -/
inductive Provisions (world : World Store Provisioning) (who : Nat) : Store → Provisioning → Prop where
  | refuse (raw : Bytes) (idle : world.sessions who = .idle) (invalid : provisionInput platform raw = none) :
      Provisions world who (fail world.state "PROFILE_INPUT_INVALID") .idle
  | start (raw : Bytes) {input : ProvisionInput} (idle : world.sessions who = .idle)
      (valid : provisionInput platform raw = some input) :
      Provisions world who world.state (.locking input [] (lockIds platform input))
  | lock {input : ProvisionInput} {held waiting : List Int} {key : Int}
      (locking : world.sessions who = .locking input held (key :: waiting)) (free : Available HoldsLock world who key) :
      Provisions world who world.state (.locking input (key :: held) waiting)
  | locked {input : ProvisionInput} {held : List Int} (locking : world.sessions who = .locking input held []) :
      Provisions world who world.state (.looking input held)
  | repeated {input : ProvisionInput} {held : List Int} {prior : CmlProfileProvision}
      (looking : world.sessions who = .looking input held)
      (found : world.state.tables.receipts.get input.operationId = some prior)
      (same : prior.fingerprint = fingerprint platform input) :
      Provisions world who (answer world.state input prior) .idle
  | operationConflict {input : ProvisionInput} {held : List Int} {prior : CmlProfileProvision}
      (looking : world.sessions who = .looking input held)
      (found : world.state.tables.receipts.get input.operationId = some prior)
      (different : prior.fingerprint ≠ fingerprint platform input) :
      Provisions world who (fail world.state "PROFILE_OPERATION_CONFLICT") .idle
  | unreceipted {input : ProvisionInput} {held : List Int} (looking : world.sessions who = .looking input held)
      (absent : world.state.tables.receipts.get input.operationId = none) :
      Provisions world who world.state (.unreceipted input held)
  | identityExists {input : ProvisionInput} {held : List Int} {row : CmlProfileProvision}
      (unreceipted : world.sessions who = .unreceipted input held) (member : row ∈ world.state.tables.receipts)
      (same : row.centralUserId = input.centralUserId) :
      Provisions world who (fail world.state "PROFILE_IDENTITY_EXISTS") .idle
  | unclaimed {input : ProvisionInput} {held : List Int} (unreceipted : world.sessions who = .unreceipted input held)
      (absent : ∀ row ∈ world.state.tables.receipts, row.centralUserId ≠ input.centralUserId) :
      Provisions world who world.state (.unclaimed input held)
  | emailExists {input : ProvisionInput} {held : List Int} {row : ProfileUser}
      (unclaimed : world.sessions who = .unclaimed input held) (member : row ∈ world.state.tables.users)
      (same : platform.lower row.email = input.profile.email) :
      Provisions world who (fail world.state "PROFILE_EMAIL_EXISTS") .idle
  | unmailed {input : ProvisionInput} {held : List Int} (unclaimed : world.sessions who = .unclaimed input held)
      (absent : ∀ row ∈ world.state.tables.users, platform.lower row.email ≠ input.profile.email) :
      Provisions world who world.state (.unmailed input held)
  | createProfile {input : ProvisionInput} {held : List Int} (id : Int) (instanceId : String)
      (unmailed : world.sessions who = .unmailed input held) (numbered : world.state.tables.nextUserId ≤ id) :
      Provisions world who { world.state with tables := { world.state.tables with nextUserId := id + 1 } }
        (.created input held id instanceId)
  | addReceipt {input : ProvisionInput} {held : List Int} {id : Int} {instanceId : String}
      (created : world.sessions who = .created input held id instanceId)
      (unclaimed : Unclaimed world.state.tables.receipts (newReceipt platform input id)) :
      Provisions world who world.state (.receipted input held id instanceId)
  | commit {input : ProvisionInput} {held : List Int} {id : Int} {instanceId : String}
      {users : Table ProfileUser (·.id)} {instances : Table ProfileInstance (·.id)}
      {receipts : Table CmlProfileProvision CmlProfileProvision.operationId}
      (receipted : world.sessions who = .receipted input held id instanceId)
      (unclaimed : Unclaimed world.state.tables.receipts (newReceipt platform input id))
      (unmailed : ∀ row ∈ world.state.tables.users, row.email ≠ input.profile.email)
      (instanceStored : world.state.tables.instances.insertAll [newInstance platform input instanceId] = some instances)
      (userStored : world.state.tables.users.insertAll [newUser input id instanceId] = some users)
      (receiptStored : world.state.tables.receipts.insertAll [newReceipt platform input id] = some receipts) :
      Provisions world who
        ⟨⟨users, instances, receipts, world.state.tables.nextUserId⟩,
          .answered input (resultOf users (newReceipt platform input id)) :: .created (newReceipt platform input id) ::
            world.state.history⟩ .idle
  | violate {input : ProvisionInput}
      (inserting : (∃ held, world.sessions who = .unmailed input held) ∨
        (∃ held id instanceId, world.sessions who = .created input held id instanceId) ∨
        ∃ held id instanceId, world.sessions who = .receipted input held id instanceId) :
      Provisions world who world.state (.conflicted input)
  | recover {input : ProvisionInput} {prior : CmlProfileProvision} (conflicted : world.sessions who = .conflicted input)
      (found : world.state.tables.receipts.get input.operationId = some prior)
      (same : prior.fingerprint = fingerprint platform input) :
      Provisions world who (answer world.state input prior) .idle
  | profileConflict {input : ProvisionInput} (conflicted : world.sessions who = .conflicted input)
      (unlike : ∀ prior, world.state.tables.receipts.get input.operationId = some prior →
        prior.fingerprint ≠ fingerprint platform input) :
      Provisions world who (fail world.state "PROFILE_CONFLICT") .idle
  | fault (code : String) (running : world.sessions who ≠ .idle) : Provisions world who (fail world.state code) .idle

/-- Other requests change users and instances, and delete them. -/
inductive Administers (world : World Store Provisioning) (who : Nat) : Store → Provisioning → Prop where
  | change (users : Table ProfileUser (·.id)) (instances : Table ProfileInstance (·.id)) (nextUserId : Int)
      (counted : world.state.tables.nextUserId ≤ nextUserId) :
      Administers world who
        { world.state with tables := { world.state.tables with users := users, instances := instances, nextUserId := nextUserId } }
        (world.sessions who)

def ProvisionsAmongOthers : Rule Store Provisioning := fun world who store session =>
  Provisions platform world who store session ∨ Administers world who store session

end Calls

end Dagmar.Cml
