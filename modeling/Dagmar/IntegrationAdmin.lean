import Mathlib.Data.List.Infix
import Mathlib.Data.String.Basic
import Dagmar.IntegrationLists
import Dagmar.IntegrationSecrets
import Dagmar.Library.SortedSets

/-! The administration of integration clients: what a form is checked for, what is stored
of it, and what the form is filled with when the client is opened again. -/

namespace Dagmar.IntegrationAdmin
open Library Library.Calendar Library.Outcome Integration
open Secrets (IntegrationClientStatus)

section Names

def nameMinLength : Nat := 3
def nameMaxLength : Nat := 80

/-- A character of `_NAME_TOKEN_PATTERN`. -/
def isNameCharacter (c : Char) : Bool :=
  ('0' ≤ c ∧ c ≤ '9') ∨ ('A' ≤ c ∧ c ≤ 'Z') ∨ ('a' ≤ c ∧ c ≤ 'z') ∨ (0xc0 ≤ c.toNat ∧ c.toNat ≤ 0x24f) ∨
    c = ' ' ∨ c = '_' ∨ c = '-'

def contains (text part : String) : Bool := part.toList <:+: text.toList
def startsWith (text start : String) : Bool := start.toList <+: text.toList

def addressMarks : List String := ["http://", "https://", "www."]
def secretMarks : List String := ["dgi_", "dg_", "sk-", "token", "secret"]

/-- `lower` is `str.lower`. -/
def validateClientName (lower : String → String) (rawName : String) : Api String := do
  let name := strip rawName
  raiseIf (name.length < nameMinLength) (.http 400 "Název integrace musí mít alespoň 3 znaky.")
  raiseIf (nameMaxLength < name.length) (.http 400 "Název integrace může mít nejvýše 80 znaků.")
  raiseIf (name.toList.any (·.toNat < 32)) (.http 400 "Název integrace nesmí obsahovat řídicí znaky.")
  raiseIf (¬ (name ≠ "" ∧ name.toList.all isNameCharacter))
    (.http 400 "Název integrace může obsahovat jen písmena, číslice, mezery, pomlčky a podtržítka.")
  raiseIf (addressMarks.any (contains (lower name))) (.http 400 "Název integrace nesmí být URL adresa.")
  raiseIf (contains name "<" ∨ contains name ">") (.http 400 "Název integrace nesmí obsahovat HTML značky.")
  raiseIf (secretMarks.any (startsWith (lower name))) (.http 400 "Název integrace nesmí vypadat jako token nebo tajný údaj.")
  return name

end Names

section Scopes

structure ScopeDefinition where
  id : String
  available : Bool
deriving DecidableEq

def scopeHealth : String := "integration:health"

def scopeDefinitions : List ScopeDefinition :=
  [⟨scopeHealth, true⟩, ⟨"employments:read", true⟩, ⟨"shift_plan:read", false⟩, ⟨"attendance:read", true⟩,
    ⟨"attendance:create", true⟩, ⟨"attendance:update", true⟩, ⟨"attendance:delete", true⟩, ⟨"punches:read", false⟩,
    ⟨"locks:read", true⟩, ⟨"openapi:read", true⟩, ⟨"changes:read", false⟩]

/-- `sorted` of the set of the stripped texts. -/
def normalizeStringList (values : List String) : List String :=
  sortedSet ((values.map strip).filter (· ≠ ""))

def permissionProfiles : List (String × List String) :=
  [("HEALTH_ONLY", [scopeHealth]),
    ("ATTENDANCE_READ", [scopeHealth, "employments:read", "attendance:read", "locks:read"]),
    ("FULL_READONLY", [scopeHealth, "employments:read", "attendance:read", "locks:read", "openapi:read"])]

def findPermissionProfile (scopeIds : List String) : Option String :=
  (permissionProfiles.find? fun profile =>
    profile.2.insertionSort (· ≤ ·) = scopeIds.insertionSort (· ≤ ·)).map Prod.fst

def checkScope (scope : String) : Api Unit := do
  let definition ← require (scopeDefinitions.find? (·.id = scope)) (.http 400 s!"Neznámé oprávnění: {scope}.")
  raiseIf (definition.available = false) (.http 400 s!"Oprávnění {scope} není v této verzi podporováno.")

def validateScopes (rawScopes : List String) : Api (List String) := do
  let scopes := normalizeStringList rawScopes
  forM scopes checkScope
  raiseIf (scopes = []) (.http 400 "Vyberte alespoň jedno oprávnění integračního klienta.")
  raiseIf (scopeHealth ∉ scopes) (.http 400 "Každá integrace musí mít oprávnění pro kontrolu dostupnosti API.")
  return scopes

end Scopes

section Ranges

def scopeAll : String := "ALL_EMPLOYMENTS"
def scopeActiveOnly : String := "ALL_ACTIVE_EMPLOYMENTS"
def scopeSelectedEmployees : String := "SELECTED_EMPLOYEES"
def scopeSelectedEmployments : String := "SELECTED_EMPLOYMENTS"

def dataScopes : List String := [scopeAll, scopeActiveOnly, scopeSelectedEmployees, scopeSelectedEmployments]

/-- The chosen numbers, each of which a stored row has. -/
def validateSelectedIds (empty missing : String) (stored : Int → Bool) (ids : List Int) : Api (List Int) := do
  raiseIf (ids = []) (.http 400 empty)
  let normalized := sortedSet ids
  forM normalized fun id => bindInteger (some id)
  match normalized.find? fun id => ¬ stored id with
  | some first => .error (.http 400 (missing ++ toString first ++ "."))
  | none => return normalized

def validateSelectedEmployeeIds (db : Db) (employeeIds : List Int) : Api (List Int) :=
  validateSelectedIds "Vyberte alespoň jednoho zaměstnance." "Neexistující zaměstnanec: "
    (fun id => (db.users.get id).isSome) employeeIds

def validateSelectedEmploymentIds (db : Db) (employmentIds : List Int) : Api (List Int) :=
  validateSelectedIds "Vyberte alespoň jeden úvazek." "Neexistující employment_id: "
    (fun id => (db.employments.get id).isSome) employmentIds

def restrictionNone : String := "NONE"
def restrictionServerManaged : String := "SERVER_MANAGED"

end Ranges

section Expiration

def expirationNone : String := "NONE"
def expiration30Days : String := "DAYS_30"
def expiration90Days : String := "DAYS_90"
def expiration1Year : String := "YEAR_1"
def expirationCustom : String := "CUSTOM_DATE"

/-- `now + timedelta(days=...)`. -/
def daysLater (now days : Int) : Api (Option Int) := do
  raiseIf (¬ inCalendar (dateOf (now + days * day))) (.uncaught "OverflowError")
  return some (now + days * day)

/-- The last microsecond of a day. -/
def endOfDay (date : Int) : Int := midnight (date + 1) - 1

def expirationFromChoice (now : Int) (choice : String) (customDate : Option Int) : Api (Option Int) :=
  if choice = expirationNone then return none
  else if choice = expiration30Days then daysLater now 30
  else if choice = expiration90Days then daysLater now 90
  else if choice = expiration1Year then daysLater now 365
  else if choice = expirationCustom then do
    let date ← require customDate (.http 400 "Vyberte datum expirace.")
    raiseIf (date ≤ dateOf now) (.http 400 "Datum expirace musí být v budoucnosti.")
    return some (endOfDay date)
  else .error (.http 400 "Neplatná volba expirace.")

def expirationChoiceFromDatetime (now : Int) (expiresAt : Option Int) : String × Option Int :=
  match expiresAt with
  | none => (expirationNone, none)
  | some expiresAt =>
    let deltaDays := dateOf expiresAt - dateOf now
    if 28 ≤ deltaDays ∧ deltaDays ≤ 31 then (expiration30Days, some (dateOf expiresAt))
    else if 88 ≤ deltaDays ∧ deltaDays ≤ 92 then (expiration90Days, some (dateOf expiresAt))
    else if 360 ≤ deltaDays ∧ deltaDays ≤ 370 then (expiration1Year, some (dateOf expiresAt))
    else (expirationCustom, some (dateOf expiresAt))

end Expiration

section Clients

/-- The columns that the administration writes. -/
structure IntegrationClient where
  id : Int
  name : String
  status : IntegrationClientStatus
  scopes : List String
  allowedEmploymentIds : List Int
  allowedEmployeeIds : List Int
  dataScopeMode : String
  includeInactiveEmployments : Bool
  ipAllowlist : List String
  expiresAt : Option Int
  createdBy : Option String
deriving DecidableEq

/-- `IntegrationClientUpdateIn` is the same. -/
structure IntegrationClientCreateIn where
  name : String
  selectedScopeIds : List String
  dataScopeMode : String
  selectedEmployeeIds : List Int
  selectedEmploymentIds : List Int
  includeInactiveEmployments : Bool
  ipRestrictionMode : String
  expirationChoice : String
  customExpirationDate : Option Int

structure IntegrationClientConfigurationOut where
  selectedScopeIds : List String
  permissionProfileId : Option String
  dataScopeMode : String
  selectedEmployeeIds : List Int
  selectedEmploymentIds : List Int
  includeInactiveEmployments : Bool
  ipRestrictionMode : String
  expirationChoice : String
  customExpirationDate : Option Int

def inferIpRestrictionMode (client : IntegrationClient) : String :=
  if client.ipAllowlist ≠ [] then restrictionServerManaged else restrictionNone

def inferDataScopeMode (client : IntegrationClient) : String :=
  let rawMode := strip client.dataScopeMode
  if rawMode ∈ dataScopes then rawMode
  else if client.allowedEmployeeIds ≠ [] then scopeSelectedEmployees
  else if client.allowedEmploymentIds ≠ [] then scopeSelectedEmployments
  else scopeAll

def serializeConfiguration (now : Int) (client : IntegrationClient) : IntegrationClientConfigurationOut :=
  let (choice, customDate) := expirationChoiceFromDatetime now client.expiresAt
  { selectedScopeIds := client.scopes
    permissionProfileId := findPermissionProfile client.scopes
    dataScopeMode := inferDataScopeMode client
    selectedEmployeeIds := client.allowedEmployeeIds
    selectedEmploymentIds := client.allowedEmploymentIds
    includeInactiveEmployments := client.includeInactiveEmployments
    ipRestrictionMode := inferIpRestrictionMode client
    expirationChoice := choice
    customExpirationDate := customDate }

variable (lower : String → String) (db : Db) (now : Int)

/-- The employments that a payload opens: the numbers of employees and of employments, and whether inactive ones count. -/
def selectRange (payload : IntegrationClientCreateIn) : Api (List Int × List Int × Bool) := do
  if payload.dataScopeMode = scopeSelectedEmployees then
    let employeeIds ← validateSelectedEmployeeIds db payload.selectedEmployeeIds
    return (employeeIds, [], payload.includeInactiveEmployments)
  else if payload.dataScopeMode = scopeSelectedEmployments then
    let employmentIds ← validateSelectedEmploymentIds db payload.selectedEmploymentIds
    return ([], employmentIds, false)
  else return ([], [], payload.dataScopeMode = scopeAll)

def restrictAddresses (client : IntegrationClient) (mode : String) : Api (List String) := do
  raiseIf (mode ≠ restrictionNone ∧ mode ≠ restrictionServerManaged) (.http 400 "Neplatná volba IP omezení.")
  if mode = restrictionNone then return []
  else
    raiseIf (client.ipAllowlist = [])
      (.http 400 "IP omezení spravované mimo UI lze použít jen u klienta, který ho už má nastavené technicky.")
    return client.ipAllowlist

def applyPayloadToClient (client : IntegrationClient) (payload : IntegrationClientCreateIn) : Api IntegrationClient := do
  let name ← validateClientName lower payload.name
  let scopes ← validateScopes payload.selectedScopeIds
  raiseIf (payload.dataScopeMode ∉ dataScopes) (.http 400 "Neplatná volba datového rozsahu.")
  let (employeeIds, employmentIds, includeInactive) ← selectRange db payload
  let allowlist ← restrictAddresses client payload.ipRestrictionMode
  let expiresAt ← expirationFromChoice now payload.expirationChoice payload.customExpirationDate
  return { client with
    name := name
    scopes := scopes
    dataScopeMode := payload.dataScopeMode
    allowedEmployeeIds := employeeIds
    allowedEmploymentIds := employmentIds
    includeInactiveEmployments := includeInactive
    ipAllowlist := allowlist
    expiresAt := expiresAt }

end Clients

section Requests

/-- The numbers come from a sequence, which is past them all. -/
structure ClientStore where
  clients : Table IntegrationClient IntegrationClient.id
  nextId : Int
  fresh : ∀ client ∈ clients, client.id < nextId

def ClientStore.empty : ClientStore := ⟨∅, 1, by simp⟩

def ClientStore.put (store : ClientStore) (client : IntegrationClient) : ClientStore where
  clients := store.clients.put client
  nextId := max store.nextId (client.id + 1)
  fresh other member := by
    rcases Table.mem_put.mp member with rfl | ⟨before, -⟩
    · omega
    · exact lt_max_of_lt_left (store.fresh other before)

variable (lower : String → String) (db : Db) (now : Int) (store : ClientStore)

/-- The bounds of the field `name`. -/
def nameField (name : String) : Api Unit := raiseIf (name.length < nameMinLength ∨ nameMaxLength < name.length) (.invalid "name")

def getClientOr404 (clientId : Int) : Api IntegrationClient :=
  require (store.clients.get clientId) (.http 404 "Integrační klient nebyl nalezen.")

def nameTaken : ApiError := .http 409 "Integrační klient se stejným názvem už existuje."

/-- A row of the sequence's next number, before the payload is applied. -/
def newClient (name : String) : IntegrationClient where
  id := store.nextId
  name := name
  status := .active
  scopes := []
  allowedEmploymentIds := []
  allowedEmployeeIds := []
  dataScopeMode := scopeAll
  includeInactiveEmployments := false
  ipAllowlist := []
  expiresAt := none
  createdBy := some "admin-web"

def createIntegrationClient (payload : IntegrationClientCreateIn) : Api ClientStore := do
  nameField payload.name
  let normalizedName ← validateClientName lower payload.name
  raiseIf (∃ client ∈ store.clients.rows, client.name = normalizedName) nameTaken
  let client ← applyPayloadToClient lower db now (newClient store normalizedName) payload
  return store.put client

def updateIntegrationClient (clientId : Int) (payload : IntegrationClientCreateIn) : Api ClientStore := do
  nameField payload.name
  let client ← getClientOr404 store clientId
  let normalizedName ← validateClientName lower payload.name
  raiseIf (∃ other ∈ store.clients.rows, other.name = normalizedName ∧ other.id ≠ clientId) nameTaken
  let client ← applyPayloadToClient lower db now client payload
  return store.put client

def rotateIntegrationClientSecret (clientId : Int) : Api ClientStore := do
  let client ← getClientOr404 store clientId
  let status := if client.status = .revoked then .active else client.status
  return store.put { client with status := status }

def disableIntegrationClient (clientId : Int) : Api ClientStore := do
  let client ← getClientOr404 store clientId
  return store.put { client with status := .disabled }

def enableIntegrationClient (clientId : Int) : Api ClientStore := do
  let client ← getClientOr404 store clientId
  raiseIf (client.scopes = []) (.http 400 "Bez oprávnění nelze klienta aktivovat.")
  return store.put { client with status := .active }

def revokeIntegrationClientSecret (clientId : Int) : Api ClientStore := do
  let client ← getClientOr404 store clientId
  return store.put { client with status := .revoked }

inductive AdminRequest where
  | create (payload : IntegrationClientCreateIn)
  | update (clientId : Int) (payload : IntegrationClientCreateIn)
  | rotate (clientId : Int)
  | disable (clientId : Int)
  | enable (clientId : Int)
  | revokeSecret (clientId : Int)

def AdminRequest.handle : AdminRequest → Api ClientStore
  | .create payload => createIntegrationClient lower db now store payload
  | .update clientId payload => updateIntegrationClient lower db now store clientId payload
  | .rotate clientId => rotateIntegrationClientSecret store clientId
  | .disable clientId => disableIntegrationClient store clientId
  | .enable clientId => enableIntegrationClient store clientId
  | .revokeSecret clientId => revokeIntegrationClientSecret store clientId

/-- A request at an instant, with the employments and accounts it finds. -/
structure AdminCall where
  db : Db
  now : Int
  request : AdminRequest

/-- A refused request changes nothing. -/
def ClientStore.step (store : ClientStore) (call : AdminCall) : ClientStore :=
  match call.request.handle lower call.db call.now store with
  | .ok next => next
  | .error _ => store

def ClientStore.run (store : ClientStore) (calls : List AdminCall) : ClientStore := calls.foldl (ClientStore.step lower) store

end Requests

section Enforcement

def scopeOf (name : String) : Scope :=
  if name = "attendance:create" then .attendanceCreate
  else if name = "attendance:update" then .attendanceUpdate
  else if name = "attendance:delete" then .attendanceDelete
  else .other name

/-- The client as the requests of the integration interface check it. -/
def IntegrationClient.enforced (client : IntegrationClient) : Dagmar.IntegrationClient where
  scopes := client.scopes.map scopeOf
  dataScopeMode := Dagmar.dataScopeMode (some client.dataScopeMode)
  allowedEmploymentIds := client.allowedEmploymentIds
  allowedEmployeeIds := client.allowedEmployeeIds
  includeInactiveEmployments := client.includeInactiveEmployments

end Enforcement

end Dagmar.IntegrationAdmin
