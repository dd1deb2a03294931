import Dagmar.Base64
import Dagmar.Library.Interleaving
import Dagmar.Library.Table
import Mathlib.Data.List.Sort

/-! The secrets of integration clients while requests of administrators run side by
side. A request loads the client and then its secrets, and holds no lock until its
commit; what it commits is one update for each row that it has changed. Those take
the locks of their rows and read nothing, so they show at once, with the commit. -/

namespace Dagmar.Secrets
open Library Base64

section Tokens

/-- SHA-256 in hexadecimal digits, and Argon2 with the salt that it draws. -/
structure Platform where
  sha256 : String → String
  hash : String → String → String
  verify : String → String → Bool
  parsesIp : String → Bool
  /-- The address or the network contains the address; a text that is neither contains none. -/
  containsIp : String → String → Bool

structure IntegrationTokenRecord where
  tokenPrefix : String
  tokenHash : String
  tokenLast4 : String
  tokenFingerprint : String
deriving DecidableEq

def tokenHumanPrefix : String := "dgi_"
def tokenPrefixLen : Nat := 16
def tokenFingerprintLen : Nat := 12

structure Settings where
  integrationTokenLength : Nat

/-- `generate_integration_token` of the bytes that it draws. -/
def generateIntegrationToken (raw : List UInt8) : String := tokenHumanPrefix ++ String.ofList (b64url raw)

def Settings.drawnBytes (settings : Settings) : Nat := max 16 settings.integrationTokenLength

def validateIntegrationTokenFormat (token : String) : Bool :=
  tokenHumanPrefix.toList.isPrefixOf token.toList && tokenHumanPrefix.length + 16 ≤ token.length && token.length ≤ 256

def tokenPrefix (platform : Platform) (token : String) : String :=
  String.ofList ((platform.sha256 token).toList.take tokenPrefixLen)

def tokenFingerprint (platform : Platform) (token : String) : String :=
  String.ofList ((platform.sha256 ("fingerprint:" ++ token)).toList.take tokenFingerprintLen)

def buildTokenRecord (platform : Platform) (salt token : String) : IntegrationTokenRecord where
  tokenPrefix := tokenPrefix platform token
  tokenHash := platform.hash salt token
  tokenLast4 := String.ofList (token.toList.drop (token.length - 4))
  tokenFingerprint := tokenFingerprint platform token

end Tokens

section Rows

inductive IntegrationClientStatus where
  | active
  | disabled
  | revoked
deriving DecidableEq, Repr

structure IntegrationClient where
  id : Int
  name : String
  status : IntegrationClientStatus
  scopes : List String
  ipAllowlist : List String
  expiresAt : Option Int
deriving DecidableEq

structure IntegrationClientSecret where
  id : Int
  clientId : Int
  record : IntegrationTokenRecord
  rotatedAt : Option Int
  revokedAt : Option Int
deriving DecidableEq

/-- What has been committed; the tokens of each client that have been issued, and those of them
that came before a rotation or a revocation. -/
structure Store where
  clients : Table IntegrationClient IntegrationClient.id
  secrets : Table IntegrationClientSecret IntegrationClientSecret.id
  issued : List (Int × String)
  retired : List (Int × String)

def Store.start : Store := ⟨∅, ∅, [], []⟩

end Rows

section Authentication

structure IntegrationTokenError where
  code : String
  message : String
deriving DecidableEq

/-- The application at one request: the instant and the address that it comes from. -/
structure Call where
  now : Int
  sourceIp : Option String

def clientIsActive (client : IntegrationClient) : Prop := client.status = .active

instance (client : IntegrationClient) : Decidable (clientIsActive client) := inferInstanceAs (Decidable (_ = _))

def clientIsExpired (client : IntegrationClient) (now : Int) : Prop := ∃ expiresAt ∈ client.expiresAt, expiresAt ≤ now

instance (client : IntegrationClient) (now : Int) : Decidable (clientIsExpired client now) :=
  inferInstanceAs (Decidable (∃ expiresAt ∈ client.expiresAt, _))

def ipAllowed (platform : Platform) (client : IntegrationClient) (sourceIp : Option String) : Bool :=
  client.ipAllowlist.isEmpty ||
    sourceIp.any fun ip => ip ≠ "" && platform.parsesIp ip && client.ipAllowlist.any (platform.containsIp · ip)

def candidates (platform : Platform) (store : Store) (token : String) : List IntegrationClientSecret :=
  (store.secrets.select fun secret => secret.record.tokenPrefix = tokenPrefix platform token ∧ secret.revokedAt = none).insertionSort
    fun first second => second.id ≤ first.id

/-- The first candidate of which the token is the one that was hashed; a candidate without a client is not joined. -/
def firstVerified (platform : Platform) (store : Store) (call : Call) (token : String) :
    List IntegrationClientSecret → Except IntegrationTokenError (Option (IntegrationClient × IntegrationClientSecret))
  | [] => .ok none
  | secret :: rest =>
    match store.clients.get secret.clientId with
    | none => firstVerified platform store call token rest
    | some client =>
      if secret.record.tokenHash = "" ∨ platform.verify secret.record.tokenHash token = false then
        firstVerified platform store call token rest
      else if ¬ clientIsActive client then .error ⟨"client_disabled", "Integrační klient je zakázaný."⟩
      else if clientIsExpired client call.now then .error ⟨"client_disabled", "Integrační klient expiroval."⟩
      else if ipAllowed platform client call.sourceIp = false then
        .error ⟨"ip_forbidden", "Požadavek není povolen z této IP adresy."⟩
      else .ok (some (client, secret))

def verifyIntegrationToken (platform : Platform) (store : Store) (call : Call) (token : String) :
    Except IntegrationTokenError (Option (IntegrationClient × IntegrationClientSecret)) :=
  if validateIntegrationTokenFormat token then firstVerified platform store call token (candidates platform store token)
  else .ok none

def Authenticates (platform : Platform) (store : Store) (call : Call) (token : String) : Prop :=
  ∃ client secret, verifyIntegrationToken platform store call token = .ok (some (client, secret))

end Authentication

section Steps

/-- What an administrator asks for a client that exists. -/
inductive Action where
  | rotate
  | disable
  | enable
  | revokeSecret
deriving DecidableEq, Repr

/-- The columns that `create` takes from its payload. -/
structure Draft where
  name : String
  scopes : List String
  ipAllowlist : List String
  expiresAt : Option Int
deriving DecidableEq

/-- Where a request stands: `found` has loaded the client, `loaded` its secrets as well. -/
inductive Session where
  | idle
  | found (action : Action) (client : IntegrationClient)
  | loaded (action : Action) (client : IntegrationClient) (secrets : List IntegrationClientSecret)
  | checked (draft : Draft)
deriving DecidableEq

/-- The status is written when it differs from the one that was loaded. -/
def setStatus (client : IntegrationClient) (status : IntegrationClientStatus) (row : IntegrationClient) : IntegrationClient :=
  if client.status ≠ status ∧ row.id = client.id then { row with status := status } else row

def Store.setStatus (store : Store) (client : IntegrationClient) (status : IntegrationClientStatus) : Store :=
  { store with
    clients := store.clients.mapRows (Secrets.setStatus client status) fun row => by
      unfold Secrets.setStatus
      split <;> rfl }

/-- A secret that was loaded unrevoked; `rotatedAt` is written by a rotation only. -/
def revoke (loaded : List IntegrationClientSecret) (now : Int) (rotates : Bool) (row : IntegrationClientSecret) :
    IntegrationClientSecret :=
  if ∃ secret ∈ loaded, secret.revokedAt = none ∧ secret.id = row.id then
    { row with revokedAt := some now, rotatedAt := if rotates then some now else row.rotatedAt }
  else row

def Store.revokeLoaded (store : Store) (client : IntegrationClient) (loaded : List IntegrationClientSecret) (now : Int)
    (rotates : Bool) : Store :=
  { store with
    secrets := store.secrets.mapRows (revoke loaded now rotates) fun row => by
      unfold revoke
      split <;> rfl
    retired := store.issued.filter (·.1 = client.id) ++ store.retired }

def Store.issue (store : Store) (platform : Platform) (clientId secretId : Int) (salt token : String) : Store :=
  { store with
    secrets := store.secrets.put ⟨secretId, clientId, buildTokenRecord platform salt token, none, none⟩
    issued := (clientId, token) :: store.issued }

/-- The bytes are random, so no token is drawn twice; the number comes from a sequence. -/
structure Store.Draws (store : Store) (settings : Settings) (secretId : Int) (raw : List UInt8) : Prop where
  length : raw.length = settings.drawnBytes
  random : ∀ issue ∈ store.issued, issue.2 ≠ generateIntegrationToken raw
  numbered : ∀ secret ∈ store.secrets, secret.id ≠ secretId

inductive Manages (platform : Platform) (settings : Settings) (world : World Store Session) (who : Nat) : Store → Session → Prop where
  /-- An error, a failed check or a lost connection. -/
  | abandon : Manages platform settings world who world.state .idle
  -- `create_integration_client`
  | check (draft : Draft) (idle : world.sessions who = .idle) (unused : ∀ client ∈ world.state.clients, client.name ≠ draft.name) :
      Manages platform settings world who world.state (.checked draft)
  | create {draft : Draft} (id secretId : Int) (salt : String) (raw : List UInt8) (checked : world.sessions who = .checked draft)
      (unique : ∀ client ∈ world.state.clients, client.id ≠ id ∧ client.name ≠ draft.name)
      (draws : world.state.Draws settings secretId raw) :
      Manages platform settings world who
        ({ world.state with
            clients := world.state.clients.put ⟨id, draft.name, .active, draft.scopes, draft.ipAllowlist, draft.expiresAt⟩
          }.issue platform id secretId salt (generateIntegrationToken raw))
        .idle
  -- `_get_client_or_404` is two statements
  | find {client : IntegrationClient} (action : Action) (idle : world.sessions who = .idle) (found : client ∈ world.state.clients) :
      Manages platform settings world who world.state (.found action client)
  | load {action : Action} {client : IntegrationClient} (found : world.sessions who = .found action client) :
      Manages platform settings world who world.state
        (.loaded action client (world.state.secrets.select (·.clientId = client.id)))
  | rotate {client : IntegrationClient} {secrets : List IntegrationClientSecret} (now secretId : Int) (salt : String)
      (raw : List UInt8) (loaded : world.sessions who = .loaded .rotate client secrets)
      (draws : world.state.Draws settings secretId raw) :
      Manages platform settings world who
        (((world.state.revokeLoaded client secrets now true).issue platform client.id secretId salt
          (generateIntegrationToken raw)).setStatus client (if client.status = .revoked then .active else client.status))
        .idle
  | disable {client : IntegrationClient} {secrets : List IntegrationClientSecret}
      (loaded : world.sessions who = .loaded .disable client secrets) :
      Manages platform settings world who (world.state.setStatus client .disabled) .idle
  | enable {client : IntegrationClient} {secrets : List IntegrationClientSecret}
      (loaded : world.sessions who = .loaded .enable client secrets) (permitted : client.scopes ≠ []) :
      Manages platform settings world who (world.state.setStatus client .active) .idle
  | revokeSecret {client : IntegrationClient} {secrets : List IntegrationClientSecret} (now : Int)
      (loaded : world.sessions who = .loaded .revokeSecret client secrets) :
      Manages platform settings world who ((world.state.revokeLoaded client secrets now false).setStatus client .revoked) .idle

end Steps

end Dagmar.Secrets
