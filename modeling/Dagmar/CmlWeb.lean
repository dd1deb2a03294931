import Dagmar.CmlAssertion
import Dagmar.Credentials
import Mathlib.Data.List.Infix

/-! The boundary of the CML web sections: a request under `/cml-web/` is answered
here, handed to the profile provisioner or forwarded to the application, and only
after its assertion was verified and consumed. -/

namespace Dagmar.Cml
open Library Library.Outcome

section Requests

/-- An ASGI message: a part of the body and whether more follows, or anything else. -/
inductive Message where
  | request (body : Bytes) (moreBody : Bool)
  | other
deriving DecidableEq

/-- An ASGI scope with the messages its client sends. -/
structure Scope where
  isHttp : Bool
  method : String
  path : List Char
  rawPath : Option Bytes
  queryString : Option Bytes
  headers : List (Bytes × Bytes)
  messages : List Message

def latin1 (bytes : Bytes) : List Char := bytes.map fun byte => Char.ofNat byte.toNat

/-- `decode('ascii')`. -/
def ascii? (bytes : Bytes) : Option (List Char) := if bytes.all (· < 128) then some (latin1 bytes) else none

/-- `str.lower` of a latin-1 character. -/
def lower (c : Char) : Char :=
  if ('A' ≤ c ∧ c ≤ 'Z') ∨ ('À' ≤ c ∧ c ≤ 'Þ' ∧ c ≠ '×') then Char.ofNat (c.toNat + 32) else c

/-- The last of the headers of a name counts. -/
def Scope.header (scope : Scope) (name : String) : Option (List Char) :=
  (scope.headers.reverse.find? fun header => (latin1 header.1).map lower = name.toList).map fun header => latin1 header.2

/-- The raw path, or the decoded one in its place, where it is ASCII. -/
def Scope.rawText (scope : Scope) : Option (List Char) :=
  match scope.rawPath with
  | some bytes => ascii? bytes
  | none => if scope.path.all (·.toNat < 128) then some scope.path else none

def Scope.queryText (scope : Scope) : Option (List Char) := ascii? (scope.queryString.getD [])

def exactPath (rawPath query : List Char) : List Char := if query = [] then rawPath else rawPath ++ '?' :: query

def mount : List Char := "/cml-web/".toList

def Scope.suffix (scope : Scope) : List Char := scope.path.drop mount.length

/-- `text.split(';')[0]` of the content type. -/
def Scope.contentType (scope : Scope) : List Char :=
  ((((scope.header "content-type").getD []).splitOn ';').head?).getD []

end Requests

section Authority

/-- The owner under its policy, or whoever has verified the identity afresh. -/
def centralWriteAuthorized (claims : Json) (now : Int) : Bool :=
  (isOwner claims && (claims.find "role").isText "admin" && (claims.find "nativeId").isNull &&
      (claims.find "authzPolicy").isText "owner-no-additional-prompts/1") ||
    ((claims.find "reauthUntil").integer?).any (now < ·)

structure AdminSession where
  username : String
  issuedAt : Int
deriving DecidableEq

/-- The state a resolved identity adds to a request and what it shows of itself. -/
structure Identity where
  userId : Option Int
  adminSession : Option AdminSession
  isAdmin : Bool
  languages : List String
deriving DecidableEq

def adminSession (claims : Json) : AdminSession := ⟨"cml:" ++ ((claims.find "sub").text?).getD "", iat claims⟩

def nativeUser (db : Credentials.Db) (claims : Json) : Option Credentials.PortalUser :=
  (((claims.find "nativeId").text?).bind fun text => digits? text.toList).bind fun id => db.users.get (id : Int)

/-- `resolve_identity`; the role a query selects is not read. -/
def resolveIdentity (db : Credentials.Db) (claims : Json) : Except Fault Identity :=
  if centralAdministrator claims then .ok ⟨none, some (adminSession claims), true, ["cs"]⟩
  else if isOwner claims then .ok ⟨none, some ⟨"cml:owner", iat claims⟩, true, ["cs", "en", "sk", "de"]⟩
  else do
    let admin := (claims.find "role").isText "admin"
    let user ← require (nativeUser db claims) (.denied "local_account_unavailable")
    raiseIf (¬ user.isActive ∨ user.isBlocked) (.denied "local_account_unavailable")
    raiseIf (¬ (db.instanceOf user).any (·.status = .active)) (.denied "local_instance_unavailable")
    return ⟨some user.id, if admin then some (adminSession claims) else none, admin,
      if admin then ["cs", "en", "sk", "de"] else ["cs", "en", "sk", "de", "hi"]⟩

end Authority

section Nonces

/-- A row of `cml_web_nonce`. -/
structure Nonce where
  jti : String
  expiresAt : Int
deriving DecidableEq

abbrev Nonces := Table Nonce Nonce.jti

/-- The rows a request deletes before it inserts its own. -/
def isOld (claims : Json) (row : Nonce) : Prop := row.expiresAt < iat claims - 20

instance (claims : Json) : DecidablePred (isOld claims) := fun _ => inferInstanceAs (Decidable (_ < _))

def nonceOf (claims : Json) : Nonce := ⟨jti claims, exp claims⟩

/-- The two statements and the commit of `_identity`; `none` is an `IntegrityError`. -/
def consume (nonces : Nonces) (claims : Json) : Option Nonces :=
  (nonces.deleteWhere (isOld claims)).insertAll [nonceOf claims]

end Nonces

section Boundary

structure CmlWebBoundary where
  audience : String
  verifier : Option WebVerifier
  same : ∀ configured ∈ verifier, configured.audience = audience

/-- The two times a request reads the clock. -/
structure Readings where
  verifying : Int
  authorizing : Int

/-- What the application gets: the scope with the new path and state, and the body again. -/
structure Forwarded where
  method : String
  path : List Char
  queryString : Option Bytes
  headers : List (Bytes × Bytes)
  body : Bytes
  identity : Identity
  claims : Json

/-- How a request ends early: a client that stops sending, an exception, or an answer with an error. -/
inductive Ending where
  | unconfigured
  | waiting
  | raised (fault : Fault)
  | refused (status : Nat) (code : String)

/-- What becomes of a request. Files are looked up under the root of the interface. -/
inductive Verdict where
  | bypassed
  | ended (ending : Ending)
  | createProfile (body : Bytes)
  | readProfile (ident : List Char)
  | showIdentity (identity : Identity)
  | showManifest (identity : Identity)
  | serveFile (name : List Char)
  | forwarded (request : Forwarded)

namespace Verdict

/-- The request is handed to the profile provisioner. -/
def provisions : Verdict → Bool
  | .createProfile _ => true
  | .readProfile _ => true
  | _ => false

def forwards : Verdict → Bool
  | .forwarded _ => true
  | _ => false

def denied : Verdict → Bool
  | .ended (.raised (.denied _)) => true
  | _ => false

end Verdict

/-- A step of the boundary ends the request or goes on. -/
abbrev Handling := Except Ending

def denyIf (condition : Prop) [Decidable condition] (code : String) : Handling Unit :=
  raiseIf condition (.raised (.denied code))

/-- The body of at most eight million bytes; a client that stops sending is waited for. -/
def receiveBody : List Message → Bytes → Handling Bytes
  | [], _ => .error .waiting
  | .other :: _, _ => .error (.raised (.denied "incomplete_request"))
  | .request part moreBody :: messages, body =>
    if 8000000 < (body ++ part).length then .error (.raised (.denied "payload_too_large"))
    else if moreBody then receiveBody messages (body ++ part)
    else .ok (body ++ part)

/-- `hmac.compare_digest` of two texts, of which the first is as the client sent it. -/
def compareDigest (sent expected : List Char) : Handling Bool :=
  if sent.all (·.toNat < 128) then .ok (sent = expected) else .error (.raised .uncaught)

def csrfMatches (scope : Scope) (claims : Json) : Handling Bool :=
  if scope.method = "GET" ∨ scope.method = "HEAD" then .ok true
  else compareDigest ((scope.header "x-csrf-token").getD []) (csrf claims).toList

/-- `api/v1/users/[1-9][0-9]*(?:/(?:roles|active))?`, the segments of it. -/
def isHotelUserPath : List (List Char) → Bool
  | [api, v1, users, id] => api = "api".toList && v1 = "v1".toList && users = "users".toList && isPositive id
  | [api, v1, users, id, last] =>
    api = "api".toList && v1 = "v1".toList && users = "users".toList && isPositive id &&
      (last = "roles".toList || last = "active".toList)
  | _ => false

/-- `api/v1/admin/(?:users/[1-9][0-9]*/employments|employments/[1-9][0-9]*)`, the segments of it. -/
def isAttendancePath : List (List Char) → Bool
  | [api, v1, admin, employments, id] =>
    api = "api".toList && v1 = "v1".toList && admin = "admin".toList && employments = "employments".toList && isPositive id
  | [api, v1, admin, users, id, employments] =>
    api = "api".toList && v1 = "v1".toList && admin = "admin".toList && users = "users".toList && isPositive id &&
      employments = "employments".toList
  | _ => false

/-- `api/profiles/[0-9a-f-]{36}`. -/
def isProfilePath (suffix : List Char) : Bool :=
  "api/profiles/".toList.isPrefixOf suffix && isIdentifier (suffix.drop "api/profiles/".length)

def isCentralPath (audience : String) (suffix : List Char) : Bool :=
  suffix = "api/profiles".toList || isProfilePath suffix ||
    (audience = "hotel" && isHotelUserPath (suffix.splitOn '/')) ||
    (audience = "dochazka" && isAttendancePath (suffix.splitOn '/'))

namespace CmlWebBoundary
variable (boundary : CmlWebBoundary)

/-- Everything before the assertion is consumed: the claims, the body, the raw path and the query. -/
def checkScope (verifier : WebVerifier) (now : Int) (scope : Scope) :
    Handling (Json × Bytes × List Char × List Char) := do
  denyIf (scope.header "origin" ≠ some issuer.toList) "issuer_required"
  let body ← receiveBody scope.messages []
  let rawPath ← require scope.rawText (.raised (.denied "UnicodeError"))
  let query ← require scope.queryText (.raised (.denied "UnicodeError"))
  let claims ← Except.mapError Ending.raised
    (verifier.verify ((scope.header "x-cml-web-assertion").getD []) scope.method (exactPath rawPath query) body now)
  denyIf (scope.header "x-cml-web-prefix" ≠ some ("/sections/" ++ boundary.audience ++ "/").toList) "prefix_mismatch"
  let trusted ← csrfMatches scope claims
  denyIf (¬ trusted) "csrf_denied"
  denyIf (centralAdministrator claims ∧ ¬ (isCentralPath boundary.audience scope.suffix ∧ query = [] ∧
    scope.method ∈ ["GET", "POST", "PUT", "PATCH"])) "central_administration_path_denied"
  return (claims, body, rawPath, query)

/-- The encodings of a dot, a slash, a backslash and a percent sign. -/
def encodings : List (List Char) := ["%2e".toList, "%2f".toList, "%5c".toList, "%25".toList]

def isDeniedPath (rawPath suffix : List Char) : Bool :=
  encodings.any (fun code => code <:+: rawPath.map lower) || (suffix.splitOn '/').contains "..".toList ||
    suffix.contains '\\'

/-- A request for a profile goes to the provisioner or is refused. -/
def routeProfile (now : Int) (scope : Scope) (claims : Json) (body : Bytes) (query : List Char) : Handling Verdict := do
  denyIf (¬ (isOwner claims ∨ centralAdministrator claims) ∨ query ≠ []) "central_owner_required"
  if scope.method = "POST" ∧ scope.suffix = "api/profiles".toList then
    if ¬ centralWriteAuthorized claims now then .error (.refused 403 "cml_reauth_required")
    else if scope.contentType ≠ "application/json".toList ∨ 16384 < body.length then
      .error (.refused 422 "PROFILE_INPUT_INVALID")
    else return .createProfile body
  else if scope.method = "GET" ∧ "api/profiles/".toList.isPrefixOf scope.suffix then
    return .readProfile (scope.suffix.drop "api/profiles/".length)
  else .error (.refused 405 "METHOD_DENIED")

def isCentral (suffix : List Char) : Bool :=
  (boundary.audience = "hotel" && (suffix = "api/v1/users".toList || "api/v1/users/".toList.isPrefixOf suffix)) ||
    (boundary.audience = "dochazka" && (suffix = "api/v1/admin/users".toList ||
      "api/v1/admin/users/".toList.isPrefixOf suffix || "api/v1/admin/employments/".toList.isPrefixOf suffix))

def credentialSegments : List (List Char) :=
  ["set-password".toList, "send-reset".toList, "password".toList, "reset-link".toList]

/-- A JSON body must not set a password. -/
def checkPayload (verifier : WebVerifier) (scope : Scope) (body : Bytes) : Handling Unit :=
  if body = [] ∨ scope.contentType ≠ "application/json".toList then return
  else match verifier.loads body with
    | .error .value => .error (.raised (.denied "invalid_json"))
    | .error .recursion => .error (.raised .uncaught)
    | .ok payload => denyIf (payload.isObject ∧ ¬ (payload.find "password").isNull) "central_credentials_only"

def checkCentral (verifier : WebVerifier) (now : Int) (scope : Scope) (claims : Json) (body : Bytes) : Handling Unit := do
  denyIf (¬ (isOwner claims ∨ centralAdministrator claims)) "central_administrator_required"
  denyIf (scope.method = "POST" ∧ (scope.suffix = "api/v1/users".toList ∨ scope.suffix = "api/v1/admin/users".toList))
    "central_profile_contract_required"
  denyIf (credentialSegments.any ((scope.suffix.splitOn '/').contains ·)) "central_credentials_only"
  checkPayload verifier scope body
  raiseIf (scope.method ≠ "GET" ∧ scope.method ≠ "HEAD" ∧ ¬ centralWriteAuthorized claims now)
    (.refused 403 "cml_reauth_required")

/-- Account and employment administration is owned by the central screen. -/
def checkAdministration (verifier : WebVerifier) (now : Int) (scope : Scope) (claims : Json) (body : Bytes) :
    Handling Unit :=
  if boundary.isCentral scope.suffix then checkCentral verifier now scope claims body else .ok ()

def localProtocols : List (List Char) :=
  ["/login".toList, "/logout".toList, "/reset-password".toList, "/request-password-reset".toList]

/-- A signed request cannot start a local login or invoke a different public protocol. -/
def isDeniedRoute (method : String) (suffix : List Char) : Bool :=
  !(boundary.audience = "dochazka" && suffix = "api/version".toList && method = "GET") &&
    (!("api/v1/".toList.isPrefixOf suffix || "api/auth/".toList.isPrefixOf suffix) ||
      localProtocols.any fun ending => ending.isSuffixOf suffix)

/-- Everything after the identity is known. -/
def route (verifier : WebVerifier) (now : Int) (scope : Scope) (claims : Json) (body : Bytes) (rawPath query : List Char)
    (identity : Identity) : Handling Verdict := do
  denyIf (isDeniedPath rawPath scope.suffix) "path_denied"
  if scope.suffix = "api/profiles".toList ∨ "api/profiles/".toList.isPrefixOf scope.suffix then
    routeProfile now scope claims body query
  else if scope.suffix = "identity".toList then return .showIdentity identity
  else if scope.suffix = "ui-manifest.json".toList then return .showManifest identity
  else if ¬ "api/".toList.isPrefixOf scope.suffix then return .serveFile scope.suffix
  else do
    boundary.checkAdministration verifier now scope claims body
    denyIf (boundary.isDeniedRoute scope.method scope.suffix) "route_denied"
    return .forwarded ⟨scope.method, '/' :: scope.suffix, scope.queryString, scope.headers, body, identity, claims⟩

/-- The assertion is consumed whatever becomes of the request afterwards. -/
def identify (nonces : Nonces) (db : Credentials.Db) (claims : Json) (next : Identity → Handling Verdict) :
    Nonces × Handling Verdict :=
  match consume nonces claims with
  | none => (nonces, .error (.raised (.denied "assertion_replayed")))
  | some nonces =>
    (nonces, do
      let identity ← Except.mapError Ending.raised (resolveIdentity db claims)
      next identity)

def verdict : Handling Verdict → Verdict
  | .ok verdict => verdict
  | .error ending => .ended ending

/-- `__call__`: the nonces afterwards and what becomes of the request. -/
def call (clock : Readings) (nonces : Nonces) (db : Credentials.Db) (scope : Scope) : Nonces × Verdict :=
  if ¬ (scope.isHttp ∧ mount.isPrefixOf scope.path) then (nonces, .bypassed)
  else match boundary.verifier with
    | none => (nonces, .ended .unconfigured)
    | some verifier =>
      match boundary.checkScope verifier clock.verifying scope with
      | .error ending => (nonces, .ended ending)
      | .ok (claims, body, rawPath, query) =>
        let (nonces, handled) := identify nonces db claims
          (boundary.route verifier clock.authorizing scope claims body rawPath query)
        (nonces, verdict handled)

end CmlWebBoundary

end Boundary

end Dagmar.Cml
