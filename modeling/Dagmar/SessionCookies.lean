import Dagmar.Base64
import Dagmar.JsonText
import Mathlib.Logic.Relation

/-! The cookies of browser sessions as texts. One key signs the payloads of
administrators and of portal users and makes the tags of password hashes. What an
HMAC under that key answers is a parameter. -/

namespace Dagmar.Sessions
open JsonText Base64

section Platform

/-- What Python answers on values: `str` of one that is not a text, `int` of a text, the HMAC
under the session secret as `_sign` writes it, and where `json.loads` raises a `RecursionError`. -/
structure Platform where
  str : Json → String
  int : String → Option Int
  sign : String → String
  tooDeep : String → Bool

structure AdminSession where
  username : Option String
  issuedAt : Int
deriving DecidableEq

def AdminSession.isAuthenticated (session : AdminSession) : Prop := ∃ username, session.username = some username ∧ username ≠ ""

structure PortalSession where
  userId : Option Int
  credentialTag : Option String
  issuedAt : Int
deriving DecidableEq

def PortalSession.isAuthenticated (session : PortalSession) : Prop :=
  session.userId ≠ none ∧ ∃ tag, session.credentialTag = some tag ∧ tag ≠ ""

structure Settings where
  sessionMaxAgeSeconds : Int

/-- `value or default` takes the default for these. -/
def isFalsy : Json → Bool
  | .null => true
  | .flag value => !value
  | .number value => value = 0
  | .float value => value = 0
  | .infinite _ => false
  | .nan => false
  | .text value => value = ""
  | .list items => items.isEmpty
  | .object fields => fields.isEmpty

/-- From here on the nearest float is an infinite one. -/
def floatLimit : ℚ := 2 ^ 1024 - 2 ^ 970

/-- `int` raises an `OverflowError` on these. -/
def isInfinite : Json → Bool
  | .infinite _ => true
  | .float value => value ≤ -floatLimit ∨ floatLimit ≤ value
  | _ => false

/-- `int` of any other value: `none` is a `TypeError` or a `ValueError`. -/
def Platform.int? (platform : Platform) : Json → Option Int
  | .flag value => some (if value then 1 else 0)
  | .number value => some value
  | .float value => some (if value < 0 then -(-value).floor else value.floor)
  | .text value => platform.int value
  | _ => none

def Platform.text (platform : Platform) (value : Json) : String :=
  if isFalsy value then ""
  else
    match value with
    | .text text => text
    | other => platform.str other

def Platform.instant (platform : Platform) (value : Json) : Option Int :=
  if isFalsy value then some 0 else platform.int? value

end Platform

section Issuing

def encode (text : String) : List Char := b64url text.toUTF8.data.toList

def cookie (platform : Platform) (payload : String) : String :=
  String.ofList (encode payload ++ '.' :: (platform.sign payload).toList)

def passwordText (passwordHash : String) : String := "portal-password:" ++ passwordHash

def portalCredentialTag (platform : Platform) (passwordHash : String) : String := platform.sign (passwordText passwordHash)

/-- What `set_admin_session` and `set_portal_session` have issued. -/
inductive Issue where
  | admin (username : String) (issuedAt : Int) (jti : String)
  | portal (userId : Int) (passwordHash : String) (issuedAt : Int) (jti : String)
deriving DecidableEq

def adminMembers (username : String) (issuedAt : Int) (jti : String) : List (String × List Char × Json) :=
  [("u", dumpsText username, .text username), ("iat", dumpsNumber issuedAt, .number issuedAt), ("jti", dumpsText jti, .text jti)]

def portalMembers (userId : Int) (tag : String) (issuedAt : Int) (jti : String) : List (String × List Char × Json) :=
  [("uid", dumpsNumber userId, .number userId), ("ct", dumpsText tag, .text tag),
    ("iat", dumpsNumber issuedAt, .number issuedAt), ("jti", dumpsText jti, .text jti)]

/-- The members of a payload in the order of the source, each with what it is written from. -/
def Issue.members (platform : Platform) : Issue → List (String × List Char × Json)
  | .admin username issuedAt jti => adminMembers username issuedAt jti
  | .portal userId passwordHash issuedAt jti => portalMembers userId (portalCredentialTag platform passwordHash) issuedAt jti

def Issue.payload (platform : Platform) (issue : Issue) : String :=
  String.ofList (dumpsObject ((issue.members platform).map fun member => (member.1, member.2.1)))

def Issue.issuedAt : Issue → Int
  | .admin _ issuedAt _ => issuedAt
  | .portal _ _ issuedAt _ => issuedAt

def Issue.cookie (platform : Platform) (issue : Issue) : String := Sessions.cookie platform (issue.payload platform)

/-- The texts whose signature or tag an issued value contains. -/
def Issue.signed (platform : Platform) : Issue → List String
  | .admin username issuedAt jti => [(Issue.admin username issuedAt jti).payload platform]
  | .portal userId passwordHash issuedAt jti =>
    [(Issue.portal userId passwordHash issuedAt jti).payload platform, passwordText passwordHash]

end Issuing

section Reading

/-- The two parts of a cookie at its first point. -/
def parts (raw : String) : Option (List Char × List Char) :=
  match raw.toList.dropWhile (· ≠ '.') with
  | [] => none
  | _ :: signature => some (raw.toList.takeWhile (· ≠ '.'), signature)

def decode (text : List Char) : Option String := do
  String.fromUTF8? ⟨(← urlsafeB64decode (text ++ ['=', '='])).toArray⟩

/-- `hmac.compare_digest` of texts: `none` is the `TypeError` it raises outside ASCII. -/
def compareDigest (first second : List Char) : Option Bool :=
  if isAscii first ∧ isAscii second then some (first = second) else none

/-- What both readers do up to the signature: the payload when the signature is that of the payload.
The outer `none` is the error of `compare_digest`, which nobody catches. -/
def verified (platform : Platform) (raw : String) : Option (Option String) :=
  match (parts raw).bind fun (payload, signature) => (decode payload).map fun payload => (payload, signature) with
  | none => some none
  | some (payload, signature) =>
    (compareDigest (platform.sign payload).toList signature).map fun same => if same then some payload else none

/-- `json.loads` or `int` raises what the handler of `get_admin_session` does not name. -/
def Platform.adminRaises (platform : Platform) (payload : String) : Bool :=
  platform.tooDeep payload ||
    match loads payload with
    | some (.object fields) => isInfinite ((Json.object fields).find "iat")
    | _ => false

def adminOf (platform : Platform) (settings : Settings) (now : Int) (payload : String) : AdminSession :=
  match loads payload with
  | some (.object fields) =>
    match platform.instant ((Json.object fields).find "iat") with
    | some issuedAt =>
      let username := platform.text ((Json.object fields).find "u")
      if username = "" ∨ settings.sessionMaxAgeSeconds < now - issuedAt then ⟨none, issuedAt⟩
      else ⟨some username, issuedAt⟩
    | none => ⟨none, now⟩
  | _ => ⟨none, now⟩

/-- `get_admin_session`; a session that CML has verified takes precedence. `none` is an exception that
nobody catches. -/
def getAdminSession (platform : Platform) (settings : Settings) (cmlAdmin : Option AdminSession) (now : Int)
    (cookie : Option String) : Option AdminSession :=
  match cmlAdmin, cookie with
  | some session, _ => some session
  | none, none => some ⟨none, now⟩
  | none, some raw =>
    if raw = "" then some ⟨none, now⟩
    else
      (verified platform raw).bind fun payload => payload.elim (some ⟨none, now⟩) fun payload =>
        if platform.adminRaises payload then none else some (adminOf platform settings now payload)

/-- The same for `get_portal_session`, which converts the user before the time of issue. -/
def Platform.portalRaises (platform : Platform) (payload : String) : Bool :=
  platform.tooDeep payload ||
    match loads payload with
    | some (.object fields) =>
      isInfinite ((Json.object fields).find "uid") ||
        ((platform.int? ((Json.object fields).find "uid")).isSome && isInfinite ((Json.object fields).find "iat"))
    | _ => false

def portalOf (platform : Platform) (settings : Settings) (now : Int) (payload : String) : PortalSession :=
  match loads payload with
  | some (.object fields) =>
    match platform.int? ((Json.object fields).find "uid"), platform.instant ((Json.object fields).find "iat") with
    | some userId, some issuedAt =>
      let tag := platform.text ((Json.object fields).find "ct")
      if userId ≤ 0 ∨ tag = "" ∨ settings.sessionMaxAgeSeconds < now - issuedAt then ⟨none, none, issuedAt⟩
      else ⟨some userId, some tag, issuedAt⟩
    | _, _ => ⟨none, none, now⟩
  | _ => ⟨none, none, now⟩

def getPortalSession (platform : Platform) (settings : Settings) (now : Int) (cookie : Option String) : Option PortalSession :=
  match cookie with
  | none => some ⟨none, none, now⟩
  | some raw =>
    if raw = "" then some ⟨none, none, now⟩
    else
      (verified platform raw).bind fun payload => payload.elim (some ⟨none, none, now⟩) fun payload =>
        if platform.portalRaises payload then none else some (portalOf platform settings now payload)

end Reading

section Runs

/-- The clock, and what has been issued so far. -/
structure Ledger where
  clock : Int
  issued : List Issue

inductive Issues : Ledger → Ledger → Prop where
  | tick {ledger : Ledger} (later : Int) (ordered : ledger.clock ≤ later) : Issues ledger { ledger with clock := later }
  | issue {ledger : Ledger} (issue : Issue) (timed : issue.issuedAt = ledger.clock) :
      Issues ledger { ledger with issued := issue :: ledger.issued }

def Ledger.Reached (ledger : Ledger) : Prop := ∃ clock, Relation.ReflTransGen Issues ⟨clock, []⟩ ledger

/-- The cookies an adversary can build: a part that is the signature of a text is one that an
issued value contains. -/
def Ledger.Builds (platform : Platform) (ledger : Ledger) (raw : String) : Prop :=
  ∀ payload signature text, parts raw = some (payload, signature) → signature = (platform.sign text).toList →
    ∃ issue ∈ ledger.issued, ∃ known ∈ issue.signed platform, platform.sign known = platform.sign text

end Runs

end Dagmar.Sessions
