import Dagmar.Json
import Dagmar.Library.Outcome
import Dagmar.Text

/-! The signed assertion of a CML web request and its verification. What the key,
the hash and the JSON loader answer is a parameter. -/

namespace Dagmar.Cml
open Library Library.Outcome

abbrev Bytes := List UInt8

section Patterns

/-- `[0-9a-f]`. -/
def isHex (c : Char) : Bool := ('0' ≤ c && c ≤ '9') || ('a' ≤ c && c ≤ 'f')

/-- `[A-Za-z0-9_-]`. -/
def isUrlSafe (c : Char) : Bool :=
  ('A' ≤ c && c ≤ 'Z') || ('a' ≤ c && c ≤ 'z') || ('0' ≤ c && c ≤ '9') || c = '_' || c = '-'

/-- `[0-9a-f]{8}(?:-[0-9a-f]{4}){3}-[0-9a-f]{12}`, which is also how a `UUID` is written. -/
def isUuid (text : List Char) : Bool :=
  (text.splitOn '-').map List.length = [8, 4, 4, 4, 12] && (text.splitOn '-').all (·.all isHex)

/-- `[0-9a-f-]{36}`. -/
def isIdentifier (text : List Char) : Bool := text.length = 36 && text.all fun c => isHex c || c = '-'

/-- `[1-9][0-9]*`. -/
def isPositive : List Char → Bool
  | [] => false
  | first :: rest => '1' ≤ first && first ≤ '9' && rest.all fun c => '0' ≤ c && c ≤ '9'

/-- `user:` and an identifier. -/
def isUserSubject (text : List Char) : Bool := "user:".toList.isPrefixOf text && isIdentifier (text.drop 5)

/-- `str` of a value, as far as it can be made of letters, digits and dashes of some length. -/
def str : Json → List Char
  | .text value => value.toList
  | .number value => (toString value).toList
  | _ => []

end Patterns

section Claims

/-- An exception: one that `verify` and the boundary turn into a denial, or another. -/
inductive Fault where
  | denied (code : String)
  | uncaught
deriving DecidableEq, Repr

def iat (claims : Json) : Int := ((claims.find "iat").integer?).getD 0

def exp (claims : Json) : Int := ((claims.find "exp").integer?).getD 0

def jti (claims : Json) : String := String.ofList (str (claims.find "jti"))

def csrf (claims : Json) : String := ((claims.find "csrf").text?).getD ""

def isOwner (claims : Json) : Bool := (claims.find "sub").isText "KRMAR78"

def userAdministration : Json → Bool :=
  Json.isRecord [("contract", Json.isText "kajovo-user-administration/1"),
    ("permissions", Json.isSingleton (Json.isText "users.access")),
    ("dataScope", Json.isRecord [("kind", Json.isText "service")])]

def centralAdministrator (claims : Json) : Bool :=
  ((claims.find "sub").text?).any (fun subject => "user:".toList.isPrefixOf subject.toList && isUuid (subject.toList.drop 5)) &&
    (claims.find "role").isText "admin" && (claims.get "nativeId").any Json.isNull && (claims.get "authzPolicy").isNone &&
    userAdministration (claims.find "grant")

/-- The native identifier is a text of digits. -/
def hasNativeId (claims : Json) : Bool := ((claims.find "nativeId").text?).any fun value => isPositive value.toList

end Claims

section Verifier

def issuer : String := "https://kajovocml.hcasc.cz"

/-- What a loader raises: a `ValueError`, or a `RecursionError` that nobody catches. -/
inductive LoadError where
  | value
  | recursion
deriving DecidableEq, Repr

structure WebVerifier where
  audience : String
  loads : Bytes → Except LoadError Json
  /-- The key accepts the signature of a text. -/
  accepts : Bytes → List Char → Bool
  sha256 : Bytes → String

/-- The value of a character of the URL-safe alphabet. -/
def sextet (c : Char) : Nat :=
  if 'A' ≤ c ∧ c ≤ 'Z' then c.toNat - 65
  else if 'a' ≤ c ∧ c ≤ 'z' then c.toNat - 71
  else if '0' ≤ c ∧ c ≤ '9' then c.toNat + 4
  else if c = '-' then 62 else 63

/-- `base64.b64decode`, four characters at a time; the padding only completes the last group. -/
def b64decode : List Char → Option Bytes
  | [] => some []
  | [_] => none
  | [a, b] => some [UInt8.ofNat (sextet a * 4 + sextet b / 16)]
  | [a, b, c] => some [UInt8.ofNat (sextet a * 4 + sextet b / 16), UInt8.ofNat (sextet b % 16 * 16 + sextet c / 4)]
  | a :: b :: c :: d :: rest => do
    let bytes ← b64decode rest
    return UInt8.ofNat (sextet a * 4 + sextet b / 16) :: UInt8.ofNat (sextet b % 16 * 16 + sextet c / 4) ::
      UInt8.ofNat (sextet c % 4 * 64 + sextet d) :: bytes

def decode (value : List Char) : Except Fault Bytes := do
  raiseIf (¬ (value ≠ [] ∧ value.all isUrlSafe)) (.denied "invalid_encoding")
  require (b64decode value) (.denied "ValueError")

namespace WebVerifier
variable (verifier : WebVerifier)

def load (bytes : Bytes) : Except Fault Json :=
  match verifier.loads bytes with
  | .ok value => .ok value
  | .error .value => .error (.denied "ValueError")
  | .error .recursion => .error .uncaught

def isHeader : Json → Bool :=
  Json.isRecord [("typ", Json.isText "cml-web+jwt"), ("alg", Json.isText "EdDSA"), ("kid", Json.isText "cml-web-1")]

/-- The claims of a token that carries the signature of the key. -/
def opened (token : List Char) : Except Fault Json :=
  match token.splitOn '.' with
  | [h, p, s] => do
    let header ← verifier.load (← decode h)
    let claims ← verifier.load (← decode p)
    raiseIf (¬ isHeader header) (.denied "invalid_header")
    let signature ← decode s
    raiseIf (¬ verifier.accepts signature (h ++ '.' :: p)) (.denied "InvalidSignature")
    return claims
  | _ => .error (.denied "ValueError")

def isTimely (now : Int) (claims : Json) : Bool :=
  match (claims.find "iat").integer?, (claims.find "exp").integer? with
  | some iat, some exp => exp - iat = 10 && now - 10 ≤ iat && iat ≤ now + 1 && now < exp
  | _, _ => false

def matchesRequest (claims : Json) (method : String) (path : List Char) (body : Bytes) : Bool :=
  (claims.find "iss").isText issuer && (claims.find "aud").isText verifier.audience &&
    (claims.find "method").isText method && (claims.find "path").isText (String.ofList path) &&
    (claims.find "bodySha256").isText (verifier.sha256 body)

def check (claims : Json) (method : String) (path : List Char) (body : Bytes) (now : Int) : Except Fault Unit := do
  raiseIf (¬ claims.isObject) (.denied "invalid_claims")
  raiseIf (¬ isTimely now claims) (.denied "expired_assertion")
  raiseIf (¬ verifier.matchesRequest claims method path body) (.denied "request_mismatch")
  raiseIf (¬ (isUuid (str (claims.find "jti")) ∧ isIdentifier (str (claims.find "sid")) ∧
    ((claims.find "epoch").integer?).any (1 ≤ ·))) (.denied "invalid_identity")
  raiseIf (¬ (isOwner claims ∨ isUserSubject (str (claims.find "sub")))) (.denied "invalid_subject")
  raiseIf (¬ ((claims.find "role").isText "admin" ∨ (claims.find "role").isText "member")) (.denied "invalid_role")
  raiseIf (¬ (isOwner claims ∨ centralAdministrator claims ∨ hasNativeId claims)) (.denied "native_identity_required")
  raiseIf (¬ ((claims.find "csrf").text?).any fun value => value.length = 43 && value.toList.all isUrlSafe)
    (.denied "invalid_csrf")

/-- Every denial of a part is raised again as one. -/
def denial : Fault → Fault
  | .denied _ => .denied "assertion_denied"
  | .uncaught => .uncaught

def verify (token : List Char) (method : String) (path : List Char) (body : Bytes) (now : Int) : Except Fault Json :=
  Except.mapError denial do
    raiseIf (8192 < token.length) (.denied "invalid_assertion")
    let claims ← verifier.opened token
    verifier.check claims method path body now
    return claims

end WebVerifier

end Verifier

end Dagmar.Cml
