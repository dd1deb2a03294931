import Dagmar.IsoText
import Dagmar.Schema
import Dagmar.SessionCookies

/-! The tokens that state-changing requests with a cookie echo. They are kept in the store
cookie of the browser session, which the session middleware seals and opens. -/

namespace Dagmar.Csrf
open Library.Outcome

section Tokens

/-- What a store cookie holds under the two keys that are ever written. -/
structure Session where
  csrfToken : Option Json
  csrfIssuedAt : Option Json

def Session.empty : Session := ⟨none, none⟩

def Session.isEmpty (session : Session) : Bool := session.csrfToken.isNone && session.csrfIssuedAt.isNone

/-- `secrets.token_urlsafe` of the bytes that were drawn. -/
def tokenUrlsafe (bytes : List UInt8) : String := String.ofList (Base64.b64url bytes)

def issueCsrfToken (now : Int) (bytes : List UInt8) : String × Session :=
  (tokenUrlsafe bytes, ⟨some (.text (tokenUrlsafe bytes)), some (.text (isoformat now 0))⟩)

/-- A time without an offset is taken for UTC. -/
def issuedAtUtc : RequestTime → Int
  | .naive wall => wall
  | .aware utc => utc

def rotateMinutes : Int := 120

def getOrRotateCsrfToken (now : Int) (bytes : List UInt8) (session : Session) : String × Session :=
  match session.csrfToken, session.csrfIssuedAt with
  | some (.text token), some (.text issuedAtRaw) =>
    match datetimeFromIsoformat issuedAtRaw with
    | some issuedAt =>
      if rotateMinutes * minute < now - issuedAtUtc issuedAt then issueCsrfToken now bytes else (token, session)
    | none => issueCsrfToken now bytes
  | _, _ => issueCsrfToken now bytes

end Tokens

section Checks

/-- The form of a request: it cannot be read, or it has a text or something else in its field `csrf_token`. -/
inductive Form where
  | unreadable
  | raises (raised : ApiError)
  | field (value : Option String)

structure Request where
  cmlWebClaims : Bool
  method : String
  csrfHeader : Option String
  form : Form

/-- The requests that are not checked: those with a verified assertion, and safe methods. -/
def Request.exempt (request : Request) : Bool :=
  request.cmlWebClaims || request.method ∈ ["GET", "HEAD", "OPTIONS"]

def csrfInvalid (message : String) : ApiError := .api 403 "csrf_invalid" message []

def constantTimeEq (provided expected : String) : Bool :=
  (Sessions.compareDigest provided.toList expected.toList).getD false

def filled (text : String) : Option String := if text = "" then none else some text

def expectedToken (session : Session) : Option String :=
  match session.csrfToken with
  | some (.text token) => filled token
  | _ => none

def headerToken (request : Request) : Option String := filled (strip (request.csrfHeader.getD ""))

def requireCsrfHeader (session : Session) (request : Request) : Api Unit :=
  if request.exempt then return ()
  else do
    let expected ← require (expectedToken session) (csrfInvalid "CSRF token chybí nebo není platný.")
    let provided ← require (headerToken request) (csrfInvalid "CSRF token chybí nebo není platný.")
    raiseIf (¬ constantTimeEq provided expected) (csrfInvalid "CSRF token chybí nebo není platný.")

/-- The form is read when the header holds no token. -/
def providedToken (request : Request) : Api (Option String) :=
  match headerToken request, request.form with
  | some token, _ => return some token
  | none, .unreadable => return none
  | none, .raises raised => .error raised
  | none, .field value => return value.bind fun raw => filled (strip raw)

def requireCsrf (session : Session) (request : Request) : Api Unit :=
  if request.exempt then return ()
  else do
    raiseIf session.isEmpty (csrfInvalid "Missing session")
    let expected ← require (expectedToken session) (csrfInvalid "Missing CSRF token in session")
    let provided ← require (← providedToken request) (csrfInvalid "Missing CSRF token")
    raiseIf (¬ constantTimeEq provided expected) (csrfInvalid "CSRF validation failed")

/-- The portal checks the header alone, the administration the header or the form. -/
inductive Check where
  | portal
  | admin

def Check.run : Check → Session → Request → Api Unit
  | .portal => requireCsrfHeader
  | .admin => requireCsrf

def Check.provided : Check → Request → Api (Option String)
  | .portal, request => return headerToken request
  | .admin, request => providedToken request

end Checks

section Runs

/-- A store cookie that a response has set. Cookies of one number follow from each other. -/
structure Sealed where
  number : Nat
  session : Session

inductive Event where
  | answered (number : Nat) (token : String) (instant : Int)
  | accepted (number : Option Nat) (token : String)
deriving DecidableEq

def Event.token : Event → String
  | .answered _ token _ => token
  | .accepted _ token => token

structure World where
  clock : Int
  handed : List Sealed
  begun : Nat
  history : List Event

/-- No cookie, one that is not sealed by the middleware and one that is too old open as an empty session. -/
def opened (cookie : Option Sealed) : Session := (cookie.map Sealed.session).getD .empty

def World.Holds (world : World) (cookie : Option Sealed) : Prop := ∀ known ∈ cookie, known ∈ world.handed

/-- `csrf_issue_token`, and the cookie of the response. -/
def World.issue (world : World) (cookie : Option Sealed) (bytes : List UInt8) : World :=
  let (token, session) := getOrRotateCsrfToken world.clock bytes (opened cookie)
  let number := (cookie.map Sealed.number).getD world.begun
  { world with
    handed := ⟨number, session⟩ :: world.handed
    begun := if cookie.isNone then world.begun + 1 else world.begun
    history := .answered number token world.clock :: world.history }

inductive Step : World → World → Prop where
  | tick {world : World} (later : Int) (ordered : world.clock ≤ later) (inside : inCalendar (dateOf later)) :
      Step world { world with clock := later }
  | issue {world : World} (cookie : Option Sealed) (held : world.Holds cookie) (bytes : List UInt8) (drawn : bytes.length = 32)
      (fresh : ∀ event ∈ world.history, event.token ≠ tokenUrlsafe bytes) : Step world (world.issue cookie bytes)
  | accept {world : World} (check : Check) (cookie : Option Sealed) (held : world.Holds cookie) (request : Request)
      (guarded : request.exempt = false) (passed : check.run (opened cookie) request = .ok ()) (token : String)
      (provided : check.provided request = .ok (some token)) :
      Step world { world with history := .accepted (cookie.map Sealed.number) token :: world.history }

def World.Reached (world : World) : Prop :=
  ∃ clock, inCalendar (dateOf clock) ∧ Relation.ReflTransGen Step ⟨clock, [], 0, []⟩ world

end Runs

end Dagmar.Csrf
