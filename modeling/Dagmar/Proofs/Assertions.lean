import Dagmar.CmlWeb

/-! What an assertion that was verified, and a request that was admitted with it,
are known to carry. -/

namespace Dagmar.Cml.Proofs
open Library Library.Outcome

section Values

theorem text_of_isText {text : String} {value : Json} (same : value.isText text) : value = .text text := by
  cases value with
  | text value => exact congrArg Json.text (of_decide_eq_true same)
  | _ => cases same

end Values

section Verification

/-- The lifetime of an assertion, seen at a time it is verified. -/
structure Timely (now : Int) (claims : Json) : Prop where
  lifetime : exp claims = iat claims + 10
  youth : now - 10 ≤ iat claims
  skew : iat claims ≤ now + 1
  unexpired : now < exp claims

theorem timely_of_isTimely {now : Int} {claims : Json} (timely : WebVerifier.isTimely now claims) : Timely now claims := by
  unfold WebVerifier.isTimely at timely
  split at timely
  · next issued expiry readIssued readExpiry =>
    simp only [Bool.and_eq_true, decide_eq_true_eq] at timely
    have issuedAt : iat claims = issued := by rw [iat, readIssued, Option.getD_some]
    have expiresAt : exp claims = expiry := by rw [exp, readExpiry, Option.getD_some]
    refine ⟨?_, ?_, ?_, ?_⟩
    all_goals omega
  · cases timely

/-- What `verify` has checked of the claims it returns. -/
structure Verified (verifier : WebVerifier) (token : List Char) (method : String) (path : List Char) (body : Bytes) (now : Int)
    (claims : Json) : Prop where
  opened : verifier.opened token = .ok claims
  timely : Timely now claims
  method : claims.find "method" = .text method
  path : claims.find "path" = .text (String.ofList path)
  body : claims.find "bodySha256" = .text (verifier.sha256 body)
  subject : isOwner claims ∨ centralAdministrator claims ∨ hasNativeId claims

theorem verify_ok {verifier : WebVerifier} {token : List Char} {method : String} {path : List Char} {body : Bytes} {now : Int}
    {claims : Json} (done : verifier.verify token method path body now = .ok claims) :
    Verified verifier token method path body now claims := by
  simp only [WebVerifier.verify, WebVerifier.check, mapError_eq_ok, bind_eq_ok, pure_eq_ok, raiseIf_eq_ok, not_not] at done
  obtain ⟨-, -, _, opened, -, ⟨-, -, -, timely, -, requested, -, -, -, -, -, -, -, subject, -⟩, rfl⟩ := done
  simp only [WebVerifier.matchesRequest, Bool.and_eq_true] at requested
  obtain ⟨⟨⟨⟨-, -⟩, method⟩, path⟩, body⟩ := requested
  exact ⟨opened, timely_of_isTimely timely, text_of_isText method, text_of_isText path, text_of_isText body, subject⟩

end Verification

section Admission

/-- What has been checked of a request before its assertion is consumed. -/
structure Admitted (boundary : CmlWebBoundary) (verifier : WebVerifier) (now : Int) (scope : Scope) (claims : Json) (body : Bytes)
    (rawPath query : List Char) : Prop where
  received : receiveBody scope.messages [] = .ok body
  raw : scope.rawText = some rawPath
  asked : scope.queryText = some query
  verified : verifier.verify ((scope.header "x-cml-web-assertion").getD []) scope.method (exactPath rawPath query) body now =
    .ok claims
  central : centralAdministrator claims → isCentralPath boundary.audience scope.suffix ∧ query = [] ∧
    scope.method ∈ ["GET", "POST", "PUT", "PATCH"]

theorem checkScope_ok {boundary : CmlWebBoundary} {verifier : WebVerifier} {now : Int} {scope : Scope} {claims : Json} {body : Bytes}
    {rawPath query : List Char} (done : boundary.checkScope verifier now scope = .ok (claims, body, rawPath, query)) :
    Admitted boundary verifier now scope claims body rawPath query := by
  simp only [CmlWebBoundary.checkScope, denyIf, bind_eq_ok, pure_eq_ok, raiseIf_eq_ok, require_eq_ok, mapError_eq_ok,
    Prod.mk.injEq] at done
  obtain ⟨-, -, _, received, _, raw, _, asked, _, verified, -, -, -, -, -, -, -, central, rfl, rfl, rfl, rfl⟩ := done
  refine ⟨received, raw, asked, verified, ?_⟩
  intro administrator
  by_contra elsewhere
  exact central ⟨administrator, elsewhere⟩

end Admission

section Samples

def tokenHeader : List Char :=
  ["eyJ0eXAiOiJjbWwtd2ViK2p3", "dCIsImFsZyI6IkVkRFNBIiwi", "a2lkIjoiY21sLXdlYi0xIn0"].flatMap String.toList

def headerClaims : Json :=
  .object [("typ", .text "cml-web+jwt"), ("alg", .text "EdDSA"), ("kid", .text "cml-web-1")]

/-- A key that has signed one token; its requests have no body. -/
def keyOf (payload signature : List Char) (claims : Json) : WebVerifier where
  audience := "dochazka"
  loads bytes :=
    if b64decode tokenHeader = some bytes then .ok headerClaims
    else if b64decode payload = some bytes then .ok claims
    else .error .value
  accepts bytes text := b64decode signature = some bytes && text = tokenHeader ++ '.' :: payload
  sha256 _ := "e3b0c44298fc1c149afbf4c8996fb92427ae41e4649b934ca495991b7852b855"

theorem keyOf_opened {payload signature token : List Char} {claims found : Json}
    (opened : (keyOf payload signature claims).opened token = .ok found) : found = headerClaims ∨ found = claims := by
  unfold WebVerifier.opened at opened
  split at opened
  · simp only [bind_eq_ok, pure_eq_ok] at opened
    obtain ⟨_, -, _, -, bytes, -, _, loaded, -, -, _, -, -, -, rfl⟩ := opened
    simp only [WebVerifier.load, keyOf] at loaded
    split at loaded
    · next read =>
      cases loaded
      split at read
      · exact .inl (Except.ok.inj read).symm
      · split at read
        · exact .inr (Except.ok.inj read).symm
        · cases read
    · cases loaded
    · cases loaded
  · cases opened

def boundaryOf (verifier : WebVerifier) : CmlWebBoundary where
  audience := verifier.audience
  verifier := some verifier
  same := by
    rintro configured ⟨⟩
    rfl

def bytesOf (text : List Char) : Bytes := text.map fun c => UInt8.ofNat c.toNat

/-- A request as the central screen sends it. -/
def scopeOf (method : String) (path : List Char) (rawPath : String) (payload signature : List Char) : Scope where
  isHttp := true
  method := method
  path := path
  rawPath := some (bytesOf rawPath.toList)
  queryString := some []
  headers :=
    [(bytesOf "origin".toList, bytesOf issuer.toList),
      (bytesOf "x-cml-web-assertion".toList, bytesOf (tokenHeader ++ '.' :: payload ++ '.' :: signature)),
      (bytesOf "x-cml-web-prefix".toList, bytesOf "/sections/dochazka/".toList),
      (bytesOf "x-csrf-token".toList, bytesOf "aaaaaaaaaaaaaaaaaaaaaaaaaaaaaaaaaaaaaaaaaaa".toList)]
  messages := [.request [] false]

end Samples

end Dagmar.Cml.Proofs
