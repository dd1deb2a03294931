import Dagmar.Proofs.CentralConfinement

/-! Passwords in what the boundary forwards. The boundary looks into a body only where
the last content type is `application/json` to the letter; the application reads the first
content type, in any case and with any blanks, takes every JSON media type and reads a body
without a content type too. -/

namespace Dagmar.Cml.Proofs
open Library Library.Outcome

section Statement

/-- The content type as the application finds it: the first header of the name. -/
def contentTypeOf (headers : List (Bytes × Bytes)) : Option (List Char) :=
  (headers.find? fun header => (latin1 header.1).map lower = "content-type".toList).map fun header => latin1 header.2

/-- What stands before the parameters of a content type, trimmed and in small letters. -/
def mediaType (value : List Char) : List Char :=
  (((((value.splitOn ';').head?).getD []).dropWhile isSpace).rdropWhile isSpace).map lower

/-- `application/json` or `application/*+json`. -/
def isJsonMedia (value : List Char) : Bool :=
  match (mediaType value).splitOn '/' with
  | [main, sub] => main = "application".toList && (sub = "json".toList || "+json".toList.isSuffixOf sub)
  | _ => false

/-- The application takes a body with these headers for JSON. -/
def ReadsJson (headers : List (Bytes × Bytes)) : Prop := ∀ value ∈ contentTypeOf headers, value ≠ [] → isJsonMedia value

instance (headers : List (Bytes × Bytes)) : Decidable (ReadsJson headers) :=
  inferInstanceAs (Decidable (∀ value ∈ contentTypeOf headers, value ≠ [] → isJsonMedia value))

/-- The body is an object with a password. -/
def SetsPassword (verifier : WebVerifier) (body : Bytes) : Prop :=
  ∃ payload, verifier.loads body = .ok payload ∧ payload.isObject ∧ ¬ (payload.find "password").isNull

/-- Paths under the users or the employments of the administration. -/
def Administers (path : List Char) : Prop :=
  path = "/api/v1/admin/users".toList ∨ "/api/v1/admin/users/".toList <+: path ∨ "/api/v1/admin/employments/".toList <+: path

def passwordBody : Bytes := bytesOf "\x7b\"password\":\"tajneheslo\"\x7d".toList

/-- What `json.loads` makes of nothing and of an object. -/
structure LoadsJson (verifier : WebVerifier) : Prop where
  empty : verifier.loads [] = .error .value
  password : verifier.loads passwordBody = .ok (.object [("password", .text "tajneheslo")])

/-- The request with another body reaches the application. -/
def ForwardedWith (boundary : CmlWebBoundary) (verifier : WebVerifier) (clock : Readings) (scope : Scope) (request : Forwarded)
    (body : Bytes) : Prop :=
  ∃ rawPath query, scope.rawText = some rawPath ∧ scope.queryText = some query ∧
    boundary.route verifier clock.authorizing scope request.claims body rawPath query request.identity =
      .ok (.forwarded { request with body := body })

end Statement

section Filter
variable {boundary : CmlWebBoundary} {verifier : WebVerifier} {now : Int} {scope : Scope} {claims : Json} {body : Bytes}
  {rawPath query : List Char} {identity : Identity} {request : Forwarded}

theorem checkPayload_elsewhere (other : scope.contentType ≠ "application/json".toList) (body : Bytes) :
    CmlWebBoundary.checkPayload verifier scope body = .ok () := if_pos (.inr other)

/-- A body that is looked into sets no password. -/
theorem checkPayload_ok (loads : LoadsJson verifier) (json : scope.contentType = "application/json".toList)
    (done : CmlWebBoundary.checkPayload verifier scope body = .ok ()) : ¬ SetsPassword verifier body := by
  intro ⟨payload, loaded, object, given⟩
  rw [CmlWebBoundary.checkPayload] at done
  split at done
  next skipped =>
    rcases skipped with rfl | other
    · cases loads.empty.symm.trans loaded
    · exact other json
  next inspected =>
    simp only [loaded, denyIf, raiseIf_eq_ok] at done
    exact done ⟨object, given⟩

theorem checkCentral_payload (done : CmlWebBoundary.checkCentral verifier now scope claims body = .ok ()) :
    CmlWebBoundary.checkPayload verifier scope body = .ok () := by
  simp only [CmlWebBoundary.checkCentral, bind_eq_ok] at done
  obtain ⟨_, _, _, _, _, _, _, payload, _⟩ := done
  exact payload

/-- The other checks do not look at the body. -/
theorem checkCentral_swap {other : Bytes} (done : CmlWebBoundary.checkCentral verifier now scope claims body = .ok ())
    (payload : CmlWebBoundary.checkPayload verifier scope other = .ok ()) :
    CmlWebBoundary.checkCentral verifier now scope claims other = .ok () := by
  simp only [CmlWebBoundary.checkCentral, bind_eq_ok] at done ⊢
  obtain ⟨_, entitled, _, creation, _, credentials, _, _, authorized⟩ := done
  exact ⟨(), entitled, (), creation, (), credentials, (), payload, authorized⟩

theorem route_swap {other : Bytes} (payload : CmlWebBoundary.checkPayload verifier scope other = .ok ())
    (done : boundary.route verifier now scope claims body rawPath query identity = .ok (.forwarded request)) :
    boundary.route verifier now scope claims other rawPath query identity = .ok (.forwarded { request with body := other }) := by
  simp only [CmlWebBoundary.route, bind_eq_ok] at done ⊢
  obtain ⟨_, path, done⟩ := done
  refine ⟨(), path, ?_⟩
  split at done
  · exact absurd rfl (routeProfile_ok done).2.2
  next profile =>
    rw [if_neg profile]
    split at done
    · cases done
    next identity' =>
      rw [if_neg identity']
      split at done
      · cases done
      next manifest =>
        rw [if_neg manifest]
        split at done
        · cases done
        next api =>
          rw [if_neg api]
          simp only [bind_eq_ok, pure_eq_ok, Verdict.forwarded.injEq] at done ⊢
          obtain ⟨_, administration, _, opened, rfl⟩ := done
          refine ⟨(), ?_, (), opened, rfl⟩
          rw [CmlWebBoundary.checkAdministration] at administration ⊢
          split at administration
          next central =>
            rw [if_pos central]
            exact checkCentral_swap administration payload
          next outside => rw [if_neg outside]

theorem isCentral_of_administers (attendance : boundary.audience = "dochazka") (administers : Administers ('/' :: scope.suffix)) :
    boundary.isCentral scope.suffix := by
  have slash (text : String) (plain : String) (same : text.toList = '/' :: plain.toList) :
      text.toList <+: '/' :: scope.suffix ↔ plain.toList <+: scope.suffix := by
    rw [same, List.cons_prefix_cons, and_iff_right rfl]
  simp only [CmlWebBoundary.isCentral, attendance, Bool.or_eq_true, Bool.and_eq_true, decide_eq_true_eq, true_and,
    List.isPrefixOf_iff_prefix]
  rcases administers with same | users | employments
  · exact .inr (.inl (.inl (List.cons.inj same).2))
  · exact .inr (.inl (.inr ((slash _ "api/v1/admin/users/" rfl).mp users)))
  · exact .inr (.inr ((slash _ "api/v1/admin/employments/" rfl).mp employments))

end Filter

section Main

end Main

section Samples

def passwordClaims : Json :=
  .object [("iss", .text "https://kajovocml.hcasc.cz"), ("aud", .text "dochazka"), ("sub", .text "KRMAR78"),
    ("role", .text "admin"), ("nativeId", .null), ("sid", .text "00000000-0000-4000-8000-000000000000"),
    ("epoch", .number 1), ("iat", .number 1000), ("exp", .number 1010),
    ("jti", .text "00000000-0000-4000-8000-000000000003"), ("method", .text "PUT"),
    ("path", .text "/cml-web/api/v1/admin/users/7"),
    ("bodySha256", .text "290e5013b9f1d180b397e2a6b3fa54eb11602b20457bb92755f110ae6844340a"),
    ("csrf", .text "aaaaaaaaaaaaaaaaaaaaaaaaaaaaaaaaaaaaaaaaaaa"), ("authzPolicy", .text "owner-no-additional-prompts/1")]

def passwordPayload : List Char :=
  ["eyJpc3MiOiJodHRwczovL2tham9", "2b2NtbC5oY2FzYy5jeiIsImF1ZC", "I6ImRvY2hhemthIiwic3ViIjoiS", "1JNQVI3OCIsInJvbGUiOiJhZG1p",
    "biIsIm5hdGl2ZUlkIjpudWxsLCJ", "zaWQiOiIwMDAwMDAwMC0wMDAwLT", "QwMDAtODAwMC0wMDAwMDAwMDAwM", "DAiLCJlcG9jaCI6MSwiaWF0Ijox",
    "MDAwLCJleHAiOjEwMTAsImp0aSI", "6IjAwMDAwMDAwLTAwMDAtNDAwMC", "04MDAwLTAwMDAwMDAwMDAwMyIsI", "m1ldGhvZCI6IlBVVCIsInBhdGgi",
    "OiIvY21sLXdlYi9hcGkvdjEvYWR", "taW4vdXNlcnMvNyIsImJvZHlTaG", "EyNTYiOiIyOTBlNTAxM2I5ZjFkM", "TgwYjM5N2UyYTZiM2ZhNTRlYjEx",
    "NjAyYjIwNDU3YmI5Mjc1NWYxMTB", "hZTY4NDQzNDBhIiwiY3NyZiI6Im", "FhYWFhYWFhYWFhYWFhYWFhYWFhY", "WFhYWFhYWFhYWFhYWFhYWFhYWFh",
    "YWEiLCJhdXRoelBvbGljeSI6Im9", "3bmVyLW5vLWFkZGl0aW9uYWwtcH", "JvbXB0cy8xIn0"].flatMap String.toList

def passwordSignature : List Char :=
  ["1UVzWWfyRyKCn-Tm877xBH-7C3k1U", "1IiPkaNRg4PB7USiAWugPdszQElVc", "IiSTxpuzpldzZqusu1qJqqaHoZ-A"].flatMap String.toList

/-- A key that has signed one token, for a body that sets a password. -/
def passwordKey : WebVerifier :=
  { keyOf passwordPayload passwordSignature passwordClaims with
    loads := fun bytes =>
      if bytes = passwordBody then .ok (.object [("password", .text "tajneheslo")])
      else (keyOf passwordPayload passwordSignature passwordClaims).loads bytes
    sha256 := fun _ => "290e5013b9f1d180b397e2a6b3fa54eb11602b20457bb92755f110ae6844340a" }

theorem passwordKey_loading (bytes : Bytes) : passwordKey.loads bytes =
    if bytes = passwordBody then .ok (.object [("password", .text "tajneheslo")])
    else (keyOf passwordPayload passwordSignature passwordClaims).loads bytes := rfl

theorem passwordKey_loads : LoadsJson passwordKey where
  empty := by
    have body : [] ≠ passwordBody := by decide
    have header : b64decode tokenHeader ≠ some [] := by decide +kernel
    have payload : b64decode passwordPayload ≠ some [] := by decide +kernel
    have fallback : (keyOf passwordPayload passwordSignature passwordClaims).loads [] = .error .value := by
      simp only [keyOf, if_neg header, if_neg payload]
    rw [passwordKey_loading, if_neg body, fallback]
  password := (passwordKey_loading passwordBody).trans (if_pos rfl)

/-- The owner sets the password of a user; no header names the type of the body. -/
def passwordScope : Scope :=
  { scopeOf "PUT" "/cml-web/api/v1/admin/users/7".toList "/cml-web/api/v1/admin/users/7" passwordPayload passwordSignature with
    messages := [.request passwordBody false] }

theorem password_forwards :
    ((boundaryOf passwordKey).call ⟨1003, 1004⟩ ∅ ⟨∅, ∅, ∅, 0, 0⟩ passwordScope).2.forwards := by decide +kernel

theorem exists_forwarded {verdict : Verdict} (forwards : verdict.forwards) : ∃ request, verdict = .forwarded request := by
  cases verdict with
  | forwarded request => exact ⟨request, rfl⟩
  | _ => cases forwards

/-- The request as the application gets it. -/
theorem password_request {request : Forwarded}
    (forwarded : ((boundaryOf passwordKey).call ⟨1003, 1004⟩ ∅ ⟨∅, ∅, ∅, 0, 0⟩ passwordScope).2 = .forwarded request) :
    request.path = "/api/v1/admin/users/7".toList ∧ request.headers = passwordScope.headers ∧ request.body = passwordBody := by
  obtain ⟨key, claims, body, rawPath, query, identity, chosen, checked, -, -, routed⟩ :=
    call_reaches (by decide +kernel) rfl (.inr password_forwards)
  rw [forwarded] at routed
  obtain ⟨same, -⟩ := (route_ok routed).2 rfl
  cases same
  exact ⟨rfl, rfl, (Except.ok.inj ((checkScope_ok checked).received.symm.trans rfl))⟩

end Samples

end Dagmar.Cml.Proofs
