import Dagmar.Proofs.Assertions

/-! The central administrator stays within the administration of profiles and
employments. Whatever reaches the provisioner or the application was signed for
this very request and is consumed. -/

namespace Dagmar.Cml.Proofs
open Library Library.Outcome

section Statement

/-- The paths of the central administrator; a number has no leading zero. -/
def AdministratorPath (suffix : List Char) : Prop :=
  suffix = "api/profiles".toList ∨ (∃ id, isIdentifier id ∧ suffix = "api/profiles/".toList ++ id) ∨
    (∃ n, isPositive n ∧ suffix = "api/v1/admin/users/".toList ++ n ++ "/employments".toList) ∨
    ∃ n, isPositive n ∧ suffix = "api/v1/admin/employments/".toList ++ n

/-- What a request that was let through has passed, with the nonces before and after it. -/
structure LetThrough (verifier : WebVerifier) (clock : Readings) (scope : Scope) (before after : Nonces) (verdict : Verdict)
    (claims : Json) (body : Bytes) (rawPath query : List Char) : Prop where
  received : receiveBody scope.messages [] = .ok body
  raw : scope.rawText = some rawPath
  asked : scope.queryText = some query
  verified : Verified verifier ((scope.header "x-cml-web-assertion").getD []) scope.method (exactPath rawPath query) body
    clock.verifying claims
  unused : ∀ row ∈ before, ¬ isOld claims row → row.jti ≠ jti claims
  consumed : nonceOf claims ∈ after
  central : centralAdministrator claims → AdministratorPath scope.suffix ∧ query = [] ∧
    scope.method ∈ ["GET", "POST", "PUT", "PATCH"] ∧
    (scope.method ≠ "GET" → centralWriteAuthorized claims clock.authorizing)
  native : ¬ isOwner claims → ¬ centralAdministrator claims → hasNativeId claims ∧ ¬ verdict.provisions

end Statement

section Paths

theorem append_drop {first text : List Char} (starts : first.isPrefixOf text) : text = first ++ text.drop first.length := by
  obtain ⟨rest, rfl⟩ := List.isPrefixOf_iff_prefix.mp starts
  rw [List.drop_left]

theorem administratorPath_of_isCentralPath {suffix : List Char} (central : isCentralPath "dochazka" suffix) :
    AdministratorPath suffix := by
  simp only [isCentralPath, Bool.or_eq_true, Bool.and_eq_true, decide_eq_true_eq] at central
  rcases central with ((profiles | profile) | ⟨hotel, -⟩) | ⟨-, attendance⟩
  · exact .inl profiles
  · simp only [isProfilePath, Bool.and_eq_true] at profile
    exact .inr (.inl ⟨_, profile.2, append_drop profile.1⟩)
  · exact absurd hotel (by decide)
  · have joined := @List.intercalate_splitOn _ suffix _ _ '/'
    generalize suffix.splitOn '/' = segments at attendance joined
    unfold isAttendancePath at attendance
    split at attendance
    · next id =>
      simp only [Bool.and_eq_true, decide_eq_true_eq] at attendance
      obtain ⟨⟨⟨⟨rfl, rfl⟩, rfl⟩, rfl⟩, positive⟩ := attendance
      exact .inr (.inr (.inr ⟨id, positive, joined.symm.trans (by simp [List.intercalate])⟩))
    · next id _ =>
      simp only [Bool.and_eq_true, decide_eq_true_eq] at attendance
      obtain ⟨⟨⟨⟨⟨rfl, rfl⟩, rfl⟩, rfl⟩, positive⟩, rfl⟩ := attendance
      exact .inr (.inr (.inl ⟨id, positive, joined.symm.trans (by simp [List.intercalate])⟩))
    · cases attendance

end Paths

section Routes
variable {boundary : CmlWebBoundary} {verifier : WebVerifier} {now : Int} {scope : Scope} {claims : Json} {body : Bytes}
  {rawPath query : List Char} {identity : Identity} {verdict : Verdict}

theorem routeProfile_ok (done : CmlWebBoundary.routeProfile now scope claims body query = .ok verdict) :
    (isOwner claims ∨ centralAdministrator claims) ∧ (scope.method ≠ "GET" → centralWriteAuthorized claims now) ∧
      ¬ verdict.forwards := by
  simp only [CmlWebBoundary.routeProfile, denyIf, bind_eq_ok, raiseIf_eq_ok] at done
  obtain ⟨-, allowed, done⟩ := done
  refine ⟨by_contra fun neither => allowed (.inl neither), ?_⟩
  split at done
  · split at done
    · cases done
    · next authorized =>
      split at done
      · cases done
      · cases done
        exact ⟨fun _ => not_not.mp authorized, Bool.false_ne_true⟩
  · split at done
    · next reading =>
      cases done
      exact ⟨fun writing => absurd reading.1 writing, Bool.false_ne_true⟩
    · cases done

theorem checkCentral_ok (done : CmlWebBoundary.checkCentral verifier now scope claims body = .ok ()) :
    (isOwner claims ∨ centralAdministrator claims) ∧
      ¬ (scope.method = "POST" ∧ (scope.suffix = "api/v1/users".toList ∨ scope.suffix = "api/v1/admin/users".toList)) ∧
      (∀ segment ∈ CmlWebBoundary.credentialSegments, segment ∉ scope.suffix.splitOn '/') ∧
      (scope.method ≠ "GET" → scope.method ≠ "HEAD" → centralWriteAuthorized claims now) := by
  simp only [CmlWebBoundary.checkCentral, denyIf, bind_eq_ok, raiseIf_eq_ok, not_not] at done
  obtain ⟨-, entitled, -, creation, -, credentials, -, -, authorized⟩ := done
  refine ⟨entitled, creation, ?_, ?_⟩
  · intro segment listed inside
    exact credentials (List.any_eq_true.mpr ⟨segment, listed, List.contains_iff_mem.mpr inside⟩)
  · intro reading heading
    by_contra unauthorized
    exact authorized ⟨reading, heading, unauthorized⟩

/-- The two ways out of the boundary. -/
theorem route_ok (done : boundary.route verifier now scope claims body rawPath query identity = .ok verdict) :
    (verdict.provisions → CmlWebBoundary.routeProfile now scope claims body query = .ok verdict) ∧
      (verdict.forwards →
        verdict = .forwarded ⟨scope.method, '/' :: scope.suffix, scope.queryString, scope.headers, body, identity, claims⟩ ∧
        boundary.checkAdministration verifier now scope claims body = .ok () ∧
        boundary.isDeniedRoute scope.method scope.suffix = false ∧
        ¬ (scope.suffix = "api/profiles".toList ∨ "api/profiles/".toList.isPrefixOf scope.suffix)) := by
  simp only [CmlWebBoundary.route, denyIf, bind_eq_ok, raiseIf_eq_ok] at done
  obtain ⟨-, -, done⟩ := done
  split at done
  · exact ⟨fun _ => done, fun forwards => absurd forwards (routeProfile_ok done).2.2⟩
  · next other =>
    split at done
    · cases done
      simp [Verdict.provisions, Verdict.forwards]
    · split at done
      · cases done
        simp [Verdict.provisions, Verdict.forwards]
      · split at done
        · cases done
          simp [Verdict.provisions, Verdict.forwards]
        · simp only [bind_eq_ok, pure_eq_ok, raiseIf_eq_ok, Bool.not_eq_true] at done
          obtain ⟨_, administration, -, open', rfl⟩ := done
          refine ⟨fun provisions => ?_, fun _ => ⟨rfl, administration, open', other⟩⟩
          simp [Verdict.provisions] at provisions

/-- A request leaves the boundary only after each part of it has let it pass. -/
theorem call_reaches {clock : Readings} {before : Nonces} {db : Credentials.Db} (mounted : mount.isPrefixOf scope.path)
    (http : scope.isHttp) (leaves : (boundary.call clock before db scope).2.provisions ∨
      (boundary.call clock before db scope).2.forwards) :
    ∃ verifier claims body rawPath query identity, boundary.verifier = some verifier ∧
      boundary.checkScope verifier clock.verifying scope = .ok (claims, body, rawPath, query) ∧
      consume before claims = some (boundary.call clock before db scope).1 ∧ resolveIdentity db claims = .ok identity ∧
      boundary.route verifier clock.authorizing scope claims body rawPath query identity =
        .ok (boundary.call clock before db scope).2 := by
  have inside : ¬ ¬ (scope.isHttp ∧ mount.isPrefixOf scope.path) := not_not.mpr ⟨http, mounted⟩
  rw [CmlWebBoundary.call, if_neg inside] at leaves ⊢
  cases configured : boundary.verifier with
  | none => simp [configured, Verdict.provisions, Verdict.forwards] at leaves
  | some verifier =>
    cases admitted : boundary.checkScope verifier clock.verifying scope with
    | error ending => simp [configured, admitted, Verdict.provisions, Verdict.forwards] at leaves
    | ok parts =>
      obtain ⟨claims, body, rawPath, query⟩ := parts
      simp only [configured, admitted, CmlWebBoundary.identify] at leaves ⊢
      cases consumed : consume before claims with
      | none => simp [consumed, CmlWebBoundary.verdict, Verdict.provisions, Verdict.forwards] at leaves
      | some after =>
        simp only [consumed] at leaves ⊢
        cases identified : resolveIdentity db claims with
        | error fault =>
          simp [identified, mapError_error, CmlWebBoundary.verdict, Verdict.provisions, Verdict.forwards, bind, Except.bind] at leaves
        | ok identity =>
          simp only [identified, mapError_ok, ok_bind] at leaves ⊢
          cases routed : boundary.route verifier clock.authorizing scope claims body rawPath query identity with
          | error ending => simp [routed, CmlWebBoundary.verdict, Verdict.provisions, Verdict.forwards] at leaves
          | ok verdict => exact ⟨verifier, claims, body, rawPath, query, identity, rfl, admitted, consumed, identified, routed⟩


end Routes

section Main

theorem isCentral_of_administratorPath {boundary : CmlWebBoundary} (attendance : boundary.audience = "dochazka") {suffix : List Char}
    (path : AdministratorPath suffix)
    (other : ¬ (suffix = "api/profiles".toList ∨ "api/profiles/".toList.isPrefixOf suffix)) : boundary.isCentral suffix := by
  simp only [CmlWebBoundary.isCentral, attendance, Bool.or_eq_true, Bool.and_eq_true, decide_eq_true_eq, true_and]
  rcases path with same | ⟨id, -, rfl⟩ | ⟨n, -, rfl⟩ | ⟨n, -, rfl⟩
  · exact absurd (.inl same) other
  · exact absurd (.inr (List.isPrefixOf_iff_prefix.mpr (List.prefix_append _ _))) other
  · rw [List.append_assoc]
    exact .inr (.inl (.inr (List.isPrefixOf_iff_prefix.mpr (List.prefix_append _ _))))
  · exact .inr (.inr (List.isPrefixOf_iff_prefix.mpr (List.prefix_append _ _)))

/-- Whoever is let through to the application or the provisioner stays within these bounds. -/
theorem administrator_confined (boundary : CmlWebBoundary) (clock : Readings) (before : Nonces) (db : Credentials.Db)
    (scope : Scope) (attendance : boundary.audience = "dochazka") (http : scope.isHttp)
    (mounted : mount.isPrefixOf scope.path) :
    ((boundary.call clock before db scope).2.provisions ∨ (boundary.call clock before db scope).2.forwards →
      ∃ verifier claims body rawPath query, boundary.verifier = some verifier ∧
        LetThrough verifier clock scope before (boundary.call clock before db scope).1
          (boundary.call clock before db scope).2 claims body rawPath query) ∧
      ((boundary.call clock before db scope).2.denied →
        ¬ (boundary.call clock before db scope).2.provisions ∧ ¬ (boundary.call clock before db scope).2.forwards) := by
  refine ⟨?_, ?_⟩
  · intro leaves
    obtain ⟨verifier, claims, body, rawPath, query, identity, configured, admitted, consumed, identified, routed⟩ :=
      call_reaches mounted http leaves
    have passed := checkScope_ok admitted
    have verified := verify_ok passed.verified
    obtain ⟨provisioned, forwarded⟩ := route_ok routed
    refine ⟨verifier, claims, body, rawPath, query, configured, passed.received, passed.raw, passed.asked, verified, ?_, ?_, ?_, ?_⟩
    · intro row member young
      exact Table.fresh_of_insertAll consumed (Table.mem_deleteWhere.mpr ⟨member, young⟩) (List.mem_singleton_self _)
    · exact (Table.mem_insertAll consumed _).mpr (.inr (List.mem_singleton_self _))
    · intro central
      obtain ⟨path, plain, method⟩ := passed.central central
      rw [attendance] at path
      have bounded := administratorPath_of_isCentralPath path
      refine ⟨bounded, plain, method, ?_⟩
      intro writing
      rcases leaves with provisions | forwards
      · exact (routeProfile_ok (provisioned provisions)).2.1 writing
      · obtain ⟨-, administration, -, other⟩ := forwarded forwards
        rw [CmlWebBoundary.checkAdministration, if_pos (isCentral_of_administratorPath attendance bounded other)] at administration
        refine (checkCentral_ok administration).2.2.2 writing ?_
        rintro heading
        rw [heading] at method
        exact absurd method (by decide)
    · intro stranger ordinary
      refine ⟨?_, fun provisions => ?_⟩
      · rcases verified.subject with owner | central | native
        · exact absurd owner stranger
        · exact absurd central ordinary
        · exact native
      · rcases (routeProfile_ok (provisioned provisions)).1 with owner | central
        · exact stranger owner
        · exact ordinary central
  · intro denied
    cases verdict : (boundary.call clock before db scope).2 with
    | ended ending => exact ⟨Bool.false_ne_true, Bool.false_ne_true⟩
    | _ =>
      rw [verdict] at denied
      cases denied

end Main

section Samples

def administratorClaims : Json :=
  .object [("iss", .text "https://kajovocml.hcasc.cz"), ("aud", .text "dochazka"),
    ("sub", .text "user:00000000-0000-4000-8000-000000000007"), ("role", .text "admin"), ("nativeId", .null),
    ("sid", .text "00000000-0000-4000-8000-000000000000"), ("epoch", .number 1), ("iat", .number 1000),
    ("exp", .number 1010), ("jti", .text "00000000-0000-4000-8000-000000000002"), ("method", .text "POST"),
    ("path", .text "/cml-web/api/v1/admin/users/7/employments"),
    ("bodySha256", .text "e3b0c44298fc1c149afbf4c8996fb92427ae41e4649b934ca495991b7852b855"),
    ("csrf", .text "aaaaaaaaaaaaaaaaaaaaaaaaaaaaaaaaaaaaaaaaaaa"),
    ("grant", .object [("contract", .text "kajovo-user-administration/1"), ("permissions", .list [.text "users.access"]), ("dataScope", .object [("kind", .text "service")])]),
    ("reauthUntil", .number 1060)]

def administratorPayload : List Char :=
  ["eyJpc3MiOiJodHRwczovL2tham9", "2b2NtbC5oY2FzYy5jeiIsImF1ZC", "I6ImRvY2hhemthIiwic3ViIjoid",
    "XNlcjowMDAwMDAwMC0wMDAwLTQw", "MDAtODAwMC0wMDAwMDAwMDAwMDc", "iLCJyb2xlIjoiYWRtaW4iLCJuYX",
    "RpdmVJZCI6bnVsbCwic2lkIjoiM", "DAwMDAwMDAtMDAwMC00MDAwLTgw", "MDAtMDAwMDAwMDAwMDAwIiwiZXB",
    "vY2giOjEsImlhdCI6MTAwMCwiZX", "hwIjoxMDEwLCJqdGkiOiIwMDAwM", "DAwMC0wMDAwLTQwMDAtODAwMC0w",
    "MDAwMDAwMDAwMDIiLCJtZXRob2Q", "iOiJQT1NUIiwicGF0aCI6Ii9jbW", "wtd2ViL2FwaS92MS9hZG1pbi91c",
    "2Vycy83L2VtcGxveW1lbnRzIiwi", "Ym9keVNoYTI1NiI6ImUzYjBjNDQ", "yOThmYzFjMTQ5YWZiZjRjODk5Nm",
    "ZiOTI0MjdhZTQxZTQ2NDliOTM0Y", "2E0OTU5OTFiNzg1MmI4NTUiLCJj", "c3JmIjoiYWFhYWFhYWFhYWFhYWF",
    "hYWFhYWFhYWFhYWFhYWFhYWFhYW", "FhYWFhYWFhYSIsImdyYW50Ijp7I", "mNvbnRyYWN0Ijoia2Fqb3ZvLXVz",
    "ZXItYWRtaW5pc3RyYXRpb24vMSI", "sInBlcm1pc3Npb25zIjpbInVzZX", "JzLmFjY2VzcyJdLCJkYXRhU2Nvc",
    "GUiOnsia2luZCI6InNlcnZpY2Ui", "fX0sInJlYXV0aFVudGlsIjoxMDY", "wfQ"].flatMap String.toList

def administratorSignature : List Char :=
  ["c_F6BYrLnbsxFl1y4nAs8TKt6myfO", "ByHPfRPutya2ehcsHPQtS_Iz3X6gc", "MWq4OBVLb2jpqM1gGPexOg-22xDA"].flatMap String.toList

def administratorKey : WebVerifier := keyOf administratorPayload administratorSignature administratorClaims

def administratorScope : Scope :=
  scopeOf "POST" "/cml-web/api/v1/admin/users/7/employments".toList "/cml-web/api/v1/admin/users/7/employments"
    administratorPayload administratorSignature

theorem administrator_let_through :
    ∃ verifier claims body rawPath query, (boundaryOf administratorKey).verifier = some verifier ∧
      LetThrough verifier ⟨1003, 1004⟩ administratorScope ∅
        ((boundaryOf administratorKey).call ⟨1003, 1004⟩ ∅ ⟨∅, ∅, ∅, 0, 0⟩ administratorScope).1
        ((boundaryOf administratorKey).call ⟨1003, 1004⟩ ∅ ⟨∅, ∅, ∅, 0, 0⟩ administratorScope).2 claims body rawPath query := by
  have forwards : ((boundaryOf administratorKey).call ⟨1003, 1004⟩ ∅ ⟨∅, ∅, ∅, 0, 0⟩ administratorScope).2.forwards := by
    decide +kernel
  have mounted : mount.isPrefixOf administratorScope.path := by decide +kernel
  exact (administrator_confined (boundaryOf administratorKey) ⟨1003, 1004⟩ ∅ ⟨∅, ∅, ∅, 0, 0⟩ administratorScope rfl rfl
    mounted).1 (.inr forwards)

end Samples

end Dagmar.Cml.Proofs
