import Dagmar.Proofs.CentralConfinement
import Dagmar.Routes

/-! The rules of the boundary against the routes behind it. They part where the rules
do not name a route, and where the router drops a final newline the rules have seen. -/

namespace Dagmar.Cml.Proofs
open Library Library.Outcome Library.Routing

section Statement

/-- Where a forwarded request must not be dispatched to, for what its claims allow. -/
structure Agrees (now : Int) (request : Forwarded) : Prop where
  closed : ∀ route, dispatch request.method request.path = some route → route.handler ∉ closedHandlers
  administration : ∀ route, dispatch request.method request.path = some route → route.administers →
    isOwner request.claims ∨ centralAdministrator request.claims
  writing : ∀ route, dispatch request.method request.path = some route → route.administers →
    request.method ≠ "GET" → request.method ≠ "HEAD" → centralWriteAuthorized request.claims now

def withNewline (text : String) : List Char := text.toList ++ ['\n']

/-- The paths of the local handlers that follow the mount, as the rules do not know them. -/
def unknownPaths : List (List Char) :=
  ["api/v1/portal/reset".toList, withNewline "api/v1/portal/reset", withNewline "api/v1/portal/login",
    withNewline "api/v1/portal/logout", withNewline "api/v1/admin/login", withNewline "api/v1/admin/logout",
    withNewline "api/v1/admin/users"]

/-- Path segments without a parameter, as texts. -/
def textsOf (path : List String) : List (List Char) := path.map String.toList

/-- The path of a credential of one user, with a newline behind it. -/
def isCredentialPath (suffix : List Char) : Prop :=
  ∃ id, id ≠ [] ∧ ∃ action, (action = withNewline "set-password" ∨ action = withNewline "send-reset") ∧
    suffix.splitOn '/' = textsOf ["api", "v1", "admin", "users"] ++ [id, action]

/-- The requests the boundary forwards though it would refuse them by the route they take. -/
def Slips (scope : Scope) (claims : Json) : Prop :=
  scope.method = "POST" ∧ (scope.suffix ∈ unknownPaths ∨ isCredentialPath scope.suffix) ∨
    scope.method = "GET" ∧ scope.suffix = withNewline "api/v1/admin/users" ∧
      ¬ (isOwner claims ∨ centralAdministrator claims)

end Statement

section Table

theorem dispatch_eq_some {method : String} {suffix : List Char} {route : Route}
    (dispatched : dispatch method ('/' :: suffix) = some route) :
    route ∈ routes ∧ route.method = method ∧ accepts '\n' route.template (suffix.splitOn '/') := by
  have serves := List.find?_some dispatched
  simp only [Route.serves, Bool.and_eq_true, decide_eq_true_eq] at serves
  exact ⟨List.mem_of_find?_eq_some dispatched, serves⟩

/-- The routes that some request slips to. -/
def slippery : List Route :=
  [⟨"POST", ["api", "v1", "portal", "reset"], .portalReset⟩, ⟨"POST", ["api", "v1", "portal", "login"], .portalLogin⟩,
    ⟨"POST", ["api", "v1", "portal", "logout"], .portalLogout⟩, ⟨"POST", ["api", "v1", "admin", "login"], .adminLogin⟩,
    ⟨"POST", ["api", "v1", "admin", "logout"], .adminLogout⟩, ⟨"POST", ["api", "v1", "admin", "users"], .createUser⟩,
    ⟨"GET", ["api", "v1", "admin", "users"], .listUsers⟩,
    ⟨"POST", ["api", "v1", "admin", "users", "{user_id}", "set-password"], .setUserPassword⟩,
    ⟨"POST", ["api", "v1", "admin", "users", "{user_id}", "send-reset"], .sendResetLink⟩]

theorem closed_routes : ∀ route ∈ routes, route.handler ∈ closedHandlers → route ∈ slippery := by decide +kernel

/-- No other route of the method can take a path of a slippery one. -/
theorem slippery_alone : ∀ route ∈ slippery, route ∈ routes ∧
    ∀ other ∈ routes, other.method = route.method → overlaps '\n' other.template route.template → other = route := by
  decide +kernel

theorem dispatch_slippery {suffix : List Char} (route : Route) (listed : route ∈ slippery)
    (accepted : accepts '\n' route.template (suffix.splitOn '/')) : dispatch route.method ('/' :: suffix) = some route := by
  obtain ⟨member, alone⟩ := slippery_alone route listed
  refine find_of_unique member ?_ ?_
  · simp [Route.serves, accepted]
  · intro other inside serves
    simp only [Route.serves, Bool.and_eq_true, decide_eq_true_eq] at serves
    exact alone other inside serves.1 (overlaps_of_accepts serves.2 accepted)

end Table

section Paths
variable {suffix : List Char}

/-- A path of literal segments is accepted alone or with a final newline. -/
theorem path_of_accepts {path : List String} (name : String) (plain : path.map pieceOf = (textsOf path).map .literal)
    (named : ['/'].intercalate (textsOf path) = name.toList)
    (accepted : accepts '\n' (path.map pieceOf) (suffix.splitOn '/')) :
    suffix = name.toList ∨ suffix = withNewline name := by
  rw [plain] at accepted
  have joined := join_of_accepts '/' accepted
  rw [List.intercalate_splitOn, named] at joined
  exact joined

theorem prefix_of_split {path : List String} {rest : List (List Char)} (stem : String)
    (named : ['/'].intercalate (textsOf path) ++ ['/'] = stem.toList) (begun : path ≠ []) (more : rest ≠ [])
    (split : suffix.splitOn '/' = textsOf path ++ rest) : stem.toList.isPrefixOf suffix := by
  have joined := @List.intercalate_splitOn _ suffix _ _ '/'
  rw [split, join_append _ (by simpa [textsOf] using begun) more, List.append_cons, named] at joined
  exact List.isPrefixOf_iff_prefix.mpr ⟨_, joined⟩

/-- What literal segments in front of a template say of a path. -/
theorem prefix_of_accepts {path : List String} {pieces : List (Piece Char)} (stem : String)
    (plain : path.map pieceOf = (textsOf path).map .literal) (named : ['/'].intercalate (textsOf path) ++ ['/'] = stem.toList)
    (begun : path ≠ []) (more : pieces ≠ [])
    (accepted : accepts '\n' (path.map pieceOf ++ pieces) (suffix.splitOn '/')) : stem.toList.isPrefixOf suffix := by
  rw [plain] at accepted
  obtain ⟨rest, split, accepted⟩ := accepts_literals more accepted
  exact prefix_of_split stem named begun (ne_nil_of_accepts accepted) split

theorem plain_users : ["api", "v1", "admin", "users"].map pieceOf =
    (textsOf ["api", "v1", "admin", "users"]).map .literal := by decide +kernel

theorem plain_employments : ["api", "v1", "admin", "employments"].map pieceOf =
    (textsOf ["api", "v1", "admin", "employments"]).map .literal := by decide +kernel

theorem credential_of_accepts {action : String}
    (accepted : accepts '\n' (["api", "v1", "admin", "users"].map pieceOf ++ [.parameter, .literal action.toList])
      (suffix.splitOn '/')) :
    ∃ id, id ≠ [] ∧ ∃ last, (last = action.toList ∨ last = withNewline action) ∧
      suffix.splitOn '/' = textsOf ["api", "v1", "admin", "users"] ++ [id, last] := by
  rw [plain_users] at accepted
  obtain ⟨rest, split, accepted⟩ := accepts_literals (List.cons_ne_nil _ _) accepted
  obtain ⟨id, after, rfl, fits, accepted⟩ := accepts_cons.mp accepted
  obtain ⟨last, rfl, closes⟩ := accepts_singleton.mp accepted
  simp only [Piece.closes, Bool.or_eq_true, decide_eq_true_eq] at closes
  exact ⟨id, of_decide_eq_true fits, last, closes, split⟩

/-- What an administrating route takes is central, but for the list of users with a newline. -/
theorem central_of_administers {boundary : CmlWebBoundary} (attendance : boundary.audience = "dochazka") {route : Route}
    (administers : route.administers) (accepted : accepts '\n' route.template (suffix.splitOn '/')) :
    boundary.isCentral suffix ∨
      route.path = ["api", "v1", "admin", "users"] ∧ suffix = withNewline "api/v1/admin/users" := by
  simp only [CmlWebBoundary.isCentral, attendance, Bool.or_eq_true, Bool.and_eq_true, decide_eq_true_eq, true_and]
  simp only [Route.administers, Bool.or_eq_true, Bool.and_eq_true, decide_eq_true_eq, List.isPrefixOf_iff_prefix] at administers
  rw [Route.template] at accepted
  rcases administers with ⟨rest, path⟩ | ⟨⟨rest, path⟩, longer⟩
  · cases rest with
    | nil =>
      rw [List.append_nil] at path
      rw [← path] at accepted
      rcases path_of_accepts "api/v1/admin/users" plain_users (by decide +kernel) accepted with same | slipped
      · exact .inl (.inr (.inl (.inl same)))
      · exact .inr ⟨path.symm, slipped⟩
    | cons next rest =>
      rw [← path, List.map_append] at accepted
      have starts := prefix_of_accepts "api/v1/admin/users/" plain_users (by decide +kernel) (List.cons_ne_nil _ _)
        (List.cons_ne_nil _ _) accepted
      exact .inl (.inr (.inl (.inr starts)))
  · cases rest with
    | nil => exact absurd (congrArg List.length path.symm) longer
    | cons next rest =>
      rw [← path, List.map_append] at accepted
      have starts := prefix_of_accepts "api/v1/admin/employments/" plain_employments (by decide +kernel) (List.cons_ne_nil _ _)
        (List.cons_ne_nil _ _) accepted
      exact .inl (.inr (.inr starts))

end Paths

section Slipping
variable {suffix : List Char}

/-- The paths without a newline that a rule of the boundary refuses. -/
def refusedPaths : List String :=
  ["api/v1/portal/login", "api/v1/portal/logout", "api/v1/admin/login", "api/v1/admin/logout"]

theorem isDeniedRoute_of_ending {boundary : CmlWebBoundary} {method : String} (other : suffix ≠ "api/version".toList)
    (ending : CmlWebBoundary.localProtocols.any fun ending => ending.isSuffixOf suffix) :
    boundary.isDeniedRoute method suffix = true := by
  simp only [CmlWebBoundary.isDeniedRoute, decide_eq_false other, ending, Bool.and_false, Bool.false_and, Bool.not_false,
    Bool.or_true, Bool.and_self]

theorem refused_denied {boundary : CmlWebBoundary} {name : String} (listed : name ∈ refusedPaths) (method : String) :
    boundary.isDeniedRoute method name.toList = true := by
  have known : ∀ name ∈ refusedPaths, name.toList ≠ "api/version".toList ∧
      CmlWebBoundary.localProtocols.any (fun ending => ending.isSuffixOf name.toList) = true := by decide +kernel
  exact isDeniedRoute_of_ending (known name listed).1 (known name listed).2

/-- A refused path is known to the rules, but not with a newline behind it. -/
theorem refused_or_unknown {path : List String} {other : Prop} (name : String)
    (plain : path.map pieceOf = (textsOf path).map .literal) (named : ['/'].intercalate (textsOf path) = name.toList)
    (listed : name ∈ refusedPaths ∧ withNewline name ∈ unknownPaths)
    (accepted : accepts '\n' (path.map pieceOf) (suffix.splitOn '/')) :
    (∃ name ∈ refusedPaths, suffix = name.toList) ∨ suffix ∈ unknownPaths ∨ other := by
  rcases path_of_accepts name plain named accepted with same | slipped
  · exact .inl ⟨name, listed.1, same⟩
  · rw [slipped]
    exact .inr (.inl listed.2)

/-- Where a closed handler can be reached: at a path that is refused, at one that is not known,
among the users, or at the credentials of a user. -/
theorem path_of_closed {route : Route} (member : route ∈ routes) (closed : route.handler ∈ closedHandlers)
    (accepted : accepts '\n' route.template (suffix.splitOn '/')) :
    route.method = "POST" ∧ ((∃ name ∈ refusedPaths, suffix = name.toList) ∨ suffix ∈ unknownPaths ∨
      suffix = "api/v1/admin/users".toList ∨ isCredentialPath suffix ∨
      ∃ id action, (action = "set-password".toList ∨ action = "send-reset".toList) ∧
        suffix.splitOn '/' = textsOf ["api", "v1", "admin", "users"] ++ [id, action]) := by
  have listed := closed_routes route member closed
  simp only [slippery, List.mem_cons, List.not_mem_nil, or_false] at listed
  rcases listed with rfl | rfl | rfl | rfl | rfl | rfl | rfl | rfl | rfl
  · rcases path_of_accepts "api/v1/portal/reset" (by decide +kernel) (by decide +kernel) accepted with same | slipped
    · exact ⟨rfl, .inr (.inl (same ▸ by decide +kernel))⟩
    · exact ⟨rfl, .inr (.inl (slipped ▸ by decide +kernel))⟩
  · exact ⟨rfl, refused_or_unknown "api/v1/portal/login" (by decide +kernel) (by decide +kernel) (by decide +kernel) accepted⟩
  · exact ⟨rfl, refused_or_unknown "api/v1/portal/logout" (by decide +kernel) (by decide +kernel) (by decide +kernel) accepted⟩
  · exact ⟨rfl, refused_or_unknown "api/v1/admin/login" (by decide +kernel) (by decide +kernel) (by decide +kernel) accepted⟩
  · exact ⟨rfl, refused_or_unknown "api/v1/admin/logout" (by decide +kernel) (by decide +kernel) (by decide +kernel) accepted⟩
  · rcases path_of_accepts "api/v1/admin/users" plain_users (by decide +kernel) accepted with same | slipped
    · exact ⟨rfl, .inr (.inr (.inl same))⟩
    · exact ⟨rfl, .inr (.inl (slipped ▸ by decide +kernel))⟩
  · exact absurd closed (by decide)
  · obtain ⟨id, filled, last, same | slipped, split⟩ := credential_of_accepts accepted
    · exact ⟨rfl, .inr (.inr (.inr (.inr ⟨id, last, .inl same, split⟩)))⟩
    · exact ⟨rfl, .inr (.inr (.inr (.inl ⟨id, filled, last, .inl slipped, split⟩)))⟩
  · obtain ⟨id, filled, last, same | slipped, split⟩ := credential_of_accepts accepted
    · exact ⟨rfl, .inr (.inr (.inr (.inr ⟨id, last, .inr same, split⟩)))⟩
    · exact ⟨rfl, .inr (.inr (.inr (.inl ⟨id, filled, last, .inr slipped, split⟩)))⟩

/-- A path that is not known is the one of a slippery route. -/
theorem unknown_slippery : ∀ path ∈ unknownPaths, ∃ route ∈ slippery, route.method = "POST" ∧
    route.handler ∈ closedHandlers ∧ accepts '\n' route.template (path.splitOn '/') := by decide +kernel

theorem accepts_credential {id : List Char} {action : String} (filled : id ≠ [])
    (split : suffix.splitOn '/' = textsOf ["api", "v1", "admin", "users"] ++ [id, withNewline action]) :
    accepts '\n' (["api", "v1", "admin", "users"].map pieceOf ++ [.parameter, .literal action.toList]) (suffix.splitOn '/') := by
  rw [split, plain_users]
  refine accepts_append (accepts_cons.mpr ⟨_, _, rfl, decide_eq_true filled, ?_⟩)
  exact accepts_singleton.mpr ⟨_, rfl, by simp [Piece.closes, withNewline]⟩

end Slipping

section Main
variable {boundary : CmlWebBoundary} {verifier : WebVerifier} {now : Int} {scope : Scope} {claims : Json} {body : Bytes}

/-- What the rules have let pass of a request that is forwarded. -/
structure Ruled (boundary : CmlWebBoundary) (now : Int) (scope : Scope) (claims : Json) : Prop where
  undenied : boundary.isDeniedRoute scope.method scope.suffix = false
  entitled : boundary.isCentral scope.suffix → isOwner claims ∨ centralAdministrator claims
  creation : boundary.isCentral scope.suffix → ¬ (scope.method = "POST" ∧ scope.suffix = "api/v1/admin/users".toList)
  credentials : boundary.isCentral scope.suffix →
    ∀ segment ∈ CmlWebBoundary.credentialSegments, segment ∉ scope.suffix.splitOn '/'
  writing : boundary.isCentral scope.suffix → scope.method ≠ "GET" → scope.method ≠ "HEAD" → centralWriteAuthorized claims now

theorem ruled_of_forwarded (administration : boundary.checkAdministration verifier now scope claims body = .ok ())
    (undenied : boundary.isDeniedRoute scope.method scope.suffix = false) : Ruled boundary now scope claims := by
  have checked : boundary.isCentral scope.suffix → CmlWebBoundary.checkCentral verifier now scope claims body = .ok () := by
    intro central
    rw [CmlWebBoundary.checkAdministration, if_pos central] at administration
    exact administration
  refine ⟨undenied, ?_, ?_, ?_, ?_⟩
  · exact fun central => (checkCentral_ok (checked central)).1
  · rintro central ⟨posted, users⟩
    exact (checkCentral_ok (checked central)).2.1 ⟨posted, .inr users⟩
  · exact fun central => (checkCentral_ok (checked central)).2.2.1
  · exact fun central => (checkCentral_ok (checked central)).2.2.2

theorem isCentral_users (attendance : boundary.audience = "dochazka") : boundary.isCentral "api/v1/admin/users".toList := by
  simp only [CmlWebBoundary.isCentral, attendance, Bool.or_eq_true, Bool.and_eq_true, decide_eq_true_eq, true_and]
  exact .inr (.inl (.inl trivial))

theorem isCentral_of_users_split (attendance : boundary.audience = "dochazka") {suffix : List Char} {rest : List (List Char)}
    (more : rest ≠ []) (split : suffix.splitOn '/' = textsOf ["api", "v1", "admin", "users"] ++ rest) :
    boundary.isCentral suffix := by
  have starts := prefix_of_split "api/v1/admin/users/" (by decide +kernel) (List.cons_ne_nil _ _) more split
  simp only [CmlWebBoundary.isCentral, attendance, Bool.or_eq_true, Bool.and_eq_true, decide_eq_true_eq, true_and]
  exact .inr (.inl (.inr starts))

/-- The rules keep every request from the closed handlers that does not slip. -/
theorem Ruled.closed (ruled : Ruled boundary now scope claims) (attendance : boundary.audience = "dochazka")
    (holds : ¬ Slips scope claims) {route : Route} (dispatched : dispatch scope.method ('/' :: scope.suffix) = some route) :
    route.handler ∉ closedHandlers := by
  intro closed
  obtain ⟨member, method, accepted⟩ := dispatch_eq_some dispatched
  obtain ⟨posted, reached⟩ := path_of_closed member closed accepted
  rw [method] at posted
  rcases reached with ⟨name, listed, same⟩ | unknown | users | slipped | ⟨id, action, named, split⟩
  · have denied := @refused_denied boundary name listed scope.method
    rw [← same, ruled.undenied] at denied
    cases denied
  · exact holds (.inl ⟨posted, .inl unknown⟩)
  · exact ruled.creation (users ▸ isCentral_users attendance) ⟨posted, users⟩
  · exact holds (.inl ⟨posted, .inr slipped⟩)
  · refine ruled.credentials (isCentral_of_users_split attendance (List.cons_ne_nil _ _) split) action ?_ ?_
    · rcases named with rfl | rfl
      · exact List.mem_cons_self
      · exact List.mem_cons_of_mem _ List.mem_cons_self
    · rw [split]
      simp

theorem users_methods : ∀ route ∈ routes, route.path = ["api", "v1", "admin", "users"] →
    route.method = "GET" ∨ route.method = "POST" := by decide +kernel

theorem Ruled.administration (ruled : Ruled boundary now scope claims) (attendance : boundary.audience = "dochazka")
    (holds : ¬ Slips scope claims) {route : Route} (dispatched : dispatch scope.method ('/' :: scope.suffix) = some route)
    (administers : route.administers) :
    (isOwner claims ∨ centralAdministrator claims) ∧
      (scope.method ≠ "GET" → scope.method ≠ "HEAD" → centralWriteAuthorized claims now) := by
  obtain ⟨member, method, accepted⟩ := dispatch_eq_some dispatched
  rcases central_of_administers attendance administers accepted with central | ⟨path, slipped⟩
  · exact ⟨ruled.entitled central, ruled.writing central⟩
  · rcases users_methods route member path with read | posted
    · rw [method] at read
      refine ⟨?_, fun writing => absurd read writing⟩
      by_contra stranger
      exact holds (.inr ⟨read, slipped, stranger⟩)
    · rw [method] at posted
      refine absurd (.inl ⟨posted, .inl ?_⟩) holds
      rw [slipped]
      decide +kernel

/-- Where a request slips to. -/
theorem dispatch_of_slips (slips : Slips scope claims) :
    ∃ route, dispatch scope.method ('/' :: scope.suffix) = some route ∧
      (route.handler ∈ closedHandlers ∨ route.administers ∧ ¬ (isOwner claims ∨ centralAdministrator claims)) := by
  rcases slips with ⟨posted, unknown | ⟨id, filled, action, named, split⟩⟩ | ⟨read, users, stranger⟩
  · obtain ⟨route, listed, method, closed, accepted⟩ := unknown_slippery _ unknown
    rw [posted, ← method]
    exact ⟨route, dispatch_slippery route listed accepted, .inl closed⟩
  · rw [posted]
    rcases named with rfl | rfl
    · exact ⟨_, dispatch_slippery ⟨"POST", ["api", "v1", "admin", "users", "{user_id}", "set-password"], .setUserPassword⟩
        (by decide) (accepts_credential filled split), .inl (by decide)⟩
    · exact ⟨_, dispatch_slippery ⟨"POST", ["api", "v1", "admin", "users", "{user_id}", "send-reset"], .sendResetLink⟩
        (by decide) (accepts_credential filled split), .inl (by decide)⟩
  · rw [read]
    refine ⟨_, dispatch_slippery ⟨"GET", ["api", "v1", "admin", "users"], .listUsers⟩ (by decide) ?_,
      .inr ⟨by decide, stranger⟩⟩
    rw [users]
    decide +kernel

/-- A forwarded request is dispatched as its claims allow exactly when it does not slip. -/
theorem boundary_agrees_iff (boundary : CmlWebBoundary) (clock : Readings) (before : Nonces) (db : Credentials.Db)
    (scope : Scope) (request : Forwarded) (attendance : boundary.audience = "dochazka")
    (forwarded : (boundary.call clock before db scope).2 = .forwarded request) :
    Agrees clock.authorizing request ↔ ¬ Slips scope request.claims := by
  have leaves : (boundary.call clock before db scope).2.forwards := by rw [forwarded]; rfl
  by_cases inside : scope.isHttp ∧ mount.isPrefixOf scope.path
  · obtain ⟨verifier, claims, body, rawPath, query, identity, -, -, -, -, routed⟩ := call_reaches inside.2 inside.1 (.inr leaves)
    obtain ⟨same, administration, undenied, -⟩ := (route_ok routed).2 leaves
    rw [forwarded] at same
    cases same
    have ruled := ruled_of_forwarded administration undenied
    constructor
    · intro agrees slips
      obtain ⟨route, dispatched, closed | ⟨administers, stranger⟩⟩ := dispatch_of_slips slips
      · exact agrees.closed route dispatched closed
      · exact stranger (agrees.administration route dispatched administers)
    · intro holds
      refine ⟨?_, ?_, ?_⟩
      · exact fun route dispatched => ruled.closed attendance holds dispatched
      · exact fun route dispatched administers => (ruled.administration attendance holds dispatched administers).1
      · exact fun route dispatched administers => (ruled.administration attendance holds dispatched administers).2
  · rw [CmlWebBoundary.call, if_pos inside] at forwarded
    cases forwarded

end Main

section Samples

def resetClaims : Json :=
  .object [("iss", .text "https://kajovocml.hcasc.cz"), ("aud", .text "dochazka"), ("sub", .text "KRMAR78"),
    ("role", .text "admin"), ("nativeId", .null), ("sid", .text "00000000-0000-4000-8000-000000000000"),
    ("epoch", .number 1), ("iat", .number 1000), ("exp", .number 1010),
    ("jti", .text "00000000-0000-4000-8000-000000000003"), ("method", .text "POST"),
    ("path", .text "/cml-web/api/v1/portal/reset"),
    ("bodySha256", .text "e3b0c44298fc1c149afbf4c8996fb92427ae41e4649b934ca495991b7852b855"),
    ("csrf", .text "aaaaaaaaaaaaaaaaaaaaaaaaaaaaaaaaaaaaaaaaaaa")]

def resetPayload : List Char :=
  ["eyJpc3MiOiJodHRwczovL2tham9", "2b2NtbC5oY2FzYy5jeiIsImF1ZC", "I6ImRvY2hhemthIiwic3ViIjoiS",
    "1JNQVI3OCIsInJvbGUiOiJhZG1p", "biIsIm5hdGl2ZUlkIjpudWxsLCJ", "zaWQiOiIwMDAwMDAwMC0wMDAwLT",
    "QwMDAtODAwMC0wMDAwMDAwMDAwM", "DAiLCJlcG9jaCI6MSwiaWF0Ijox", "MDAwLCJleHAiOjEwMTAsImp0aSI",
    "6IjAwMDAwMDAwLTAwMDAtNDAwMC", "04MDAwLTAwMDAwMDAwMDAwMyIsI", "m1ldGhvZCI6IlBPU1QiLCJwYXRo",
    "IjoiL2NtbC13ZWIvYXBpL3YxL3B", "vcnRhbC9yZXNldCIsImJvZHlTaG", "EyNTYiOiJlM2IwYzQ0Mjk4ZmMxY",
    "zE0OWFmYmY0Yzg5OTZmYjkyNDI3", "YWU0MWU0NjQ5YjkzNGNhNDk1OTk", "xYjc4NTJiODU1IiwiY3NyZiI6Im",
    "FhYWFhYWFhYWFhYWFhYWFhYWFhY", "WFhYWFhYWFhYWFhYWFhYWFhYWFh", "YWEifQ"].flatMap String.toList

def resetSignature : List Char :=
  ["ByQBhdh1792iS6HL2S11IcJQpd0Zx", "0kGrGVDfLZLQGtEnoTrNCYrIckxHd", "_oisSwK8pFw-nCDB4LbI2TfMRkAw"].flatMap String.toList

def resetKey : WebVerifier := keyOf resetPayload resetSignature resetClaims

def resetScope : Scope :=
  scopeOf "POST" "/cml-web/api/v1/portal/reset".toList "/cml-web/api/v1/portal/reset" resetPayload resetSignature

def resetCall : Nonces × Verdict := (boundaryOf resetKey).call ⟨1003, 1004⟩ ∅ ⟨∅, ∅, ∅, 0, 0⟩ resetScope

/-- The handler a forwarded request is dispatched to. -/
def handlerOf : Verdict → Option Handler
  | .forwarded request => (dispatch request.method request.path).map Route.handler
  | _ => none

theorem forwarded_of_handlerOf {verdict : Verdict} {handler : Handler} (reached : handlerOf verdict = some handler) :
    ∃ request, verdict = .forwarded request ∧ (dispatch request.method request.path).map Route.handler = some handler := by
  cases verdict with
  | forwarded request => exact ⟨request, rfl, reached⟩
  | _ => cases reached

theorem resetCall_reached : handlerOf resetCall.2 = some .portalReset := by decide +kernel

/-- A signed request of the owner reaches the handler that resets a password locally. -/
theorem local_reset_reached : ∃ request, resetCall.2 = .forwarded request ∧
    (dispatch request.method request.path).map Route.handler = some .portalReset ∧ ¬ Agrees 1004 request := by
  obtain ⟨request, forwarded, handled⟩ := forwarded_of_handlerOf resetCall_reached
  refine ⟨request, forwarded, handled, fun agrees => ?_⟩
  obtain ⟨route, dispatched, handler⟩ := Option.map_eq_some_iff.mp handled
  exact agrees.closed route dispatched (handler ▸ by decide)

theorem reset_disagrees : ∃ request, resetCall.2 = .forwarded request ∧
    (Agrees 1004 request ↔ ¬ Slips resetScope request.claims) := by
  obtain ⟨request, forwarded, -⟩ := forwarded_of_handlerOf resetCall_reached
  exact ⟨request, forwarded, boundary_agrees_iff (boundaryOf resetKey) ⟨1003, 1004⟩ ∅ ⟨∅, ∅, ∅, 0, 0⟩ resetScope request rfl forwarded⟩

end Samples

end Dagmar.Cml.Proofs
