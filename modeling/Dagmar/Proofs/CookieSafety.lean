import Dagmar.SessionCookies

/-! A cookie that signs somebody in is one that was issued for them. The texts that
are signed are three kinds of JSON objects and texts; each reader accepts one of
them. -/

namespace Dagmar.Sessions.Proofs
open JsonText Base64

section Payloads
variable (platform : Platform) (settings : Settings) (now : Int)

theorem instant_number (value : Int) : platform.instant (.number value) = some value := by
  by_cases zero : value = 0 <;> simp [Platform.instant, isFalsy, Platform.int?, zero]

theorem text_text (value : String) : platform.text (.text value) = value := by
  by_cases empty : value = "" <;> simp [Platform.text, isFalsy, empty]

theorem loads_admin (username : String) (issuedAt : Int) (jti : String) :
    loads ((Issue.admin username issuedAt jti).payload platform) =
      some (.object [("u", .text username), ("iat", .number issuedAt), ("jti", .text jti)]) := by
  have written : ∀ member ∈ adminMembers username issuedAt jti, ReadsAs member.2.1 member.2.2 := by
    simp only [adminMembers, List.forall_mem_cons]
    exact ⟨readsAs_text _, readsAs_number _, readsAs_text _, by simp⟩
  have inhabited : adminMembers username issuedAt jti ≠ [] := by simp [adminMembers]
  exact loads_dumps inhabited written

theorem loads_portal (userId : Int) (passwordHash : String) (issuedAt : Int) (jti : String) :
    loads ((Issue.portal userId passwordHash issuedAt jti).payload platform) =
      some (.object [("uid", .number userId), ("ct", .text (portalCredentialTag platform passwordHash)),
        ("iat", .number issuedAt), ("jti", .text jti)]) := by
  have written : ∀ member ∈ portalMembers userId (portalCredentialTag platform passwordHash) issuedAt jti,
      ReadsAs member.2.1 member.2.2 := by
    simp only [portalMembers, List.forall_mem_cons]
    exact ⟨readsAs_number _, readsAs_text _, readsAs_number _, readsAs_text _, by simp⟩
  have inhabited : portalMembers userId (portalCredentialTag platform passwordHash) issuedAt jti ≠ [] := by
    simp [portalMembers]
  exact loads_dumps inhabited written

/-- The text that a credential tag signs is no JSON. -/
theorem loads_passwordText (passwordHash : String) : loads (passwordText passwordHash) = none := by
  have opening : "portal-password:".toList = 'p' :: "ortal-password:".toList := by decide
  have shape : (passwordText passwordHash).toList = 'p' :: ("ortal-password:".toList ++ passwordHash.toList) := by
    change ("portal-password:" ++ passwordHash).toList = _
    rw [String.toList_append, opening, List.cons_append]
  have unread (fuel : Nat) (rest : List Char) : readValue (fuel + 1) ('p' :: rest) = none := by
    simp [readValue, not_minusInfinity_cons]
  rw [loads, shape, skipBlanks_of_head (by rintro c ⟨⟩; rfl), unread]

theorem adminOf_admin (username : String) (issuedAt : Int) (jti : String) :
    adminOf platform settings now ((Issue.admin username issuedAt jti).payload platform) =
      if username = "" ∨ settings.sessionMaxAgeSeconds < now - issuedAt then ⟨none, issuedAt⟩
      else ⟨some username, issuedAt⟩ := by
  have username' : (Json.object [("u", .text username), ("iat", .number issuedAt), ("jti", .text jti)]).find "u" =
      .text username := rfl
  have issuedAt' : (Json.object [("u", .text username), ("iat", .number issuedAt), ("jti", .text jti)]).find "iat" =
      .number issuedAt := rfl
  simp only [adminOf, loads_admin, username', issuedAt', instant_number, text_text]

theorem adminOf_portal (userId : Int) (passwordHash : String) (issuedAt : Int) (jti : String) :
    (adminOf platform settings now ((Issue.portal userId passwordHash issuedAt jti).payload platform)).username = none := by
  have nameless : platform.text .null = "" := rfl
  have missing (tag : String) : (Json.object [("uid", .number userId), ("ct", .text tag), ("iat", .number issuedAt),
      ("jti", .text jti)]).find "u" = .null := rfl
  have issuedAt' (tag : String) : (Json.object [("uid", .number userId), ("ct", .text tag), ("iat", .number issuedAt),
      ("jti", .text jti)]).find "iat" = .number issuedAt := rfl
  simp only [adminOf, loads_portal, missing, issuedAt', instant_number, nameless, true_or, if_true]

theorem adminOf_passwordText (passwordHash : String) :
    (adminOf platform settings now (passwordText passwordHash)).username = none := by
  simp only [adminOf, loads_passwordText]

theorem portalOf_portal (userId : Int) (passwordHash : String) (issuedAt : Int) (jti : String) :
    portalOf platform settings now ((Issue.portal userId passwordHash issuedAt jti).payload platform) =
      if userId ≤ 0 ∨ portalCredentialTag platform passwordHash = "" ∨ settings.sessionMaxAgeSeconds < now - issuedAt then
        ⟨none, none, issuedAt⟩
      else ⟨some userId, some (portalCredentialTag platform passwordHash), issuedAt⟩ := by
  have userId' (tag : String) : (Json.object [("uid", .number userId), ("ct", .text tag), ("iat", .number issuedAt),
      ("jti", .text jti)]).find "uid" = .number userId := rfl
  have tag' (tag : String) : (Json.object [("uid", .number userId), ("ct", .text tag), ("iat", .number issuedAt),
      ("jti", .text jti)]).find "ct" = .text tag := rfl
  have issuedAt' (tag : String) : (Json.object [("uid", .number userId), ("ct", .text tag), ("iat", .number issuedAt),
      ("jti", .text jti)]).find "iat" = .number issuedAt := rfl
  have read : platform.int? (.number userId) = some userId := rfl
  simp only [portalOf, loads_portal, userId', tag', issuedAt', read, instant_number, text_text]

theorem portalOf_admin (username : String) (issuedAt : Int) (jti : String) :
    (portalOf platform settings now ((Issue.admin username issuedAt jti).payload platform)).userId = none := by
  have missing : platform.int? ((Json.object [("u", .text username), ("iat", .number issuedAt),
      ("jti", .text jti)]).find "uid") = none := rfl
  simp only [portalOf, loads_admin, missing]

theorem portalOf_passwordText (passwordHash : String) :
    (portalOf platform settings now (passwordText passwordHash)).userId = none := by
  simp only [portalOf, loads_passwordText]

end Payloads

section Reading
variable {platform : Platform} {settings : Settings} {now : Int} {raw : String}

/-- A cookie is this payload and its signature. -/
def Presents (platform : Platform) (raw payload : String) : Prop :=
  ∃ body, parts raw = some (body, (platform.sign payload).toList) ∧ decode body = some payload

theorem verified_presents {payload : String} (accepted : verified platform raw = some (some payload)) :
    Presents platform raw payload := by
  unfold verified at accepted
  split at accepted
  next => cases accepted
  next found signature opened =>
    obtain ⟨⟨body, rest⟩, split, read⟩ := Option.bind_eq_some_iff.mp opened
    obtain ⟨text, decoded, same⟩ := Option.map_eq_some_iff.mp read
    cases same
    obtain ⟨equal, compared, chosen⟩ := Option.map_eq_some_iff.mp accepted
    cases equal with
    | false => cases chosen
    | true =>
      cases chosen
      unfold compareDigest at compared
      split_ifs at compared
      have signed := of_decide_eq_true (Option.some.inj compared)
      exact ⟨body, signed ▸ split, decoded⟩

/-- Only a signed payload makes a session that is not nobody's, in both readers. -/
theorem read_presents {σ : Type} {raises : String → Bool} {nobody session : σ} {read : String → σ}
    (got : ((verified platform raw).bind fun payload => payload.elim (some nobody) fun payload =>
      if raises payload then none else some (read payload)) = some session) (named : session ≠ nobody) :
    ∃ payload, Presents platform raw payload ∧ session = read payload := by
  obtain ⟨payload, accepted, found⟩ := Option.bind_eq_some_iff.mp got
  cases payload with
  | none => exact absurd (Option.some.inj found).symm named
  | some payload =>
    obtain ⟨-, same⟩ := Option.ite_none_left_eq_some.mp found
    exact ⟨payload, verified_presents accepted, (Option.some.inj same).symm⟩

theorem admin_presents {session : AdminSession}
    (got : getAdminSession platform settings none now (some raw) = some session) (named : session.username ≠ none) :
    ∃ payload, Presents platform raw payload ∧ session = adminOf platform settings now payload := by
  have somebody : session ≠ ⟨none, now⟩ := by
    intro same
    exact named (congrArg AdminSession.username same)
  unfold getAdminSession at got
  simp only at got
  split_ifs at got
  · exact absurd (Option.some.inj got).symm somebody
  · exact read_presents got somebody

theorem portal_presents {session : PortalSession}
    (got : getPortalSession platform settings now (some raw) = some session) (named : session.userId ≠ none) :
    ∃ payload, Presents platform raw payload ∧ session = portalOf platform settings now payload := by
  have somebody : session ≠ ⟨none, none, now⟩ := by
    intro same
    exact named (congrArg PortalSession.userId same)
  unfold getPortalSession at got
  simp only at got
  split_ifs at got
  · exact absurd (Option.some.inj got).symm somebody
  · exact read_presents got somebody

theorem Presents.signed {payload known : String} {body : List Char} (distinct : Function.Injective platform.sign)
    (presents : Presents platform raw payload) (carries : parts raw = some (body, (platform.sign known).toList)) :
    payload = known := by
  obtain ⟨other, split, -⟩ := presents
  have same := congrArg Prod.snd (Option.some.inj (split.symm.trans carries))
  exact distinct (String.toList_inj.mp same)

/-- A payload that the adversary presents was signed, or its tag was made, for somebody. -/
theorem Presents.known {ledger : Ledger} {payload : String} (distinct : Function.Injective platform.sign)
    (built : ledger.Builds platform raw) (presents : Presents platform raw payload) :
    ∃ issue ∈ ledger.issued, payload ∈ issue.signed platform := by
  obtain ⟨body, split, -⟩ := presents
  obtain ⟨issue, issued, known, contained, same⟩ := built body _ payload split rfl
  exact ⟨issue, issued, distinct same ▸ contained⟩

end Reading

section RoundTrip
variable {platform : Platform}

theorem decode_encode (text : String) : decode (encode text) = some text := by
  have read : urlsafeB64decode (encode text ++ ['=', '=']) = some text.toUTF8.data.toList := urlsafeB64decode_b64url _
  have valid : ByteArray.IsValidUTF8 ⟨text.toUTF8.data.toList.toArray⟩ := by
    rw [Array.toArray_toList]
    exact text.isValidUTF8
  simp only [decode, read, Option.bind_eq_bind, Option.bind_some, String.fromUTF8?, dif_pos valid]
  rfl

theorem parts_cookie (payload : String) :
    parts (cookie platform payload) = some (encode payload, (platform.sign payload).toList) := by
  have pointless : ∀ c ∈ encode payload, decide (c ≠ '.') = true := fun c member => decide_eq_true (mem_b64url member).2
  rw [parts, cookie, String.toList_ofList, List.dropWhile_append_of_pos pointless, List.takeWhile_append_of_pos pointless]
  simp

theorem verified_cookie {payload : String} (ascii : isAscii (platform.sign payload).toList = true) :
    verified platform (cookie platform payload) = some (some payload) := by
  simp [verified, parts_cookie, decode_encode, compareDigest, ascii]

end RoundTrip

section Safety
variable {platform : Platform} {settings : Settings} {ledger : Ledger} {raw : String}

theorem Ledger.Reached.issued_before (reached : ledger.Reached) : ∀ issue ∈ ledger.issued, issue.issuedAt ≤ ledger.clock := by
  obtain ⟨clock, run⟩ := reached
  induction run with
  | refl => simp
  | tail _ step ih =>
    cases step with
    | tick later ordered => exact fun issue member => (ih issue member).trans ordered
    | issue issue timed =>
      intro other member
      cases member with
      | head => exact timed.le
      | tail _ older => exact ih other older

theorem mem_signed_admin {username jti known : String} {issuedAt : Int}
    (signed : known ∈ (Issue.admin username issuedAt jti).signed platform) :
    known = (Issue.admin username issuedAt jti).payload platform := by
  simpa [Issue.signed] using signed

theorem mem_signed_portal {userId issuedAt : Int} {passwordHash jti known : String}
    (signed : known ∈ (Issue.portal userId passwordHash issuedAt jti).signed platform) :
    known = (Issue.portal userId passwordHash issuedAt jti).payload platform ∨ known = passwordText passwordHash := by
  simpa [Issue.signed] using signed

/-- The administrator was issued this payload within the maximum age. -/
def AdminIssued (platform : Platform) (settings : Settings) (ledger : Ledger) (raw : String) (session : AdminSession) : Prop :=
  ∃ username issuedAt jti, session = ⟨some username, issuedAt⟩ ∧ .admin username issuedAt jti ∈ ledger.issued ∧
    Presents platform raw ((Issue.admin username issuedAt jti).payload platform) ∧
    issuedAt ≤ ledger.clock ∧ ledger.clock - issuedAt ≤ settings.sessionMaxAgeSeconds

/-- The user was issued this payload, with the tag of that password, within the maximum age. -/
def PortalIssued (platform : Platform) (settings : Settings) (ledger : Ledger) (raw : String) (session : PortalSession) : Prop :=
  ∃ userId passwordHash issuedAt jti, session = ⟨some userId, some (portalCredentialTag platform passwordHash), issuedAt⟩ ∧
    .portal userId passwordHash issuedAt jti ∈ ledger.issued ∧
    Presents platform raw ((Issue.portal userId passwordHash issuedAt jti).payload platform) ∧
    issuedAt ≤ ledger.clock ∧ ledger.clock - issuedAt ≤ settings.sessionMaxAgeSeconds

theorem admin_issued (distinct : Function.Injective platform.sign) (reached : ledger.Reached) (built : ledger.Builds platform raw)
    {session : AdminSession} (got : getAdminSession platform settings none ledger.clock (some raw) = some session)
    (named : session.username ≠ none) : AdminIssued platform settings ledger raw session := by
  obtain ⟨payload, presents, rfl⟩ := admin_presents got named
  obtain ⟨issue, issued, signed⟩ := presents.known distinct built
  have before := Ledger.Reached.issued_before reached issue issued
  cases issue with
  | admin username issuedAt jti =>
    obtain rfl := mem_signed_admin signed
    rw [adminOf_admin] at named ⊢
    split_ifs at named ⊢ with refused
    · exact absurd rfl named
    · have young := not_lt.mp (not_or.mp refused).2
      exact ⟨username, issuedAt, jti, rfl, issued, presents, before, young⟩
  | portal userId passwordHash issuedAt jti =>
    rcases mem_signed_portal signed with rfl | rfl
    · exact absurd (adminOf_portal ..) named
    · exact absurd (adminOf_passwordText ..) named

theorem portal_issued (distinct : Function.Injective platform.sign) (reached : ledger.Reached) (built : ledger.Builds platform raw)
    {session : PortalSession} (got : getPortalSession platform settings ledger.clock (some raw) = some session)
    (named : session.userId ≠ none) : PortalIssued platform settings ledger raw session := by
  obtain ⟨payload, presents, rfl⟩ := portal_presents got named
  obtain ⟨issue, issued, signed⟩ := presents.known distinct built
  have before := Ledger.Reached.issued_before reached issue issued
  cases issue with
  | admin username issuedAt jti =>
    obtain rfl := mem_signed_admin signed
    exact absurd (portalOf_admin ..) named
  | portal userId passwordHash issuedAt jti =>
    rcases mem_signed_portal signed with rfl | rfl
    · rw [portalOf_portal] at named ⊢
      split_ifs at named ⊢ with refused
      · exact absurd rfl named
      · have young := not_lt.mp (not_or.mp (not_or.mp refused).2).2
        exact ⟨userId, passwordHash, issuedAt, jti, rfl, issued, presents, before, young⟩
    · exact absurd (portalOf_passwordText ..) named

theorem portal_apart (distinct : Function.Injective platform.sign) {userId issuedAt : Int} {passwordHash jti known : String}
    (signed : known ∈ (Issue.portal userId passwordHash issuedAt jti).signed platform) {body : List Char}
    (carries : parts raw = some (body, (platform.sign known).toList)) {now : Int} {session : AdminSession}
    (got : getAdminSession platform settings none now (some raw) = some session) : session.username = none := by
  by_contra named
  obtain ⟨payload, presents, rfl⟩ := admin_presents got named
  cases presents.signed distinct carries
  rcases mem_signed_portal signed with rfl | rfl
  · exact named (adminOf_portal ..)
  · exact named (adminOf_passwordText ..)

theorem admin_apart (distinct : Function.Injective platform.sign) {username jti known : String} {issuedAt : Int}
    (signed : known ∈ (Issue.admin username issuedAt jti).signed platform) {body : List Char}
    (carries : parts raw = some (body, (platform.sign known).toList)) {now : Int} {session : PortalSession}
    (got : getPortalSession platform settings now (some raw) = some session) : session.userId = none := by
  by_contra named
  obtain ⟨payload, presents, rfl⟩ := portal_presents got named
  cases presents.signed distinct carries
  obtain rfl := mem_signed_admin signed
  exact named (portalOf_admin ..)

/-- Nobody is signed in but by a cookie that was issued for them, and neither reader accepts what
was signed for the other one. -/
theorem sessions_issued (distinct : Function.Injective platform.sign) (settings : Settings) (reached : ledger.Reached)
    (built : ledger.Builds platform raw) :
    (∀ session, getAdminSession platform settings none ledger.clock (some raw) = some session → session.isAuthenticated →
      AdminIssued platform settings ledger raw session) ∧
    (∀ session, getPortalSession platform settings ledger.clock (some raw) = some session → session.userId ≠ none →
      PortalIssued platform settings ledger raw session) ∧
    (∀ userId passwordHash issuedAt jti known body session,
      .portal userId passwordHash issuedAt jti ∈ ledger.issued →
      known ∈ (Issue.portal userId passwordHash issuedAt jti).signed platform →
      parts raw = some (body, (platform.sign known).toList) →
      getAdminSession platform settings none ledger.clock (some raw) = some session → ¬ session.isAuthenticated) ∧
    ∀ username issuedAt jti known body session,
      .admin username issuedAt jti ∈ ledger.issued → known ∈ (Issue.admin username issuedAt jti).signed platform →
      parts raw = some (body, (platform.sign known).toList) →
      getPortalSession platform settings ledger.clock (some raw) = some session → session.userId = none := by
  refine ⟨?_, ?_, ?_, ?_⟩
  · rintro session got ⟨username, named, -⟩
    exact admin_issued distinct reached built got (by simp [named])
  · intro session got named
    exact portal_issued distinct reached built got named
  · rintro userId passwordHash issuedAt jti known body session - signed carries got ⟨username, named, -⟩
    have nobody := portal_apart distinct signed carries got
    exact absurd (nobody.symm.trans named) (by simp)
  · rintro username issuedAt jti known body session - signed carries got
    exact admin_apart distinct signed carries got

end Safety

section Samples

def sampleDigests : List (String × String) :=
  [("portal-password:$2b$12$hash", "99NkR4rK3x59VrljFtMG3iaxwf5ThgFiwtGe-Ja8xus"),
    ("\x7b\"u\":\"admin\",\"iat\":100,\"jti\":\"j1\"\x7d", "ep-lVWEsgNWYLhg9i4Leyt61GaqUsT8VCURnEQazbOc"),
    ("\x7b\"uid\":7,\"ct\":\"99NkR4rK3x59VrljFtMG3iaxwf5ThgFiwtGe-Ja8xus\",\"iat\":100,\"jti\":\"j2\"\x7d",
      "nAOt5YzKQAWqYsoG-QH-gpd5wCqlzufs9kdaJqvEz6U")]

/-- The texts of two sessions as HMAC signs them under the secret `session-secret`. -/
def samplePlatform : Platform where
  str _ := ""
  int _ := none
  sign text :=
    match sampleDigests.find? (·.1 = text) with
    | some digest => digest.2
    | none => "." ++ text
  tooDeep _ := false

def sampleAdmin : Issue := .admin "admin" 100 "j1"

def samplePortal : Issue := .portal 7 "$2b$12$hash" 100 "j2"

def sampleLedger : Ledger := ⟨150, [samplePortal, sampleAdmin]⟩

theorem samplePlatform_distinct : Function.Injective samplePlatform.sign := by
  have pointless : ∀ digest ∈ sampleDigests, ∀ text : String, digest.2 ≠ "." ++ text := by
    intro digest member text same
    have head : digest.2.toList.head? = some '.' := by rw [same, String.toList_append]; rfl
    have plain : ∀ digest ∈ sampleDigests, digest.2.toList.head? ≠ some '.' := by decide
    exact plain digest member head
  have apart : ∀ first ∈ sampleDigests, ∀ second ∈ sampleDigests, first.2 = second.2 → first.1 = second.1 := by decide
  intro first second same
  simp only [samplePlatform] at same
  split at same <;> split at same
  next one here _ other there =>
    have equal := apart one (List.mem_of_find?_eq_some here) other (List.mem_of_find?_eq_some there) same
    have left := List.find?_some here
    have right := List.find?_some there
    simp only [decide_eq_true_eq] at left right
    rw [← left, ← right, equal]
  next one here _ _ => exact absurd same (pointless one (List.mem_of_find?_eq_some here) second)
  next other there => exact absurd same.symm (pointless other (List.mem_of_find?_eq_some there) first)
  next => exact String.append_right_inj _ |>.mp same

theorem sampleLedger_reached : sampleLedger.Reached := by
  have first : Issues ⟨100, []⟩ ⟨100, [sampleAdmin]⟩ := .issue sampleAdmin rfl
  have second : Issues ⟨100, [sampleAdmin]⟩ ⟨100, [samplePortal, sampleAdmin]⟩ := .issue samplePortal rfl
  have last : Issues ⟨100, [samplePortal, sampleAdmin]⟩ sampleLedger := .tick 150 (by decide)
  exact ⟨100, ((Relation.ReflTransGen.single first).tail second).tail last⟩

theorem builds_issued {issue : Issue} (issued : issue ∈ sampleLedger.issued) :
    sampleLedger.Builds samplePlatform (issue.cookie samplePlatform) := by
  rintro body signature text split rfl
  have carried := congrArg Prod.snd (Option.some.inj ((parts_cookie _).symm.trans split))
  refine ⟨issue, issued, issue.payload samplePlatform, ?_, String.toList_inj.mp carried⟩
  cases issue <;> exact List.mem_cons_self

theorem sample_sessions_issued :
    getAdminSession samplePlatform ⟨100⟩ none 150 (some (sampleAdmin.cookie samplePlatform)) = some ⟨some "admin", 100⟩ ∧
      AdminIssued samplePlatform ⟨100⟩ sampleLedger (sampleAdmin.cookie samplePlatform) ⟨some "admin", 100⟩ := by
  have built : sampleLedger.Builds samplePlatform (sampleAdmin.cookie samplePlatform) :=
    builds_issued (List.mem_cons_of_mem _ List.mem_cons_self)
  have got : getAdminSession samplePlatform ⟨100⟩ none 150 (some (sampleAdmin.cookie samplePlatform)) =
      some ⟨some "admin", 100⟩ := by
    have accepted : verified samplePlatform (sampleAdmin.cookie samplePlatform) = some (some (sampleAdmin.payload samplePlatform)) :=
      verified_cookie (by decide)
    have inhabited : sampleAdmin.cookie samplePlatform ≠ "" := by decide
    have read : adminOf samplePlatform ⟨100⟩ 150 (sampleAdmin.payload samplePlatform) = ⟨some "admin", 100⟩ := by
      rw [sampleAdmin, adminOf_admin]
      rfl
    have raises : samplePlatform.adminRaises (sampleAdmin.payload samplePlatform) = false := by
      rw [sampleAdmin, Platform.adminRaises, loads_admin]
      rfl
    simp [getAdminSession, if_neg inhabited, accepted, raises, read]
  have issued := (sessions_issued samplePlatform_distinct ⟨100⟩ sampleLedger_reached built).1
  exact ⟨got, issued _ got ⟨"admin", rfl, by decide⟩⟩

end Samples

end Dagmar.Sessions.Proofs
