import Dagmar.Proofs.CookieSafety

/-! What the readers of the session cookies answer for any text. They catch what the
parts, the decoding and the payload may raise, but not what the comparison of the
signatures raises on a text outside ASCII. -/

namespace Dagmar.Sessions.Proofs
open JsonText Base64

section Totality
variable {platform : Platform} {settings : Settings} {now : Int} {raw : String}

/-- `_sign` writes a digest in the alphabet of URLs. -/
def SignsInBase64 (platform : Platform) : Prop := ∀ text, ∃ digest, (platform.sign text).toList = b64url digest

/-- A cookie whose payload decodes, and whose signature is no ASCII text, or is that of a payload on
which the reader raises. -/
def Escapes (platform : Platform) (raises : String → Bool) (raw : String) : Prop :=
  ∃ body signature payload, parts raw = some (body, signature) ∧ decode body = some payload ∧
    (isAscii signature = false ∨ signature = (platform.sign payload).toList ∧ raises payload = true)

theorem SignsInBase64.ascii (signs : SignsInBase64 platform) (text : String) : isAscii (platform.sign text).toList = true := by
  obtain ⟨digest, written⟩ := signs text
  rw [written]
  exact List.all_eq_true.mpr fun c member => decide_eq_true (mem_b64url member).1

theorem verified_unread (unread : ∀ body signature payload, parts raw = some (body, signature) → decode body ≠ some payload) :
    verified platform raw = some none := by
  unfold verified
  cases split : parts raw with
  | none => rfl
  | some pair =>
    obtain ⟨body, signature⟩ := pair
    have closed : decode body = none :=
      Option.eq_none_iff_forall_ne_some.mpr fun payload => unread body signature payload split
    simp only [Option.bind_some, closed, Option.map_none]

theorem verified_read {body signature : List Char} {payload : String} (split : parts raw = some (body, signature))
    (decoded : decode body = some payload) :
    verified platform raw =
      (compareDigest (platform.sign payload).toList signature).map fun same => if same then some payload else none := by
  simp only [verified, split, decoded, Option.bind_some, Option.map_some]

/-- Both readers end in this way, which raises in two places. -/
theorem read_escapes {α : Type} (signs : SignsInBase64 platform) (raises : String → Bool) (nobody : α) (session : String → α) :
    ((verified platform raw).bind fun payload => payload.elim (some nobody) fun payload =>
        if raises payload then none else some (session payload)) = none ↔ Escapes platform raises raw := by
  by_cases read : ∃ body signature payload, parts raw = some (body, signature) ∧ decode body = some payload
  · obtain ⟨body, signature, payload, split, decoded⟩ := read
    have only : Escapes platform raises raw ↔
        isAscii signature = false ∨ signature = (platform.sign payload).toList ∧ raises payload = true := by
      refine ⟨?_, fun escapes => ⟨body, signature, payload, split, decoded, escapes⟩⟩
      rintro ⟨other, signed, text, split', decoded', escapes⟩
      cases split.symm.trans split'
      cases decoded.symm.trans decoded'
      exact escapes
    rw [only, verified_read split decoded, compareDigest]
    cases ascii : isAscii signature with
    | false => simp
    | true =>
      rw [if_pos ⟨signs.ascii payload, rfl⟩]
      by_cases same : signature = (platform.sign payload).toList
      · subst same
        cases raised : raises payload <;> simp [raised]
      · have different : decide ((platform.sign payload).toList = signature) = false := decide_eq_false (Ne.symm same)
        simp [different, same]
  · have unread : ∀ body signature payload, parts raw = some (body, signature) → decode body ≠ some payload :=
      fun body signature payload split decoded => read ⟨body, signature, payload, split, decoded⟩
    rw [verified_unread unread]
    constructor
    · intro answered
      cases answered
    · rintro ⟨body, signature, payload, split, decoded, -⟩
      exact absurd decoded (unread body signature payload split)

theorem not_escapes_empty (raises : String → Bool) : ¬ Escapes platform raises "" := by
  rintro ⟨body, signature, payload, split, -⟩
  cases split

theorem admin_escapes (signs : SignsInBase64 platform) :
    getAdminSession platform settings none now (some raw) = none ↔ Escapes platform platform.adminRaises raw := by
  by_cases empty : raw = ""
  · subst empty
    exact iff_of_false (by simp [getAdminSession]) (not_escapes_empty _)
  · simp only [getAdminSession, if_neg empty]
    exact read_escapes signs _ _ _

theorem portal_escapes (signs : SignsInBase64 platform) :
    getPortalSession platform settings now (some raw) = none ↔ Escapes platform platform.portalRaises raw := by
  by_cases empty : raw = ""
  · subst empty
    exact iff_of_false (by simp [getPortalSession]) (not_escapes_empty _)
  · simp only [getPortalSession, if_neg empty]
    exact read_escapes signs _ _ _

/-- The reader answers, and with somebody who is signed in only for a signed payload. -/
def AdminDecodes (platform : Platform) (settings : Settings) (now : Int) (raw : String) : Prop :=
  ∃ session, getAdminSession platform settings none now (some raw) = some session ∧
    (session.isAuthenticated → ∃ payload, Presents platform raw payload)

def PortalDecodes (platform : Platform) (settings : Settings) (now : Int) (raw : String) : Prop :=
  ∃ session, getPortalSession platform settings now (some raw) = some session ∧
    (session.isAuthenticated → ∃ payload, Presents platform raw payload)

/-- Whoever a reader signs in has presented a payload, so it only has to answer. -/
theorem answered_iff {σ : Type} {got : Option σ} {signedIn : σ → Prop} {presented : Prop}
    (sound : ∀ session, got = some session → signedIn session → presented) :
    (∃ session, got = some session ∧ (signedIn session → presented)) ↔ got ≠ none := by
  constructor
  · intro decodes
    obtain ⟨session, answered, -⟩ := decodes
    rw [answered]
    exact Option.some_ne_none session
  · intro answered
    obtain ⟨session, found⟩ := Option.ne_none_iff_exists'.mp answered
    exact ⟨session, found, sound session found⟩

theorem adminDecodes_iff : AdminDecodes platform settings now raw ↔ getAdminSession platform settings none now (some raw) ≠ none := by
  apply answered_iff
  intro session got signed
  obtain ⟨username, named, -⟩ := signed
  obtain ⟨payload, presents, -⟩ := admin_presents got (by simp [named])
  exact ⟨payload, presents⟩

theorem portalDecodes_iff : PortalDecodes platform settings now raw ↔ getPortalSession platform settings now (some raw) ≠ none := by
  apply answered_iff
  intro session got signed
  obtain ⟨payload, presents, -⟩ := portal_presents got signed.1
  exact ⟨payload, presents⟩

/-- The readers answer for every text but those whose payload decodes in front of a signature outside
ASCII, and signed payloads that are nested too deeply or hold an infinite number. -/
theorem sessions_decoded (signs : SignsInBase64 platform) (settings : Settings) (now : Int) (raw : String) :
    (AdminDecodes platform settings now raw ↔ ¬ Escapes platform platform.adminRaises raw) ∧
      (PortalDecodes platform settings now raw ↔ ¬ Escapes platform platform.portalRaises raw) :=
  ⟨adminDecodes_iff.trans (not_congr (admin_escapes signs)), portalDecodes_iff.trans (not_congr (portal_escapes signs))⟩

end Totality

section Samples

def digestOf : String → List UInt8
  | "" => [36, 29, 233, 58, 109, 23, 77, 217, 216, 140, 30, 229, 19, 119, 178, 249, 82, 50, 192, 168, 240, 134, 19, 33,
      133, 253, 5, 161, 58, 137, 26, 13]
  | _ => [122, 159, 165, 85, 97, 44, 128, 213, 152, 46, 24, 61, 139, 130, 222, 202, 222, 181, 25, 170, 148, 177, 63, 21,
      9, 68, 103, 17, 6, 179, 108, 231]

/-- HMAC under the secret `session-secret` of no text and of the payload of `sampleAdmin`. -/
def digestPlatform : Platform := { samplePlatform with sign := fun text => String.ofList (b64url (digestOf text)) }

theorem digestPlatform_signs : SignsInBase64 digestPlatform := fun text => ⟨digestOf text, String.toList_ofList⟩

/-- A cookie that was issued is read; so is one without a payload and with a signature that is not its own. -/
theorem sample_decoded :
    AdminDecodes digestPlatform ⟨43200⟩ 150 (sampleAdmin.cookie digestPlatform) ∧
      PortalDecodes digestPlatform ⟨43200⟩ 150 ".e" := by
  have plain : ¬ Escapes digestPlatform digestPlatform.adminRaises (sampleAdmin.cookie digestPlatform) := by
    rintro ⟨body, signature, text, split, decoded, escapes⟩
    cases (parts_cookie _).symm.trans split
    cases (decode_encode _).symm.trans decoded
    rcases escapes with foreign | ⟨-, raised⟩
    · cases (digestPlatform_signs.ascii _).symm.trans foreign
    · rw [Platform.adminRaises, sampleAdmin, loads_admin] at raised
      cases raised
  have short : ¬ Escapes digestPlatform digestPlatform.portalRaises ".e" := by
    rintro ⟨body, signature, text, split, decoded, escapes⟩
    cases split
    cases (show decode [] = some "" by decide).symm.trans decoded
    rcases escapes with foreign | ⟨same, -⟩
    · cases foreign
    · exact absurd same (by decide)
  exact ⟨(sessions_decoded digestPlatform_signs ⟨43200⟩ 150 _).1.mpr plain,
    (sessions_decoded digestPlatform_signs ⟨43200⟩ 150 _).2.mpr short⟩

/-- Without a payload and with a letter outside ASCII for the signature, both readers raise. -/
theorem foreign_signature_raises :
    ¬ AdminDecodes digestPlatform ⟨43200⟩ 150 ".é" ∧ ¬ PortalDecodes digestPlatform ⟨43200⟩ 150 ".é" := by
  have escapes (raises : String → Bool) : Escapes digestPlatform raises ".é" :=
    ⟨[], ['é'], "", rfl, by decide, .inl (by decide)⟩
  constructor
  · intro decodes
    exact adminDecodes_iff.mp decodes ((admin_escapes digestPlatform_signs).mpr (escapes _))
  · intro decodes
    exact portalDecodes_iff.mp decodes ((portal_escapes digestPlatform_signs).mpr (escapes _))

end Samples

end Dagmar.Sessions.Proofs
