import Dagmar.CsrfTokens
import Dagmar.Library.History

/-! A token that is accepted was answered to the same browser session before, and to no
other one. A session keeps its token for two hours, and what it was answered is accepted. -/

namespace Dagmar.Csrf.Proofs
open Library Library.Outcome

section Tokens

theorem mem_tokenUrlsafe {bytes : List UInt8} {c : Char} (member : c ∈ (tokenUrlsafe bytes).toList) :
    c.toNat < 128 ∧ isSpace c = false := by
  rw [tokenUrlsafe, String.toList_ofList] at member
  obtain ⟨value, small, rfl⟩ := Base64.exists_sextet member
  refine ⟨(Base64.mem_b64url member).1, ?_⟩
  interval_cases value <;> decide

theorem tokenUrlsafe_ne {bytes : List UInt8} (drawn : bytes.length = 32) : tokenUrlsafe bytes ≠ "" := by
  intro empty
  have written : Base64.b64url bytes = Base64.b64url [] := String.ofList_injective empty
  have read := Base64.a2b_b64url bytes
  rw [written, Base64.a2b_b64url] at read
  rw [← Option.some.inj read] at drawn
  cases drawn

/-- No blank is in the alphabet. -/
theorem strip_tokenUrlsafe (bytes : List UInt8) : strip (tokenUrlsafe bytes) = tokenUrlsafe bytes := by
  have kept (text : List Char) (inside : ∀ c ∈ text, c ∈ (tokenUrlsafe bytes).toList) : text.dropWhile isSpace = text := by
    apply List.dropWhile_eq_self_iff.mpr
    intro some_
    rw [(mem_tokenUrlsafe (inside _ (List.getElem_mem some_))).2]
    exact Bool.false_ne_true
  rw [strip, kept _ fun c => id, kept _ fun c => List.mem_reverse.mp, List.reverse_reverse, String.ofList_toList]

/-- A session as it is answered: a token, and when it was issued. -/
def issuedSession (token : String) (issuedAt : Int) : Session := ⟨some (.text token), some (.text (isoformat issuedAt 0))⟩

/-- A session keeps its token for two hours, and gets a new one after them. -/
theorem getOrRotate_issued {token : String} {issuedAt : Int} (inside : inCalendar (dateOf issuedAt)) (now : Int)
    (bytes : List UInt8) :
    getOrRotateCsrfToken now bytes (issuedSession token issuedAt) = issueCsrfToken now bytes ∨
      getOrRotateCsrfToken now bytes (issuedSession token issuedAt) = (token, issuedSession token issuedAt) ∧
        now ≤ issuedAt + rotateMinutes * minute := by
  have read := datetimeFromIsoformat_isoformat inside
  by_cases old : rotateMinutes * minute < now - issuedAt
  · left
    simp only [getOrRotateCsrfToken, issuedSession, read]
    exact if_pos old
  · right
    simp only [getOrRotateCsrfToken, issuedSession, read]
    exact ⟨if_neg old, by omega⟩

end Tokens

section Checks

theorem constantTimeEq_iff {provided expected : String} (ascii : ∀ c ∈ expected.toList, c.toNat < 128) :
    constantTimeEq provided expected = true ↔ provided = expected := by
  have expected' : Base64.isAscii expected.toList = true := List.all_eq_true.mpr fun c member => decide_eq_true (ascii c member)
  rw [constantTimeEq, Sessions.compareDigest]
  constructor
  · intro same
    split at same
    next both => exact String.toList_inj.mp (of_decide_eq_true same)
    next foreign => cases same
  · intro same
    rw [same, if_pos ⟨expected', expected'⟩]
    exact decide_eq_true rfl

theorem run_empty {check : Check} {request : Request} (guarded : request.exempt = false) :
    check.run .empty request ≠ .ok () := by
  cases check with
  | portal =>
    rw [Check.run, requireCsrfHeader, guarded]
    intro passed
    cases passed
  | admin =>
    rw [Check.run, requireCsrf, guarded]
    intro passed
    cases passed

theorem run_issued {check : Check} {request : Request} {token : String} {issuedAt : Int} (guarded : request.exempt = false)
    (filled : token ≠ "") (ascii : ∀ c ∈ token.toList, c.toNat < 128) :
    check.run (issuedSession token issuedAt) request = .ok () ↔ check.provided request = .ok (some token) := by
  have expected : expectedToken (issuedSession token issuedAt) = some token := if_neg filled
  have stored : ¬ (issuedSession token issuedAt).isEmpty = true := by simp [issuedSession, Session.isEmpty]
  cases check with
  | portal =>
    rw [Check.run, Check.provided, requireCsrfHeader, guarded, expected, if_neg Bool.false_ne_true]
    simp only [bind_eq_ok, require_eq_ok, raiseIf_eq_ok, pure_eq_ok, not_not, Option.some.injEq]
    constructor
    · intro passed
      obtain ⟨_, rfl, provided, given, same⟩ := passed
      rw [given, (constantTimeEq_iff ascii).mp same]
    · intro given
      exact ⟨token, rfl, token, given, (constantTimeEq_iff ascii).mpr rfl⟩
  | admin =>
    rw [Check.run, Check.provided, requireCsrf, guarded, expected, if_neg Bool.false_ne_true]
    simp only [bind_eq_ok, require_eq_ok, raiseIf_eq_ok, not_not, Option.some.injEq]
    constructor
    · intro passed
      obtain ⟨-, -, _, rfl, _, read, provided, given, same⟩ := passed
      rw [read, given, (constantTimeEq_iff ascii).mp same]
    · intro given
      exact ⟨(), stored, token, rfl, some token, given, token, rfl, (constantTimeEq_iff ascii).mpr rfl⟩

end Checks

section Invariant

/-- A sealed session is one that was answered, and no other sealed session has its token. -/
structure Sound (world : World) : Prop where
  inside : inCalendar (dateOf world.clock)
  stored : ∀ known ∈ world.handed, ∃ bytes issuedAt, known.session = issuedSession (tokenUrlsafe bytes) issuedAt ∧
    bytes.length = 32 ∧ known.number < world.begun ∧ issuedAt ≤ world.clock ∧ inCalendar (dateOf issuedAt) ∧
    .answered known.number (tokenUrlsafe bytes) issuedAt ∈ world.history
  answered : ∀ number token instant, .answered number token instant ∈ world.history → ∃ issuedAt,
    ⟨number, issuedSession token issuedAt⟩ ∈ world.handed ∧ inCalendar (dateOf issuedAt) ∧ issuedAt ≤ instant ∧
      instant ≤ issuedAt + rotateMinutes * minute
  single : ∀ first ∈ world.handed, ∀ second ∈ world.handed, first.session.csrfToken = second.session.csrfToken → first = second
  accepted : ∀ number token, .accepted number token ∈ world.history → ∃ own instant, number = some own ∧
    Since world.history (.answered own token instant) (.accepted number token)

variable {world : World}

/-- The clock goes on. -/
theorem Sound.tick (sound : Sound world) {later : Int} (ordered : world.clock ≤ later) (inside : inCalendar (dateOf later)) :
    Sound { world with clock := later } := by
  refine { sound with inside := inside, stored := ?_ }
  intro known member
  obtain ⟨bytes, issuedAt, same, drawn, old, before, valid, answered⟩ := sound.stored known member
  exact ⟨bytes, issuedAt, same, drawn, old, before.trans ordered, valid, answered⟩

/-- A session that keeps its token is sealed again as it was. -/
theorem Sound.keep (sound : Sound world) {known : Sealed} (held : known ∈ world.handed) {token : String} {issuedAt : Int}
    (same : known.session = issuedSession token issuedAt) (valid : inCalendar (dateOf issuedAt)) (before : issuedAt ≤ world.clock)
    (young : world.clock ≤ issuedAt + rotateMinutes * minute) :
    Sound { world with
      handed := known :: world.handed
      history := .answered known.number token world.clock :: world.history } := by
  have again (other : Sealed) (member : other ∈ known :: world.handed) : other ∈ world.handed := by
    rcases List.mem_cons.mp member with rfl | older
    · exact held
    · exact older
  refine ⟨sound.inside, ?_, ?_, ?_, ?_⟩
  · intro other member
    obtain ⟨bytes, instant, session, drawn, old, earlier, valid, answered⟩ := sound.stored other (again other member)
    exact ⟨bytes, instant, session, drawn, old, earlier, valid, List.mem_cons_of_mem _ answered⟩
  · intro number text instant member
    rcases List.mem_cons.mp member with now | past
    · cases now
      exact ⟨issuedAt, same ▸ List.mem_cons_self, valid, before, young⟩
    · obtain ⟨first, sealed_, bounds⟩ := sound.answered number text instant past
      exact ⟨first, List.mem_cons_of_mem _ sealed_, bounds⟩
  · intro first inFirst second inSecond
    exact sound.single first (again first inFirst) second (again second inSecond)
  · intro number text member
    rcases List.mem_cons.mp member with impossible | past
    · cases impossible
    · obtain ⟨own, instant, same, since⟩ := sound.accepted number text past
      exact ⟨own, instant, same, .inr since⟩

/-- A new token is like no other. -/
theorem Sound.add (sound : Sound world) {bytes : List UInt8} (drawn : bytes.length = 32)
    (fresh : ∀ event ∈ world.history, event.token ≠ tokenUrlsafe bytes) {number begun : Nat} (grown : world.begun ≤ begun)
    (own : number < begun) :
    Sound { world with
      handed := ⟨number, issuedSession (tokenUrlsafe bytes) world.clock⟩ :: world.handed
      begun := begun
      history := .answered number (tokenUrlsafe bytes) world.clock :: world.history } := by
  have apart (other : Sealed) (member : other ∈ world.handed) : other.session.csrfToken ≠ some (.text (tokenUrlsafe bytes)) := by
    intro same
    obtain ⟨bytes', issuedAt, session, -, -, -, -, answered⟩ := sound.stored other member
    rw [session] at same
    exact fresh _ answered (Json.text.inj (Option.some.inj same))
  refine ⟨sound.inside, ?_, ?_, ?_, ?_⟩
  · intro other member
    rcases List.mem_cons.mp member with rfl | older
    · exact ⟨bytes, world.clock, rfl, drawn, own, le_rfl, sound.inside, List.mem_cons_self⟩
    · obtain ⟨bytes, instant, session, drawn, old, earlier, valid, answered⟩ := sound.stored other older
      exact ⟨bytes, instant, session, drawn, old.trans_le grown, earlier, valid, List.mem_cons_of_mem _ answered⟩
  · intro other text instant member
    rcases List.mem_cons.mp member with now | past
    · cases now
      exact ⟨world.clock, List.mem_cons_self, sound.inside, le_rfl, by simp only [rotateMinutes, minute]; omega⟩
    · obtain ⟨first, sealed_, bounds⟩ := sound.answered other text instant past
      exact ⟨first, List.mem_cons_of_mem _ sealed_, bounds⟩
  · intro first inFirst second inSecond same
    rcases List.mem_cons.mp inFirst with rfl | older
    · rcases List.mem_cons.mp inSecond with rfl | older'
      · rfl
      · exact absurd same.symm (apart second older')
    · rcases List.mem_cons.mp inSecond with rfl | older'
      · exact absurd same (apart first older)
      · exact sound.single first older second older' same
  · intro other text member
    rcases List.mem_cons.mp member with impossible | past
    · cases impossible
    · obtain ⟨own, instant, same, since⟩ := sound.accepted other text past
      exact ⟨own, instant, same, .inr since⟩

theorem Sound.issue (sound : Sound world) (cookie : Option Sealed) (held : world.Holds cookie) {bytes : List UInt8}
    (drawn : bytes.length = 32) (fresh : ∀ event ∈ world.history, event.token ≠ tokenUrlsafe bytes) :
    Sound (world.issue cookie bytes) := by
  cases cookie with
  | none => exact sound.add drawn fresh (Nat.le_succ _) (Nat.lt_succ_self _)
  | some known =>
    have member := held known rfl
    obtain ⟨other, issuedAt, same, -, old, before, valid, -⟩ := sound.stored known member
    have read : opened (some known) = issuedSession (tokenUrlsafe other) issuedAt := same
    rcases @getOrRotate_issued (tokenUrlsafe other) issuedAt valid world.clock bytes with rotated | ⟨kept, young⟩
    · rw [World.issue, read, rotated]
      exact sound.add drawn fresh le_rfl old
    · rw [World.issue, read, kept, ← same]
      exact sound.keep member same valid before young

theorem Sound.accept (sound : Sound world) (check : Check) (cookie : Option Sealed) (held : world.Holds cookie)
    {request : Request} (guarded : request.exempt = false) (passed : check.run (opened cookie) request = .ok ())
    {token : String} (provided : check.provided request = .ok (some token)) :
    Sound { world with history := .accepted (cookie.map Sealed.number) token :: world.history } := by
  refine { sound with stored := ?_, answered := ?_, accepted := ?_ }
  · intro other member
    obtain ⟨bytes, instant, session, drawn, old, earlier, valid, answered⟩ := sound.stored other member
    exact ⟨bytes, instant, session, drawn, old, earlier, valid, List.mem_cons_of_mem _ answered⟩
  · intro number text instant member
    rcases List.mem_cons.mp member with impossible | past
    · cases impossible
    · exact sound.answered number text instant past
  · intro number text member
    rcases List.mem_cons.mp member with now | past
    · cases now
      cases cookie with
      | none => exact absurd passed (run_empty guarded)
      | some known =>
        obtain ⟨bytes, issuedAt, same, drawn, -, -, -, answered⟩ := sound.stored known (held known rfl)
        rw [opened, Option.map_some, Option.getD_some, same,
          run_issued guarded (tokenUrlsafe_ne drawn) fun c inside => (mem_tokenUrlsafe inside).1, provided] at passed
        cases passed
        exact ⟨known.number, issuedAt, rfl, .inl ⟨rfl, answered⟩⟩
    · obtain ⟨own, instant, same, since⟩ := sound.accepted number text past
      exact ⟨own, instant, same, .inr since⟩

theorem sound_of_reached (reached : world.Reached) : Sound world := by
  obtain ⟨clock, inside, run⟩ := reached
  induction run with
  | refl => exact ⟨inside, by simp, by simp, by simp, by simp⟩
  | tail _ step sound =>
    cases step with
    | tick later ordered inside => exact sound.tick ordered inside
    | issue cookie held bytes drawn fresh => exact sound.issue cookie held drawn fresh
    | accept check cookie held request guarded passed token provided =>
      exact sound.accept check cookie held guarded passed provided

end Invariant

/-- What the tokens of a world guard. -/
structure Guarded (world : World) : Prop where
  accepted : ∀ number token, .accepted number token ∈ world.history → ∃ own instant, number = some own ∧
    Since world.history (.answered own token instant) (.accepted number token)
  apart : ∀ first second token instant later, .answered first token instant ∈ world.history →
    .answered second token later ∈ world.history → first = second ∧ later ≤ instant + rotateMinutes * minute
  guards : ∀ known ∈ world.handed, ∃ token instant, .answered known.number token instant ∈ world.history ∧
    ∀ (check : Check) (request : Request), request.exempt = false →
      (check.run known.session request = .ok () ↔ check.provided request = .ok (some token)) ∧
      (request.csrfHeader = some token → check.run known.session request = .ok ())
  refuses : ∀ (check : Check) (request : Request), request.exempt = false → check.run .empty request ≠ .ok ()

/-- Whatever the browsers send, a token is accepted in the session only that it was answered to, two answers of one token
are at most two hours apart, and every session accepts the token that came with its cookie and nothing else. -/
theorem csrf_guarded {world : World} (reached : world.Reached) : Guarded world := by
  have sound := sound_of_reached reached
  refine ⟨sound.accepted, ?_, ?_, fun check request => run_empty⟩
  · intro first second token instant later one two
    obtain ⟨issuedAt, sealed_, valid, before, -⟩ := sound.answered first token instant one
    obtain ⟨issuedAt', sealed', valid', -, young⟩ := sound.answered second token later two
    have same := sound.single _ sealed_ _ sealed' rfl
    have issued : issuedAt = issuedAt' := by
      have texts := Json.text.inj (Option.some.inj (congrArg (fun known => known.session.csrfIssuedAt) same))
      have read := datetimeFromIsoformat_isoformat valid
      rw [texts, datetimeFromIsoformat_isoformat valid'] at read
      exact (RequestTime.aware.inj (Option.some.inj read)).symm
    exact ⟨congrArg Sealed.number same, by omega⟩
  · intro known member
    obtain ⟨bytes, issuedAt, same, drawn, -, -, -, answered⟩ := sound.stored known member
    refine ⟨tokenUrlsafe bytes, issuedAt, answered, ?_⟩
    intro check request guarded
    have passes := @run_issued check request (tokenUrlsafe bytes) issuedAt guarded (tokenUrlsafe_ne drawn)
      fun c inside => (mem_tokenUrlsafe inside).1
    rw [same]
    refine ⟨passes, ?_⟩
    intro echoed
    have header : headerToken request = some (tokenUrlsafe bytes) := by
      rw [headerToken, echoed, Option.getD_some, strip_tokenUrlsafe]
      exact if_neg (tokenUrlsafe_ne drawn)
    apply passes.mpr
    cases check with
    | portal => rw [Check.provided, header]; rfl
    | admin => rw [Check.provided, providedToken, header]; rfl

def sampleBytes : List UInt8 := List.replicate 32 7

/-- A session that has just been answered its token. -/
def sampleWorld : World := World.issue ⟨midnight 739833, [], 0, []⟩ none sampleBytes

def sampleRequest : Request := ⟨false, "POST", some (tokenUrlsafe sampleBytes), .unreadable⟩

theorem sample_csrf_guarded :
    Guarded { sampleWorld with history := .accepted (some 0) (tokenUrlsafe sampleBytes) :: sampleWorld.history } := by
  have header : headerToken sampleRequest = some (tokenUrlsafe sampleBytes) := by
    change filled (strip (tokenUrlsafe sampleBytes)) = _
    rw [strip_tokenUrlsafe]
    exact if_neg (tokenUrlsafe_ne rfl)
  have provided : Check.portal.provided sampleRequest = .ok (some (tokenUrlsafe sampleBytes)) := by
    rw [Check.provided, header]
    rfl
  let known : Sealed := ⟨0, issuedSession (tokenUrlsafe sampleBytes) (midnight 739833)⟩
  have held : sampleWorld.Holds (some known) := by
    intro other same
    cases same
    exact List.mem_cons_self
  have passed : Check.portal.run (opened (some known)) sampleRequest = .ok () :=
    (run_issued rfl (tokenUrlsafe_ne rfl) fun c inside => (mem_tokenUrlsafe inside).1).mpr provided
  have first : Step ⟨midnight 739833, [], 0, []⟩ sampleWorld := .issue none nofun sampleBytes rfl (by simp)
  have second := Step.accept .portal (some known) held sampleRequest rfl passed _ provided
  exact csrf_guarded ⟨midnight 739833, by decide, (Relation.ReflTransGen.single first).tail second⟩

end Dagmar.Csrf.Proofs
