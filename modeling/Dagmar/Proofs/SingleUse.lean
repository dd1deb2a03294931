import Dagmar.CmlNonces
import Dagmar.Proofs.Assertions

/-! An assertion is accepted once. A row is deleted only twenty seconds after it has
expired, and by then no request that carries its assertion can insert it any more. -/

namespace Dagmar.Cml.Proofs
open Library Library.Outcome

section Safety

/-- The issuer, who alone can sign, gives every assertion an identifier of its own. -/
def DistinctIdentifiers (verifier : WebVerifier) : Prop :=
  ∀ first second claims others, verifier.opened first = .ok claims → verifier.opened second = .ok others →
    jti claims = jti others → iat claims = iat others

/-- No assertion with the identifier passes verification in time to be inserted from now on. -/
def Spent (verifier : WebVerifier) (key : String) (clock : Int) : Prop :=
  ∀ token method path body since claims later, verifier.verify token method path body since = .ok claims →
    jti claims = key → clock ≤ later → ¬ later < since + 20

end Safety

section Invariant

def Signed (verifier : WebVerifier) (claims : Json) : Prop :=
  (∃ token, verifier.opened token = .ok claims) ∧ exp claims = iat claims + 10

/-- Rows of accepted assertions that have expired twenty seconds ago. -/
def Expired (gate : Gate) (old : List Nonce) : Prop :=
  ∀ row ∈ old, row.expiresAt + 20 ≤ gate.clock ∧ row ∈ gate.accepted.map nonceOf

def Sound (verifier : WebVerifier) (gate : Gate) : Entrance → Prop
  | .idle => True
  | .verified claims since => Signed verifier claims ∧ Timely since claims ∧ since ≤ gate.clock
  | .purged claims since old => Signed verifier claims ∧ Timely since claims ∧ since ≤ gate.clock ∧ Expired gate old
  | .inserted claims old => Signed verifier claims ∧ nonceOf claims ∉ gate.accepted.map nonceOf ∧ Expired gate old

structure Guarded (verifier : WebVerifier) (world : World Gate Entrance) : Prop where
  signed : ∀ claims ∈ world.state.accepted, Signed verifier claims
  kept : ∀ claims ∈ world.state.accepted, nonceOf claims ∈ world.state.nonces ∨ exp claims + 20 ≤ world.state.clock
  origin : ∀ row ∈ world.state.nonces, row ∈ world.state.accepted.map nonceOf
  once : (world.state.accepted.map nonceOf).Nodup
  sound : ∀ who, Sound verifier world.state (world.sessions who)
  alone : Exclusive Inserts (fun _ _ => False) world

end Invariant

section Steps
variable {boundary : CmlWebBoundary} {verifier : WebVerifier} {world : World Gate Entrance} {who : Nat}

theorem Expired.later {gate next : Gate} {old : List Nonce} (expired : Expired gate old) (ordered : gate.clock ≤ next.clock)
    (grown : gate.accepted ⊆ next.accepted) : Expired next old := by
  intro row member
  obtain ⟨passed, accepted⟩ := expired row member
  exact ⟨passed.trans ordered, List.map_subset _ grown accepted⟩

theorem Sound.later {gate next : Gate} {session : Entrance} (sound : Sound verifier gate session)
    (ordered : gate.clock ≤ next.clock) (grown : gate.accepted ⊆ next.accepted)
    (fresh : ∀ claims old, session = .inserted claims old → nonceOf claims ∉ gate.accepted.map nonceOf →
      nonceOf claims ∉ next.accepted.map nonceOf) : Sound verifier next session := by
  cases session with
  | idle => trivial
  | verified claims since =>
    obtain ⟨signed, timely, past⟩ := sound
    exact ⟨signed, timely, past.trans ordered⟩
  | purged claims since old =>
    obtain ⟨signed, timely, past, expired⟩ := sound
    exact ⟨signed, timely, past.trans ordered, expired.later ordered grown⟩
  | inserted claims old =>
    obtain ⟨signed, unseen, expired⟩ := sound
    exact ⟨signed, fresh claims old rfl unseen, expired.later ordered grown⟩

theorem Guarded.start (clock : Int) : Guarded verifier (World.quiet (Gate.start clock) .idle) := by
  refine ⟨by simp [World.quiet, Gate.start], by simp [World.quiet, Gate.start], ?_, ?_, fun _ => trivial, ?_⟩
  · intro row member
    cases member
  · exact List.nodup_nil
  · intro first second _ key inserting
    cases inserting

theorem Guarded.tick (guarded : Guarded verifier world) {later : Int} (ordered : world.state.clock ≤ later) :
    Guarded verifier (world.move who { world.state with clock := later } (world.sessions who)) := by
  refine ⟨guarded.signed, ?_, guarded.origin, guarded.once, ?_, ?_⟩
  · intro claims member
    exact (guarded.kept claims member).imp_right fun passed => passed.trans ordered
  · have lasting : ∀ other, Sound verifier { world.state with clock := later } (world.sessions other) :=
      fun other => (guarded.sound other).later ordered (List.Subset.refl _) fun _ _ _ unseen => unseen
    exact World.forall_move _ (lasting who) fun other _ => lasting other
  · exact guarded.alone.move (fun key inserting => .inl inserting) fun _ impossible => impossible.elim

/-- A step that leaves the gate as it is has only its own session to answer for. -/
theorem Guarded.turn (guarded : Guarded verifier world) {session : Entrance} (sound : Sound verifier world.state session)
    (inserting : ∀ key, Inserts session key → Available Inserts world who key) :
    Guarded verifier (world.move who world.state session) := by
  refine ⟨guarded.signed, guarded.kept, guarded.origin, guarded.once, ?_, ?_⟩
  · exact World.forall_move _ sound fun other _ => guarded.sound other
  · refine guarded.alone.move (fun key inserts => .inr ⟨inserting key inserts, ?_⟩) fun _ impossible => impossible.elim
    intro _ _ impossible
    exact impossible

/-- An assertion is old only once the clock is twenty seconds past its expiry. -/
theorem passed_of_isOld {claims : Json} {since clock : Int} {row : Nonce} (timely : Timely since claims)
    (past : since ≤ clock) (old : isOld claims row) : row.expiresAt + 20 ≤ clock := by
  have horizon : row.expiresAt < iat claims - 20 := old
  have skew := timely.skew
  omega

theorem Guarded.purge (guarded : Guarded verifier world) {claims : Json} {since : Int} {old : List Nonce}
    (verified : world.sessions who = .verified claims since)
    (matching : ∀ row ∈ old, row ∈ world.state.nonces ∧ isOld claims row) :
    Guarded verifier (world.move who world.state (.purged claims since old)) := by
  have sound := guarded.sound who
  rw [verified] at sound
  obtain ⟨signed, timely, past⟩ := sound
  refine guarded.turn ⟨signed, timely, past, ?_⟩ fun _ impossible => impossible.elim
  intro row member
  obtain ⟨stored, horizon⟩ := matching row member
  exact ⟨passed_of_isOld timely past horizon, guarded.origin row stored⟩

theorem Guarded.insert (guarded : Guarded verifier world) {claims : Json} {since : Int} {old : List Nonce}
    (purged : world.sessions who = .purged claims since old) (prompt : world.state.clock < since + 20)
    (absent : ∀ row ∈ world.state.nonces, row.jti = jti claims → row ∈ old)
    (alone : Available Inserts world who (jti claims)) :
    Guarded verifier (world.move who world.state (.inserted claims old)) := by
  have sound := guarded.sound who
  rw [purged] at sound
  obtain ⟨signed, timely, past, expired⟩ := sound
  refine guarded.turn ⟨signed, ?_, expired⟩ ?_
  · intro seen
    obtain ⟨earlier, accepted, same⟩ := List.mem_map.mp seen
    have alike : exp earlier = exp claims := congrArg Nonce.expiresAt same
    -- The row of an earlier acceptance is still there: its assertion has not been expired for so long.
    have unexpired := timely.unexpired
    rcases guarded.kept earlier accepted with stored | passed
    · rw [same] at stored
      have deleted := expired _ (absent _ stored rfl)
      have passed : exp claims + 20 ≤ world.state.clock := deleted.1
      omega
    · omega
  · rintro key rfl
    exact alone

theorem Guarded.commit (guarded : Guarded verifier world) {claims : Json} {old : List Nonce} {nonces : Nonces}
    (inserted : world.sessions who = .inserted claims old)
    (stored : (world.state.nonces.deleteWhere (· ∈ old)).insertAll [nonceOf claims] = some nonces) :
    Guarded verifier
      (world.move who { world.state with nonces := nonces, accepted := claims :: world.state.accepted } .idle) := by
  have sound := guarded.sound who
  rw [inserted] at sound
  obtain ⟨signed, unseen, expired⟩ := sound
  have rows : ∀ row, row ∈ nonces ↔ (row ∈ world.state.nonces ∧ row ∉ old) ∨ row = nonceOf claims := by
    intro row
    rw [Table.mem_insertAll stored, Table.mem_deleteWhere, List.mem_singleton]
  refine ⟨?_, ?_, ?_, ?_, ?_, ?_⟩
  · intro other member
    rcases List.mem_cons.mp member with rfl | earlier
    · exact signed
    · exact guarded.signed other earlier
  · intro other member
    rcases List.mem_cons.mp member with rfl | earlier
    · exact .inl ((rows _).mpr (.inr rfl))
    · rcases guarded.kept other earlier with kept | passed
      · by_cases deleted : nonceOf other ∈ old
        · exact .inr (expired _ deleted).1
        · exact .inl ((rows _).mpr (.inl ⟨kept, deleted⟩))
      · exact .inr passed
  · intro row member
    rw [World.move_state, List.map_cons, List.mem_cons]
    rcases (rows row).mp member with ⟨before, -⟩ | own
    · exact .inr (guarded.origin row before)
    · exact .inl own
  · rw [World.move_state, List.map_cons]
    exact List.nodup_cons.mpr ⟨unseen, guarded.once⟩
  · refine World.forall_move _ trivial fun other different => ?_
    refine (guarded.sound other).later le_rfl (List.subset_cons_self _ _) fun others rows inserting fresh => ?_
    rw [World.move_state, List.map_cons, List.mem_cons, not_or]
    refine ⟨fun same => ?_, fresh⟩
    have mine : Inserts (world.sessions who) (jti claims) := by
      rw [inserted]
      exact rfl
    refine (guarded.alone who other different.symm (jti claims) mine).1 ?_
    rw [inserting]
    exact congrArg Nonce.jti same
  · exact guarded.alone.move (fun _ impossible => impossible.elim) fun _ impossible => impossible.elim

theorem Guarded.step (guarded : Guarded verifier world) {gate : Gate} {session : Entrance}
    (allowed : Enters boundary verifier world who gate session) : Guarded verifier (world.move who gate session) := by
  cases allowed with
  | tick later ordered => exact guarded.tick ordered
  | verify idle admitted =>
    have verified := verify_ok (checkScope_ok admitted).verified
    exact guarded.turn ⟨⟨⟨_, verified.opened⟩, verified.timely.lifetime⟩, verified.timely, le_rfl⟩
      fun _ impossible => impossible.elim
  | purge old verified matching free => exact guarded.purge verified matching
  | insert purged prompt absent undeleted alone => exact guarded.insert purged prompt absent alone
  | commit inserted stored => exact guarded.commit inserted stored
  | abandon => exact guarded.turn trivial fun _ impossible => impossible.elim

theorem Guarded.reached {clock : Int}
    (reached : Reaches (Enters boundary verifier) (World.quiet (Gate.start clock) .idle) world) : Guarded verifier world :=
  reached.keeps _ (.start clock) fun _ _ _ _ guarded allowed => guarded.step allowed

end Steps

section Main
variable {boundary : CmlWebBoundary} {verifier : WebVerifier} {world : World Gate Entrance}

theorem nonceOf_of_jti (distinct : DistinctIdentifiers verifier) {first second : Json} (left : Signed verifier first)
    (right : Signed verifier second) (same : jti first = jti second) : nonceOf first = nonceOf second := by
  obtain ⟨⟨_, opened⟩, lifetime⟩ := left
  obtain ⟨⟨_, openedToo⟩, lifetimeToo⟩ := right
  have issued := distinct _ _ _ _ opened openedToo same
  simp only [nonceOf, Nonce.mk.injEq]
  refine ⟨same, ?_⟩
  omega

/-- What has expired twenty seconds ago is spent. -/
theorem spent_of_expired (distinct : DistinctIdentifiers verifier) (guarded : Guarded verifier world) {old : List Nonce}
    (expired : Expired world.state old) {row : Nonce} (member : row ∈ old) : Spent verifier row.jti world.state.clock := by
  intro token method path body since claims later verified same after prompt
  have checked := verify_ok verified
  obtain ⟨passed, seen⟩ := expired row member
  obtain ⟨earlier, accepted, rfl⟩ := List.mem_map.mp seen
  have alike := nonceOf_of_jti distinct (guarded.signed earlier accepted)
    ⟨⟨token, checked.opened⟩, checked.timely.lifetime⟩ same.symm
  have expiry : exp earlier = exp claims := congrArg Nonce.expiresAt alike
  have unexpired := checked.timely.unexpired
  have long : exp earlier + 20 ≤ world.state.clock := passed
  omega

/-- A request that is handled while nothing else runs takes the four steps one after another. -/
theorem consumed_reaches {first : World Gate Entrance} (reached : Reaches (Enters boundary verifier) first world) (who : Nat)
    (quiet : ∀ other, world.sessions other = .idle) {scope : Scope} {claims : Json} {body : Bytes} {rawPath query : List Char}
    {nonces : Nonces} (admitted : boundary.checkScope verifier world.state.clock scope = .ok (claims, body, rawPath, query))
    (consumed : consume world.state.nonces claims = some nonces) :
    Reaches (Enters boundary verifier) first
      (world.move who { world.state with nonces := nonces, accepted := claims :: world.state.accepted } .idle) := by
  let old := world.state.nonces.select (isOld claims)
  have undeleted : ∀ key, Available Deletes world who key := by
    intro key other _ deletes
    rw [quiet other] at deletes
    exact deletes
  have alone : ∀ key, Available Inserts world who key := by
    intro key other _ inserts
    rw [quiet other] at inserts
    exact inserts
  have kept : world.state.nonces.deleteWhere (· ∈ old) = world.state.nonces.deleteWhere (isOld claims) := by
    refine Table.ext (List.filter_congr fun row member => ?_)
    simp [old, Table.mem_select, Table.mem_def.mpr member]
  have matching : ∀ row ∈ old, row ∈ world.state.nonces ∧ isOld claims row := fun row member => Table.mem_select.mp member
  have absent : ∀ row ∈ world.state.nonces, row.jti = jti claims → row ∈ old := by
    intro row member same
    by_contra young
    have left : row ∈ world.state.nonces.deleteWhere (isOld claims) :=
      Table.mem_deleteWhere.mpr ⟨member, fun horizon => young (Table.mem_select.mpr ⟨member, horizon⟩)⟩
    exact Table.fresh_of_insertAll consumed left (List.mem_singleton_self _) same
  have stored : (world.state.nonces.deleteWhere (· ∈ old)).insertAll [nonceOf claims] = some nonces := by
    rw [kept]
    exact consumed
  have prompt : world.state.clock < world.state.clock + 20 := by omega
  have verified := reached.step who (.verify (quiet who) admitted)
  have purged := verified.again (.purge old (World.move_self ..) matching fun row _ => (undeleted row.jti).move _ _)
  have inserted := purged.again (.insert (World.move_self ..) prompt absent ((undeleted _).move _ _) ((alone _).move _ _))
  exact inserted.again (.commit (World.move_self ..) stored)

/-- The first request is accepted when it is admitted. -/
theorem first_accepted {clock : Int} {scope : Scope} {claims : Json} {body : Bytes} {rawPath query : List Char}
    (admitted : boundary.checkScope verifier clock scope = .ok (claims, body, rawPath, query)) :
    ∃ world, Reaches (Enters boundary verifier) (World.quiet (Gate.start clock) .idle) world ∧
      world.state.accepted = [claims] := by
  obtain ⟨nonces, consumed⟩ : ∃ nonces, consume ∅ claims = some nonces :=
    Table.insertAll_isSome (by simp) fun row member => by cases member
  exact ⟨_, consumed_reaches .refl 0 (fun _ => rfl) admitted consumed, rfl⟩

theorem assertions_used_once (distinct : DistinctIdentifiers verifier) {clock : Int}
    (reached : Reaches (Enters boundary verifier) (World.quiet (Gate.start clock) .idle) world) :
    (world.state.accepted.map jti).Nodup ∧
      ∀ who row, Deletes (world.sessions who) row → Spent verifier row world.state.clock := by
  have guarded := Guarded.reached reached
  refine ⟨?_, ?_⟩
  · refine (List.nodup_map_iff_inj_on guarded.once.of_map).mpr ?_
    intro first left second right same
    have alike := nonceOf_of_jti distinct (guarded.signed first left) (guarded.signed second right) same
    exact List.inj_on_of_nodup_map guarded.once left right alike
  · intro who key deletes
    have sound := guarded.sound who
    cases session : world.sessions who with
    | idle | verified =>
      rw [session] at deletes
      cases deletes
    | purged claims since old =>
      rw [session] at deletes sound
      obtain ⟨row, member, rfl⟩ := deletes
      exact spent_of_expired distinct guarded sound.2.2.2 member
    | inserted claims old =>
      rw [session] at deletes sound
      obtain ⟨row, member, rfl⟩ := deletes
      exact spent_of_expired distinct guarded sound.2.2 member

end Main

section Samples

def ownerClaims : Json :=
  .object [("iss", .text "https://kajovocml.hcasc.cz"), ("aud", .text "dochazka"), ("sub", .text "KRMAR78"),
    ("role", .text "admin"), ("nativeId", .null), ("sid", .text "00000000-0000-4000-8000-000000000000"),
    ("epoch", .number 1), ("iat", .number 1000), ("exp", .number 1010),
    ("jti", .text "00000000-0000-4000-8000-000000000001"), ("method", .text "GET"),
    ("path", .text "/cml-web/identity"),
    ("bodySha256", .text "e3b0c44298fc1c149afbf4c8996fb92427ae41e4649b934ca495991b7852b855"),
    ("csrf", .text "aaaaaaaaaaaaaaaaaaaaaaaaaaaaaaaaaaaaaaaaaaa")]

def ownerPayload : List Char :=
  ["eyJpc3MiOiJodHRwczovL2tham9", "2b2NtbC5oY2FzYy5jeiIsImF1ZC", "I6ImRvY2hhemthIiwic3ViIjoiS",
    "1JNQVI3OCIsInJvbGUiOiJhZG1p", "biIsIm5hdGl2ZUlkIjpudWxsLCJ", "zaWQiOiIwMDAwMDAwMC0wMDAwLT",
    "QwMDAtODAwMC0wMDAwMDAwMDAwM", "DAiLCJlcG9jaCI6MSwiaWF0Ijox", "MDAwLCJleHAiOjEwMTAsImp0aSI",
    "6IjAwMDAwMDAwLTAwMDAtNDAwMC", "04MDAwLTAwMDAwMDAwMDAwMSIsI", "m1ldGhvZCI6IkdFVCIsInBhdGgi",
    "OiIvY21sLXdlYi9pZGVudGl0eSI", "sImJvZHlTaGEyNTYiOiJlM2IwYz", "Q0Mjk4ZmMxYzE0OWFmYmY0Yzg5O",
    "TZmYjkyNDI3YWU0MWU0NjQ5Yjkz", "NGNhNDk1OTkxYjc4NTJiODU1Iiw", "iY3NyZiI6ImFhYWFhYWFhYWFhYW",
    "FhYWFhYWFhYWFhYWFhYWFhYWFhY", "WFhYWFhYWFhYWEifQ"].flatMap String.toList

def ownerSignature : List Char :=
  ["off9aF1oGaep8Z860jKno-z9Lp7Z-", "5XwT90flrQo6FYZ3C7taPYRq--3if", "h-O-b4p2IWp7bEroGkQBYZNNDrDA"].flatMap String.toList

def ownerKey : WebVerifier := keyOf ownerPayload ownerSignature ownerClaims

def ownerScope : Scope := scopeOf "GET" "/cml-web/identity".toList "/cml-web/identity" ownerPayload ownerSignature

theorem ownerKey_distinct : DistinctIdentifiers ownerKey := by
  intro first second claims others opened openedToo same
  have different : jti headerClaims ≠ jti ownerClaims := by decide +kernel
  rcases keyOf_opened opened with rfl | rfl <;> rcases keyOf_opened openedToo with rfl | rfl
  · rfl
  · exact absurd same different
  · exact absurd same.symm different
  · rfl

theorem owner_accepted_once :
    ∃ world, Reaches (Enters (boundaryOf ownerKey) ownerKey) (World.quiet (Gate.start 1003) .idle) world ∧
      world.state.accepted.map jti = ["00000000-0000-4000-8000-000000000001"] ∧ (world.state.accepted.map jti).Nodup ∧
      ∀ who row, Deletes (world.sessions who) row → Spent ownerKey row world.state.clock := by
  have read : ((boundaryOf ownerKey).checkScope ownerKey 1003 ownerScope).toOption.map (fun admitted => jti admitted.1) =
      some "00000000-0000-4000-8000-000000000001" := by decide +kernel
  obtain ⟨⟨claims, body, rawPath, query⟩, admitted, named⟩ := Option.map_eq_some_iff.mp read
  obtain ⟨world, reached, accepted⟩ := first_accepted (toOption_eq_some.mp admitted)
  refine ⟨world, reached, ?_, assertions_used_once ownerKey_distinct reached⟩
  rw [accepted]
  exact congrArg (fun key => [key]) named

end Samples

end Dagmar.Cml.Proofs
