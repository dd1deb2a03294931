import Dagmar.Credentials
import Dagmar.Library.History

/-! Which credentials a revocation ends. A password change ends every browser
session, for their tags are made from the hash it replaces, and every revocation
clears the token of the instance; but a block or a deactivation that leaves the
password as it is leaves the sessions made from it. -/

namespace Dagmar.Credentials.Proofs
open Library Library.Outcome

section History

def Entry.Revokes : Entry → Int → Prop
  | .issued _, _ => False
  | .blocked id _, userId => id = userId
  | .deactivated id, userId => id = userId
  | .passwordChanged id, userId => id = userId

/-- The password hash that the latest block of a user found. -/
def lastBlock (history : List Entry) (userId : Int) : Option (Option PasswordHash) :=
  history.findSome? fun entry => match entry with
    | .blocked id hash => if id = userId then some hash else none
    | _ => none

theorem lastBlock_append {entries history : List Entry} {userId : Int}
    (foreign : ∀ entry ∈ entries, ¬ Entry.Revokes entry userId) :
    lastBlock (entries ++ history) userId = lastBlock history userId := by
  induction entries with
  | nil => rfl
  | cons entry entries ih =>
    have rest := ih fun other member => foreign other (List.mem_cons_of_mem _ member)
    have mine := foreign entry List.mem_cons_self
    rw [← rest]
    cases entry with
    | blocked id hash =>
      have different : id ≠ userId := mine
      simp [lastBlock, different]
    | _ => rfl

end History

section Changes
variable {db next : Db} {now : Int} {user : PortalUser}

/-- The hash of the password stays, or a hash with a new salt takes its place. -/
inductive HashKept (db next : Db) (user revised : PortalUser) : Prop where
  | same (hash : revised.passwordHash = user.passwordHash) (salt : next.nextSalt = db.nextSalt)
  | fresh {password : String} (hash : revised.passwordHash = some ⟨db.nextSalt, password, false⟩)
      (salt : next.nextSalt = db.nextSalt + 1)

/-- One user is changed and no token is issued. -/
structure Revision (db next : Db) (user revised : PortalUser) : Prop where
  stored : user ∈ db.users
  id : revised.id = user.id
  instanceId : revised.instanceId = user.instanceId
  users : ∀ row, row ∈ next.users ↔ row = revised ∨ row ∈ db.users ∧ row.id ≠ user.id
  hash : HashKept db next user revised
  tokens : ∀ row ∈ next.instances, row.tokenHash ≠ none → row ∈ db.instances
  secret : next.nextSecret = db.nextSecret

/-- The token of the user's instance is gone. -/
def Cleared (next : Db) (user : PortalUser) : Prop :=
  ∀ row ∈ next.instances, row.tokenHash ≠ none → user.instanceId ≠ some row.id

theorem revokeInstanceCredential_frame (db : Db) (user : PortalUser) :
    revokeInstanceCredential db user = { db with instances := (revokeInstanceCredential db user).instances } := by
  unfold revokeInstanceCredential
  split <;> rfl

theorem revokeInstanceCredential_tokens (db : Db) (user : PortalUser) :
    (∀ row ∈ (revokeInstanceCredential db user).instances, row.tokenHash ≠ none → row ∈ db.instances) ∧
      Cleared (revokeInstanceCredential db user) user := by
  unfold revokeInstanceCredential
  split
  next missing =>
    refine ⟨fun row member _ => member, ?_⟩
    intro row member _ same
    simp only [Db.instanceOf, same, Option.bind_some] at missing
    exact Table.get_eq_none_iff.mp missing row member rfl
  next instance' found =>
    refine ⟨?_, ?_⟩
    · intro row member token
      rcases Table.mem_put.mp member with rfl | kept
      · exact absurd rfl token
      · exact kept.1
    · intro row member token same
      rcases Table.mem_put.mp member with rfl | kept
      · exact absurd rfl token
      · simp only [Db.instanceOf, same, Option.bind_some] at found
        exact kept.2 (Table.get_eq_some_iff.mp found).2.symm

theorem putUser_revision {revised : PortalUser} (stored : user ∈ db.users) (id : revised.id = user.id)
    (instanceId : revised.instanceId = user.instanceId) (hash : revised.passwordHash = user.passwordHash) :
    Revision db { db with users := db.users.put revised } user revised := by
  refine ⟨stored, id, instanceId, ?_, .same hash rfl, fun row member _ => member, rfl⟩
  intro row
  rw [Table.mem_put, id]

theorem revoke_revision (stored : user ∈ db.users) (now : Int) :
    Revision db (revokeInstanceCredential (revokePasswordResetTokens db now user.id) user) user user ∧
      Cleared (revokeInstanceCredential (revokePasswordResetTokens db now user.id) user) user := by
  obtain ⟨tokens, cleared⟩ := revokeInstanceCredential_tokens (revokePasswordResetTokens db now user.id) user
  have frame := revokeInstanceCredential_frame (revokePasswordResetTokens db now user.id) user
  refine ⟨⟨stored, rfl, rfl, ?_, .same rfl (by rw [frame]; rfl), tokens, by rw [frame]; rfl⟩, cleared⟩
  intro row
  have users : (revokeInstanceCredential (revokePasswordResetTokens db now user.id) user).users = db.users := by
    rw [frame]
    rfl
  rw [users]
  constructor
  · intro member
    by_cases same : row.id = user.id
    · exact .inl (db.users.key_inj member stored same)
    · exact .inr ⟨member, same⟩
  · rintro (rfl | kept)
    · exact stored
    · exact kept.1

theorem Revision.trans {middle : Db} {revised last : PortalUser} (first : Revision db middle user revised)
    (hash : revised.passwordHash = user.passwordHash) (salt : middle.nextSalt = db.nextSalt)
    (second : Revision middle next revised last) : Revision db next user last := by
  refine ⟨first.stored, second.id.trans first.id, second.instanceId.trans first.instanceId, ?_, ?_, ?_,
    second.secret.trans first.secret⟩
  · intro row
    rw [second.users, first.users, first.id]
    constructor
    · rintro (rfl | ⟨rfl | kept, different⟩)
      · exact .inl rfl
      · exact absurd first.id different
      · exact .inr kept
    · rintro (rfl | kept)
      · exact .inl rfl
      · exact .inr ⟨.inr kept, kept.2⟩
  · cases second.hash with
    | same kept unsalted => exact .same (kept.trans hash) (unsalted.trans salt)
    | fresh made salted =>
      rw [salt] at made salted
      exact .fresh made salted
  · intro row member token
    exact first.tokens row (second.tokens row member token) token

theorem changePassword_revision {password : String} (stored : user ∈ db.users)
    (done : changePortalPassword db now user password = .ok next) : ∃ hash : PasswordHash, hash.salt = db.nextSalt ∧
      Revision db next user { user with passwordHash := some hash } ∧ Cleared next user := by
  simp only [changePortalPassword, hashPassword, bind_eq_ok, raiseIf_eq_ok, pure_eq_ok] at done
  obtain ⟨_, -, _, -, rfl⟩ := done
  let hash : PasswordHash := ⟨db.nextSalt, strip password, false⟩
  let revised : PortalUser := { user with passwordHash := some hash }
  let salted : Db := { db with nextSalt := db.nextSalt + 1, users := db.users.put revised }
  have member : revised ∈ salted.users := Table.mem_put.mpr (.inl rfl)
  obtain ⟨revision, cleared⟩ := revoke_revision member now
  have users (row : PortalUser) : row ∈ salted.users ↔ row = revised ∨ row ∈ db.users ∧ row.id ≠ user.id := Table.mem_put
  refine ⟨hash, rfl, ⟨stored, rfl, rfl, ?_, ?_, revision.tokens, revision.secret⟩, cleared⟩
  · intro row
    rw [revision.users, users]
    constructor
    · rintro (rfl | ⟨either, -⟩)
      · exact .inl rfl
      · exact either
    · rintro (rfl | kept)
      · exact .inl rfl
      · exact .inr ⟨.inr kept, kept.2⟩
  · cases revision.hash with
    | same _ salt => exact .fresh rfl salt
    | fresh made _ => exact absurd (congrArg (Option.map PasswordHash.salt) made) (by simp [revised, hash, salted])

theorem applyPassword_revision {password : String} (stored : user ∈ db.users)
    (done : applyPassword db now user (some password) = .ok next) : ∃ hash : PasswordHash, hash.salt = db.nextSalt ∧
      Revision db next user { user with passwordHash := some hash } ∧ Cleared next user := by
  simp only [applyPassword] at done
  split at done
  · cases done
  split at done
  next changed =>
    cases done
    exact changePassword_revision stored changed
  · cases done

end Changes

section Invariant

/-- What holds of every credential that has been issued: it is older than the next one to be
made; a session that fits the password of its user belongs to an active user, and one that a
revocation should have ended belongs to a user who is still blocked; and a token that an
instance accepts has not been revoked. -/
structure Sound (server : Server) : Prop where
  salts : ∀ user ∈ server.db.users, ∀ hash ∈ user.passwordHash, hash.salt < server.db.nextSalt
  tags : ∀ session, .issued (.cookie session) ∈ server.history →
    session.credentialTag.salt < server.db.nextSalt ∧ session.jti < server.db.nextSecret
  tokens : ∀ token, .issued (.bearer token) ∈ server.history → token < server.db.nextSecret
  sessions : ∀ user ∈ server.db.users, ∀ session, .issued (.cookie session) ∈ server.history →
    session.userId = user.id → user.passwordHash = some session.credentialTag → user.isActive ∧
      ∀ entry, Entry.Revokes entry user.id → Since server.history (.issued (.cookie session)) entry →
        user.isBlocked ∧ lastBlock server.history user.id = some user.passwordHash
  bearers : ∀ row ∈ server.db.instances, ∀ token ∈ row.tokenHash, ∀ user ∈ server.db.users,
    user.instanceId = some row.id → user.isActive ∧
      ∀ entry, Entry.Revokes entry user.id → ¬ Since server.history (.issued (.bearer token)) entry

variable {server : Server} {next : Db} {user revised : PortalUser} {entries : List Entry}

theorem Sound.revise (sound : Sound server) (revision : Revision server.db next user revised)
    (mine : ∀ entry ∈ entries, Entry.Revokes entry user.id) (cleared : entries ≠ [] → Cleared next user)
    (stays : entries = [] → user.isActive → revised.isActive)
    (sessions : revised.passwordHash = user.passwordHash → ∀ session, .issued (.cookie session) ∈ server.history →
      session.userId = user.id → user.passwordHash = some session.credentialTag → revised.isActive ∧
        ∀ entry, Entry.Revokes entry user.id → Since (entries ++ server.history) (.issued (.cookie session)) entry →
          revised.isBlocked ∧ lastBlock (entries ++ server.history) user.id = some revised.passwordHash) :
    Sound ⟨next, entries ++ server.history⟩ := by
  have old {credential : Credential} (member : .issued credential ∈ entries ++ server.history) :
      .issued credential ∈ server.history := by
    rcases List.mem_append.mp member with new | kept
    · exact absurd (mine _ new) id
    · exact kept
  have grows : server.db.nextSalt ≤ next.nextSalt := by
    cases revision.hash with
    | same _ salt => exact le_of_eq salt.symm
    | fresh _ salt => omega
  have foreign {other : PortalUser} (different : other.id ≠ user.id) {entry : Entry} (revokes : Entry.Revokes entry other.id) :
      entry ∉ entries := by
    intro member
    have owner := mine entry member
    cases entry with
    | issued credential => exact owner
    | blocked id hash => exact different (revokes.symm.trans owner)
    | deactivated id => exact different (revokes.symm.trans owner)
    | passwordChanged id => exact different (revokes.symm.trans owner)
  refine ⟨?_, ?_, ?_, ?_, ?_⟩
  · intro row member hash found
    rcases (revision.users row).mp member with rfl | kept
    · cases revision.hash with
      | same kept salt => exact lt_of_lt_of_le (sound.salts user revision.stored hash (kept ▸ found)) grows
      | fresh made salt =>
        cases made.symm.trans found
        exact lt_of_lt_of_eq (Nat.lt_succ_self _) salt.symm
    · exact lt_of_lt_of_le (sound.salts row kept.1 hash found) grows
  · intro session member
    obtain ⟨tag, jti⟩ := sound.tags session (old member)
    exact ⟨lt_of_lt_of_le tag grows, lt_of_lt_of_eq jti revision.secret.symm⟩
  · intro token member
    exact lt_of_lt_of_eq (sound.tokens token (old member)) revision.secret.symm
  · intro row member session issued owner fits
    rcases (revision.users row).mp member with rfl | ⟨kept, different⟩
    · cases revision.hash with
      | same hash salt =>
        rw [revision.id] at owner ⊢
        exact sessions hash session (old issued) owner (hash ▸ fits)
      | fresh made salt =>
        -- No session is made from a hash that is not made yet.
        have tag := (sound.tags session (old issued)).1
        rw [← Option.some.inj (made.symm.trans fits)] at tag
        exact absurd tag (lt_irrefl _)
    · obtain ⟨active, revoked⟩ := sound.sessions row kept session (old issued) owner fits
      refine ⟨active, ?_⟩
      intro entry revokes since
      rw [lastBlock_append]
      · rcases since.of_append with new | before
        · exact absurd new (foreign different revokes)
        · exact revoked entry revokes before
      · exact fun entry member revokes => foreign different revokes member
  · intro row member token held other present mapped
    have accepted : row.tokenHash ≠ none := by
      rw [held]
      exact Option.some_ne_none token
    have before := revision.tokens row member accepted
    rcases (revision.users other).mp present with rfl | ⟨kept, different⟩
    · rw [revision.instanceId] at mapped
      have quiet : entries = [] := by
        by_contra some
        exact cleared some row member accepted mapped
      obtain ⟨active, unrevoked⟩ := sound.bearers row before token held user revision.stored mapped
      refine ⟨stays quiet active, ?_⟩
      rw [quiet, revision.id]
      exact unrevoked
    · obtain ⟨active, unrevoked⟩ := sound.bearers row before token held other kept mapped
      refine ⟨active, ?_⟩
      intro entry revokes since
      rcases since.of_append with new | before
      · exact foreign different revokes new
      · exact unrevoked entry revokes before

theorem since_of_issued {history : List Entry} {credential : Credential} {first entry : Entry} {userId : Int}
    (revokes : Entry.Revokes entry userId) (since : Since (.issued credential :: history) first entry) :
    Since history first entry := by
  rcases since with ⟨rfl, -⟩ | later
  · exact absurd revokes id
  · exact later

/-- A session is issued for the current password of an active user. -/
theorem Sound.signIn (sound : Sound server) (now : Int) {hash : PasswordHash} (stored : user ∈ server.db.users)
    (active : user.isActive) (current : user.passwordHash = some hash) :
    Sound ⟨{ server.db with nextSecret := server.db.nextSecret + 1 },
      .issued (.cookie ⟨user.id, hash, now, server.db.nextSecret⟩) :: server.history⟩ := by
  refine ⟨sound.salts, ?_, ?_, ?_, ?_⟩
  · intro session member
    rcases List.mem_cons.mp member with same | old
    · cases same
      exact ⟨sound.salts user stored hash current, Nat.lt_succ_self _⟩
    · exact ⟨(sound.tags session old).1, Nat.lt_succ_of_lt (sound.tags session old).2⟩
  · intro token member
    rcases List.mem_cons.mp member with same | old
    · cases same
    · exact Nat.lt_succ_of_lt (sound.tokens token old)
  · intro row present session member owner fits
    by_cases old : .issued (.cookie session) ∈ server.history
    · obtain ⟨active, revoked⟩ := sound.sessions row present session old owner fits
      exact ⟨active, fun entry revokes since => revoked entry revokes (since_of_issued revokes since)⟩
    · rcases List.mem_cons.mp member with same | again
      · cases same
        rw [server.db.users.key_inj present stored owner.symm]
        refine ⟨active, ?_⟩
        intro entry revokes since
        exact absurd (since_of_issued revokes since).mem old
      · exact absurd again old
  · intro row member token held other present mapped
    obtain ⟨active, unrevoked⟩ := sound.bearers row member token held other present mapped
    exact ⟨active, fun entry revokes since => unrevoked entry revokes (since_of_issued revokes since)⟩

/-- A token is issued to an instance whose users are active. -/
theorem Sound.claim (sound : Sound server) {row : Instance}
    (active : ∀ user ∈ server.db.users, user.instanceId = some row.id → user.isActive) :
    Sound ⟨{ server.db with
        instances := server.db.instances.put { row with tokenHash := some server.db.nextSecret }
        nextSecret := server.db.nextSecret + 1 },
      .issued (.bearer server.db.nextSecret) :: server.history⟩ := by
  have unissued : .issued (.bearer server.db.nextSecret) ∉ server.history :=
    fun member => absurd (sound.tokens _ member) (lt_irrefl _)
  refine ⟨sound.salts, ?_, ?_, ?_, ?_⟩
  · intro session member
    rcases List.mem_cons.mp member with same | old
    · cases same
    · exact ⟨(sound.tags session old).1, Nat.lt_succ_of_lt (sound.tags session old).2⟩
  · intro token member
    rcases List.mem_cons.mp member with same | old
    · cases same
      exact Nat.lt_succ_self _
    · exact Nat.lt_succ_of_lt (sound.tokens token old)
  · intro user present session member owner fits
    rcases List.mem_cons.mp member with same | old
    · cases same
    · obtain ⟨active, revoked⟩ := sound.sessions user present session old owner fits
      exact ⟨active, fun entry revokes since => revoked entry revokes (since_of_issued revokes since)⟩
  · intro other member token held user present mapped
    rcases Table.mem_put.mp member with rfl | kept
    · obtain rfl := Option.some.inj held
      refine ⟨active user present mapped, ?_⟩
      intro entry revokes since
      exact unissued (since_of_issued revokes since).mem
    · obtain ⟨active, unrevoked⟩ := sound.bearers other kept.1 token held user present mapped
      exact ⟨active, fun entry revokes since => unrevoked entry revokes (since_of_issued revokes since)⟩

end Invariant

section Requests
variable {db next : Db} {now : Int} {entries : List Entry}

/-- A login commits nothing, a new hash of the same password, or a session for the current hash of an active user. -/
inductive LoginOutcome (db : Db) (now : Int) : Db × Except ApiError PortalSession → Prop where
  | refused {error : ApiError} : LoginOutcome db now (db, .error error)
  | rehashed {user : PortalUser} {hash : PasswordHash} {middle : Db} {error : ApiError}
      (revision : Revision db middle user { user with passwordHash := some hash }) :
      LoginOutcome db now (middle, .error error)
  | signedIn {user : PortalUser} {hash : PasswordHash} {middle : Db} (active : user.isActive)
      (revision : Revision db middle user { user with passwordHash := some hash }) :
      LoginOutcome db now ({ middle with nextSecret := middle.nextSecret + 1 }, .ok ⟨user.id, hash, now, middle.nextSecret⟩)

theorem portalLogin_outcome (db : Db) (now : Int) (email password : String) (lockedOut hasEmployment : Bool) :
    LoginOutcome db now (portalLogin db now email password lockedOut hasEmployment) := by
  unfold portalLogin
  split
  · exact .refused
  split
  · exact .refused
  next user found =>
    have stored : user ∈ db.users := List.mem_of_find?_eq_some found
    split
    · exact .refused
    next hash held =>
      split
      · exact .refused
      next right =>
        have active : user.isActive := by
          by_contra inactive
          exact right (.inl inactive)
        dsimp only
        generalize rehash : (if hash.outdated then hashPassword db password else (db, hash)) = made
        have revision : Revision db { made.1 with users := made.1.users.put { user with passwordHash := some made.2 } } user
            { user with passwordHash := some made.2 } := by
          split at rehash
          · subst rehash
            refine ⟨stored, rfl, rfl, fun row => Table.mem_put, .fresh rfl rfl, fun row member _ => member, rfl⟩
          · subst rehash
            exact putUser_revision stored rfl rfl held.symm
        split
        · exact .rehashed revision
        split
        · exact .refused
        · exact .signedIn active revision

/-- The condition on a request under which no session outlives a revocation: a user who has a
password is deactivated only with a new one, a token is claimed only for active users, and a
user is unblocked only when the password is not the one that the last block found. -/
def StepMeets (server : Server) : Request → Prop
  | .updateUser userId (some false) none => ∀ user ∈ server.db.users.get userId, user.passwordHash = none
  | .claimToken instanceId => ∀ user ∈ server.db.users, user.instanceId = some instanceId → user.isActive
  | .blockUser userId false => ∀ user ∈ server.db.users.get userId, user.passwordHash ≠ none →
    lastBlock server.history userId ≠ some user.passwordHash
  | _ => True

variable {server : Server}

/-- A password that is set ends every credential of its user. -/
theorem Sound.newPassword (sound : Sound server) {user : PortalUser} {hash : PasswordHash} {isActive : Bool}
    (salt : hash.salt = server.db.nextSalt)
    (revision : Revision server.db next user { user with isActive := isActive, passwordHash := some hash })
    (cleared : Cleared next user) (some : entries ≠ []) (mine : ∀ entry ∈ entries, Entry.Revokes entry user.id) :
    Sound ⟨next, entries ++ server.history⟩ := by
  refine sound.revise revision mine (fun _ => cleared) (fun none => absurd none some) ?_
  intro same
  have older := sound.salts user revision.stored hash same.symm
  exact absurd older (by omega)

theorem Sound.login (sound : Sound server) {email password : String} {lockedOut hasEmployment : Bool}
    (done : Request.commit server.db now (.login email password lockedOut hasEmployment) = some (next, entries)) :
    Sound ⟨next, entries ++ server.history⟩ := by
  have outcome := portalLogin_outcome server.db now email password lockedOut hasEmployment
  have kept {user : PortalUser} {hash : PasswordHash} {middle : Db}
      (revision : Revision server.db middle user { user with passwordHash := some hash }) :
      Sound ⟨middle, server.history⟩ := by
    suffices Sound ⟨middle, [] ++ server.history⟩ from this
    refine sound.revise revision (fun _ member => absurd member List.not_mem_nil) (fun some => absurd rfl some)
      (fun _ active => active) ?_
    intro same session issued owner fits
    rw [same]
    exact sound.sessions user revision.stored session issued owner fits
  dsimp only [Request.commit] at done
  generalize portalLogin server.db now email password lockedOut hasEmployment = result at outcome done
  cases outcome with
  | refused =>
    obtain ⟨rfl, rfl⟩ := Prod.mk.inj (Option.some.inj done)
    exact sound
  | rehashed revision =>
    obtain ⟨rfl, rfl⟩ := Prod.mk.inj (Option.some.inj done)
    exact kept revision
  | signedIn active revision =>
    obtain ⟨rfl, rfl⟩ := Prod.mk.inj (Option.some.inj done)
    have issued := (kept revision).signIn now ((revision.users _).mpr (.inl rfl)) active rfl
    exact issued

theorem Sound.block (sound : Sound server) {userId : Int} {blocked : Bool}
    (meets : StepMeets server (.blockUser userId blocked))
    (done : blockUser server.db now userId blocked = .ok next) :
    Sound ⟨next, (if blocked then [.blocked userId ((server.db.users.get userId).bind PortalUser.passwordHash)] else []) ++
      server.history⟩ := by
  simp only [blockUser, bind_eq_ok, require_eq_ok] at done
  obtain ⟨user, found, done⟩ := done
  obtain ⟨stored, rfl⟩ := Table.get_eq_some_iff.mp found
  have written : Revision server.db { server.db with users := server.db.users.put { user with isBlocked := blocked } } user
      { user with isBlocked := blocked } := putUser_revision stored rfl rfl rfl
  cases blocked with
  | false =>
    rw [if_neg Bool.false_ne_true, pure_eq_ok] at done
    subst done
    rw [if_neg Bool.false_ne_true]
    refine sound.revise written (fun _ member => absurd member List.not_mem_nil) (fun some => absurd rfl some)
      (fun _ active => active) ?_
    intro _ session issued owner fits
    obtain ⟨active, revoked⟩ := sound.sessions user stored session issued owner fits
    refine ⟨active, ?_⟩
    intro entry revokes since
    -- The session is older than the last block, which found the password it was made from.
    have last := (revoked entry revokes since).2
    exact absurd last (meets user found (by rw [fits]; exact Option.some_ne_none _))
  | true =>
    rw [if_pos rfl, pure_eq_ok] at done
    subst done
    rw [if_pos rfl, found, Option.bind_some]
    obtain ⟨revoked, cleared⟩ := revoke_revision ((written.users _).mpr (.inl rfl)) now
    refine sound.revise (written.trans rfl rfl revoked) ?_ (fun _ => cleared) (fun impossible => by cases impossible) ?_
    · intro entry member
      rw [List.mem_singleton.mp member]
      exact rfl
    · intro _ session issued owner fits
      refine ⟨(sound.sessions user stored session issued owner fits).1, ?_⟩
      intro entry _ _
      exact ⟨rfl, by simp [lastBlock]⟩

theorem Sound.update (sound : Sound server) {userId : Int} {isActive : Option Bool} {password : Option String}
    (meets : StepMeets server (.updateUser userId isActive password))
    (done : updateUser server.db now userId isActive password = .ok next) :
    Sound ⟨next, ((if password.isSome then [.passwordChanged userId] else []) ++
      if isActive = some false then [.deactivated userId] else []) ++ server.history⟩ := by
  simp only [updateUser, bind_eq_ok, require_eq_ok] at done
  obtain ⟨_, -, user, found, done⟩ := done
  obtain ⟨stored, rfl⟩ := Table.get_eq_some_iff.mp found
  let revised : PortalUser := { user with isActive := isActive.getD user.isActive }
  have written : Revision server.db { server.db with users := server.db.users.put revised } user revised :=
    putUser_revision stored rfl rfl rfl
  -- Up to the password, the user is written and perhaps the credentials are revoked.
  obtain ⟨middle, first, salt, cleared, rest⟩ : ∃ middle, Revision server.db middle user revised ∧
      middle.nextSalt = server.db.nextSalt ∧ (isActive = some false → Cleared middle user) ∧
      applyPassword middle now revised password = .ok next := by
    by_cases inactive : isActive = some false
    · obtain ⟨revoked, cleared⟩ := revoke_revision ((written.users _).mpr (.inl rfl)) now
      rw [if_pos inactive] at done
      refine ⟨_, written.trans rfl rfl revoked, ?_, fun _ => cleared, done⟩
      rw [revokeInstanceCredential_frame]
      rfl
    · rw [if_neg inactive] at done
      exact ⟨_, written, rfl, fun same => absurd same inactive, done⟩
  have mine (entry : Entry) (member : entry ∈ (if password.isSome then [Entry.passwordChanged user.id] else []) ++
      if isActive = some false then [.deactivated user.id] else []) : Entry.Revokes entry user.id := by
    rcases List.mem_append.mp member with changed | stopped
    · split at changed
      · rw [List.mem_singleton.mp changed]
        exact rfl
      · cases changed
    · split at stopped
      · rw [List.mem_singleton.mp stopped]
        exact rfl
      · cases stopped
  cases password with
  | some password =>
    obtain ⟨hash, salted, second, cleared⟩ := applyPassword_revision ((first.users _).mpr (.inl rfl)) rest
    exact sound.newPassword (salted.trans salt) (first.trans rfl salt second) cleared (by simp) mine
  | none =>
    obtain rfl : middle = next := Except.ok.inj rest
    by_cases inactive : isActive = some false
    · subst inactive
      refine sound.revise first mine (fun _ => cleared rfl) (fun impossible => by simp at impossible) ?_
      intro _ session _ _ fits
      cases (meets user found).symm.trans fits
    · have active : user.isActive → revised.isActive := by
        intro before
        cases isActive with
        | none => exact before
        | some value =>
          cases value with
          | true => rfl
          | false => exact absurd rfl inactive
      rw [if_neg inactive] at mine ⊢
      refine sound.revise first mine (fun some => absurd rfl some) (fun _ => active) ?_
      intro _ session issued owner fits
      obtain ⟨before, revoked⟩ := sound.sessions user stored session issued owner fits
      exact ⟨active before, revoked⟩

theorem Sound.reset (sound : Sound server) {token password : String}
    (done : portalReset server.db now token password = .ok next) :
    Sound ⟨next, ((resetRow server.db now token).toList.map fun row => .passwordChanged row.userId) ++ server.history⟩ := by
  simp only [portalReset, bind_eq_ok, raiseIf_eq_ok, require_eq_ok] at done
  obtain ⟨_, -, _, -, row, found, user, stored, _, -, _, -, done⟩ := done
  obtain ⟨member, owner⟩ := Table.get_eq_some_iff.mp stored
  split at done
  · cases done
  next changed =>
    rw [pure_eq_ok] at done
    subst done
    obtain ⟨hash, salted, revision, cleared⟩ := changePassword_revision member changed
    simp only [found, Option.toList_some, List.map_cons, List.map_nil, ← owner]
    refine sound.newPassword salted ⟨revision.stored, rfl, rfl, revision.users, ?_, revision.tokens, revision.secret⟩ cleared
      (by simp) ?_
    · cases revision.hash with
      | same hash salt => exact .same hash salt
      | fresh hash salt => exact .fresh hash salt
    · intro entry listed
      rw [List.mem_singleton.mp listed]
      exact rfl

theorem Sound.step (sound : Sound server) {request : Int × Request} (meets : StepMeets server request.2) :
    Sound (step server request) := by
  obtain ⟨now, request⟩ := request
  unfold Credentials.step
  split
  next next entries done =>
    cases request with
    | login email password lockedOut hasEmployment => exact sound.login done
    | claimToken instanceId =>
      obtain ⟨⟨after, token⟩, handled, same⟩ := Option.map_eq_some_iff.mp done
      obtain ⟨rfl, rfl⟩ := Prod.mk.inj same
      have claimed := toOption_eq_some.mp handled
      simp only [claimInstanceToken, bind_eq_ok, require_eq_ok, raiseIf_eq_ok, pure_eq_ok, Prod.mk.injEq] at claimed
      obtain ⟨row, found, _, -, rfl, rfl⟩ := claimed
      obtain ⟨-, rfl⟩ := Table.get_eq_some_iff.mp found
      exact sound.claim meets
    | blockUser userId blocked =>
      obtain ⟨after, handled, same⟩ := Option.map_eq_some_iff.mp done
      obtain ⟨rfl, rfl⟩ := Prod.mk.inj same
      exact sound.block meets (toOption_eq_some.mp handled)
    | updateUser userId isActive password =>
      obtain ⟨after, handled, same⟩ := Option.map_eq_some_iff.mp done
      obtain ⟨rfl, rfl⟩ := Prod.mk.inj same
      exact sound.update meets (toOption_eq_some.mp handled)
    | setUserPassword userId password =>
      obtain ⟨after, handled, same⟩ := Option.map_eq_some_iff.mp done
      obtain ⟨rfl, rfl⟩ := Prod.mk.inj same
      have set := toOption_eq_some.mp handled
      simp only [setUserPassword, bind_eq_ok, require_eq_ok] at set
      obtain ⟨_, -, user, found, set⟩ := set
      obtain ⟨stored, rfl⟩ := Table.get_eq_some_iff.mp found
      obtain ⟨hash, salted, revision, cleared⟩ := applyPassword_revision stored set
      refine sound.newPassword salted revision cleared (by simp) ?_
      intro entry member
      rw [List.mem_singleton.mp member]
      exact rfl
    | reset token password =>
      obtain ⟨after, handled, same⟩ := Option.map_eq_some_iff.mp done
      obtain ⟨rfl, rfl⟩ := Prod.mk.inj same
      exact sound.reset (toOption_eq_some.mp handled)
  · exact sound

end Requests

section Permanence
variable {settings : Settings} {server : Server}

/-- Whoever is admitted is active and not blocked, and what they came with was issued after
every block, deactivation and password change of theirs. Only signed cookies are presented. -/
def Permanent (settings : Settings) (server : Server) : Prop :=
  ∀ presented : Presented, (∀ session ∈ presented.cookie, .issued (.cookie session) ∈ server.history) →
    ∀ user row credential, requirePortalUserAuth settings server.db presented = .ok (user, row, credential) →
      user.isActive ∧ ¬ user.isBlocked ∧ (credential ≠ .cml → ∀ entry, Entry.Revokes entry user.id →
        ¬ Since server.history (.issued credential) entry)

theorem admitUser_ok {user found : PortalUser} {instance' : Option Instance} {row : Instance} {credential used : Credential}
    (done : admitUser (some found) instance' used = .ok (user, row, credential)) :
    found = user ∧ used = credential ∧ ¬ user.isBlocked := by
  simp only [admitUser, bind_eq_ok, require_eq_ok, raiseIf_eq_ok, pure_eq_ok, Option.some.injEq, Prod.mk.injEq] at done
  obtain ⟨_, rfl, _, -, _, unblocked, rfl, rfl, rfl⟩ := done
  exact ⟨rfl, rfl, unblocked⟩

theorem Sound.permanent (sound : Sound server) : Permanent settings server := by
  intro presented signed user row credential admitted
  unfold requirePortalUserAuth at admitted
  split at admitted
  next userId _ =>
    simp only [bind_eq_ok, require_eq_ok, raiseIf_eq_ok, pure_eq_ok, not_or, not_not, Prod.mk.injEq] at admitted
    obtain ⟨_, -, _, ⟨active, unblocked⟩, _, -, rfl, rfl, rfl⟩ := admitted
    exact ⟨active, unblocked, fun other => absurd rfl other⟩
  next token _ _ =>
    simp only [bind_eq_ok] at admitted
    obtain ⟨holder, authenticated, found, one, admitted⟩ := admitted
    cases found with
    | none =>
      simp only [admitUser, bind_eq_ok, require_eq_ok] at admitted
      obtain ⟨_, impossible, -⟩ := admitted
      cases impossible
    | some found =>
      obtain ⟨rfl, rfl, unblocked⟩ := admitUser_ok admitted
      simp only [requireInstanceAuth, bind_eq_ok, raiseIf_eq_ok, require_eq_ok, pure_eq_ok] at authenticated
      obtain ⟨_, -, verifiedRow, verified, _, -, same⟩ := authenticated
      subst same
      rw [verifyInstanceToken] at verified
      have held : verifiedRow.tokenHash = some token := by simpa using List.find?_some verified
      have member : found ∈ server.db.users.select (·.instanceId = some verifiedRow.id) := by
        unfold scalarOneOrNone at one
        split at one
        · cases one
        next selected =>
          rw [selected]
          cases one
          exact List.mem_singleton_self _
        · cases one
      obtain ⟨present, mapped⟩ := Table.mem_select.mp member
      obtain ⟨active, unrevoked⟩ :=
        sound.bearers verifiedRow (List.mem_of_find?_eq_some verified) token held found present mapped
      exact ⟨active, unblocked, fun _ => unrevoked⟩
  · simp only [sessionUser, bind_eq_ok, raiseIf_eq_ok, require_eq_ok, pure_eq_ok, not_not] at admitted
    obtain ⟨_, ⟨_, -, _, carried, found, stored, hash, held, _, fits, _, -, rfl⟩, admitted⟩ := admitted
    obtain ⟨rfl, rfl, unblocked⟩ := admitUser_ok admitted
    obtain ⟨present, owner⟩ := Table.get_eq_some_iff.mp stored
    have issued := signed _ (Option.filter_eq_some_iff.mp carried).1
    obtain ⟨active, revoked⟩ := sound.sessions _ present _ issued owner.symm (fits ▸ held)
    refine ⟨active, unblocked, ?_⟩
    intro _ entry revokes since
    exact unblocked (revoked entry revokes since).1

theorem start_sound (users : Table PortalUser PortalUser.id) (instances : Table Instance Instance.id)
    (resetTokens : Table PortalUserResetToken PortalUserResetToken.id) : Sound (.start users instances resetTokens) := by
  refine ⟨?_, ?_, ?_, ?_, ?_⟩
  · intro user member hash found
    have listed : hash.salt ∈ (users.rows.filterMap PortalUser.passwordHash).map PasswordHash.salt :=
      List.mem_map_of_mem (List.mem_filterMap.mpr ⟨user, member, found⟩)
    have bounded (salts : List Nat) (salt : Nat) (inside : salt ∈ salts) : salt ≤ salts.foldr max 0 := by
      induction salts with
      | nil => cases inside
      | cons first rest ih =>
        rcases List.mem_cons.mp inside with rfl | later
        · exact le_max_left _ _
        · exact le_trans (ih later) (le_max_right _ _)
    exact Nat.lt_succ_of_le (bounded _ _ listed)
  · intro session member
    cases member
  · intro token member
    cases member
  · intro user _ session member
    cases member
  · intro row member token held
    have cleared : row.tokenHash = none := by
      obtain ⟨old, -, rfl⟩ := List.mem_map.mp member
      rfl
    cases cleared.symm.trans held

/-- Every step of a run meets the condition in the state it starts from. -/
def RunMeets : Server → List (Int × Request) → Prop
  | _, [] => True
  | server, request :: requests => StepMeets server request.2 ∧ RunMeets (step server request) requests

theorem run_sound {requests : List (Int × Request)} (sound : Sound server) (meets : RunMeets server requests) :
    Sound (run server requests) := by
  induction requests generalizing server with
  | nil => exact sound
  | cons request requests ih => exact ih (sound.step meets.1) meets.2

/-- In every run in which no user who has a password is deactivated without a new one, no token
is claimed for an inactive user and no user is unblocked with the password that the block found,
nothing issued before a block, a deactivation or a password change of a user is accepted any
more, and nobody blocked or inactive is admitted. -/
theorem revocation_permanent (settings : Settings) (users : Table PortalUser PortalUser.id)
    (instances : Table Instance Instance.id) (resetTokens : Table PortalUserResetToken PortalUserResetToken.id)
    (requests : List (Int × Request)) (meets : RunMeets (.start users instances resetTokens) requests) :
    Permanent settings (run (.start users instances resetTokens) requests) :=
  (run_sound (start_sound users instances resetTokens) meets).permanent

/-- A user who signs in, is blocked and unblocked again. -/
def sampleUsers : Table PortalUser PortalUser.id :=
  ⟨[⟨1, "user@example.com", some ⟨0, "old password", false⟩, true, false, some "instance"⟩], by decide⟩

def sampleInstances : Table Instance Instance.id := ⟨[⟨"instance", .active, none⟩], by decide⟩

def blockedAndBack : List (Int × Request) :=
  [(0, .login "user@example.com" "old password" false true), (1, .blockUser 1 true), (2, .blockUser 1 false)]

def sampleSession : PortalSession := ⟨1, ⟨0, "old password", false⟩, 0, 0⟩

def samplePresented : Presented := ⟨false, none, false, true, none, some sampleSession, true, 3⟩

theorem session_survives_block : ¬ Permanent ⟨43200⟩ (run (.start sampleUsers sampleInstances ∅) blockedAndBack) := by
  intro permanent
  have history : (run (.start sampleUsers sampleInstances ∅) blockedAndBack).history =
      [.blocked 1 (some ⟨0, "old password", false⟩), .issued (.cookie sampleSession)] := by decide +kernel
  obtain ⟨user, row, credential, admitted, owner, used⟩ : ∃ user row credential,
      requirePortalUserAuth ⟨43200⟩ (run (.start sampleUsers sampleInstances ∅) blockedAndBack).db samplePresented =
        .ok (user, row, credential) ∧ user.id = 1 ∧ credential = .cookie sampleSession := by
    refine ⟨⟨1, "user@example.com", some ⟨0, "old password", false⟩, true, false, some "instance"⟩,
      ⟨"instance", .active, none⟩, _, ?_, rfl, rfl⟩
    decide +kernel
  have signed : ∀ session ∈ samplePresented.cookie,
      .issued (.cookie session) ∈ (run (.start sampleUsers sampleInstances ∅) blockedAndBack).history := by
    intro session carried
    cases carried
    rw [history]
    exact List.mem_cons_of_mem _ List.mem_cons_self
  have revoked := (permanent samplePresented signed user row credential admitted).2.2
  subst used
  refine revoked (by decide) (.blocked 1 (some ⟨0, "old password", false⟩)) owner.symm ?_
  rw [history]
  exact .inl ⟨rfl, List.mem_cons_self⟩

/-- The same with a new password before the user is unblocked. -/
def blockedAndRenewed : List (Int × Request) :=
  [(0, .login "user@example.com" "old password" false true), (1, .blockUser 1 true), (2, .setUserPassword 1 "new password"),
    (3, .blockUser 1 false)]

theorem renewed_session_ends :
    (Entry.issued (.cookie sampleSession)) ∈ (run (.start sampleUsers sampleInstances ∅) blockedAndRenewed).history ∧
      Permanent ⟨43200⟩ (run (.start sampleUsers sampleInstances ∅) blockedAndRenewed) := by
  refine ⟨by decide +kernel, revocation_permanent ⟨43200⟩ sampleUsers sampleInstances ∅ blockedAndRenewed
    ⟨trivial, trivial, trivial, ?_, trivial⟩⟩
  intro user found _
  have stored : (run (.start sampleUsers sampleInstances ∅) (blockedAndRenewed.take 3)).db.users.get 1 =
      some ⟨1, "user@example.com", some ⟨1, "new password", false⟩, true, true, some "instance"⟩ := by decide +kernel
  cases stored.symm.trans found
  decide +kernel

end Permanence

end Dagmar.Credentials.Proofs
