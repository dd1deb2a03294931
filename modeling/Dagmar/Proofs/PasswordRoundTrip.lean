import Dagmar.PortalAccounts
import Mathlib.Logic.Relation

/-! A password that was set and the login that presents it. The writers store the
trimmed password and admit one longer than the login does, so a password comes back
exactly when it has no space around it and is short enough for the login. -/

namespace Dagmar.Credentials.Accounts.Proofs
open Library Library.Outcome
open Cml (Platform)

section Statements
variable (platform : Platform)

/-- Trimming and lowering a text again changes nothing. -/
def LowersOnce : Prop := ∀ text, normalizedEmail platform (normalizedEmail platform text) = normalizedEmail platform text

def seen {β : Type} (column : PortalUser → β) (db : Db) (id : Int) : Option β := (db.users.get id).map column

def storedPassword (user : PortalUser) : Option String := user.passwordHash.map PasswordHash.password

/-- The e-mails of the accounts: the column is unique, and its writers trim and lower. -/
structure Kept (db : Db) : Prop where
  distinct : ∀ id other email, seen PortalUser.email db id = some email → seen PortalUser.email db other = some email →
    id = other
  lowered : ∀ id email, seen PortalUser.email db id = some email → normalizedEmail platform email = email

/-- A committed request that sets no password of the user. -/
inductive Leaves (userId : Int) (db : Db) : Db → Prop where
  | request {next : Db} {now : Int} {request : Request} {entries : List Entry}
      (done : request.commit db now = some (next, entries)) (others : .passwordChanged userId ∉ entries) : Leaves userId db next
  | createUser {next : Db} {now id : Int} {instanceId : String} {payload : PortalUserCreateIn}
      (done : createUser platform db now id instanceId payload = .ok next) : Leaves userId db next
  | updateUser {next : Db} {now id : Int} {payload : PortalUserUpdateIn}
      (done : updateUser platform db now id payload = .ok next) (others : payload.password = none ∨ id ≠ userId) :
      Leaves userId db next

/-- The login failed on the body or on the credentials. -/
inductive Refused : Except ApiError PortalSession → Prop where
  | body (message : String) : Refused (.error (.invalid message))
  | credentials (detail : String) : Refused (.error (invalidCredentials detail))

/-- What is asked of a password that was set for an active user who is not blocked. -/
structure Works (db : Db) (user : PortalUser) (longest : Nat) (password : String) (now : Int) : Prop where
  verified : ¬ Refused (portalLogin platform db now user.email password false true).2
  signsIn : (∃ row ∈ db.instanceOf user, row.status = .active) →
    ∃ session, (portalLogin platform db now user.email password false true).2 = .ok session
  others : ∀ other ≠ password, Refused (portalLogin platform db now user.email other false true).2
  policy : ∀ stored ∈ storedPassword user, 8 ≤ stored.length ∧ stored.length ≤ longest

end Statements

section Columns
variable {β : Type} {column : PortalUser → β} {db next : Db} {now : Int} {user : PortalUser} {id : Int}

/-- A row that is written shows in its own place what it is, elsewhere nothing. -/
theorem seen_put {revised : PortalUser} (users : next.users = db.users.put revised) (stored : db.users.get revised.id = some user)
    (same : revised.id = id → column revised = column user) : seen column next id = seen column db id := by
  rw [seen, seen, users]
  by_cases mine : revised.id = id
  · exact Table.map_get_put stored (same mine) id
  · rw [Table.get_put, if_neg mine]

theorem revokeInstanceCredential_users : (revokeInstanceCredential db user).users = db.users := by
  rw [revokeInstanceCredential]
  split <;> rfl

theorem changePortalPassword_users {password : String} (done : changePortalPassword db now user password = .ok next) :
    ∃ hash : PasswordHash, hash.password = strip password ∧ next.users = db.users.put { user with passwordHash := some hash } := by
  simp only [changePortalPassword, bind_eq_ok, raiseIf_eq_ok, pure_eq_ok] at done
  obtain ⟨_, _, _, _, rfl⟩ := done
  exact ⟨⟨db.nextSalt, strip password, false⟩, rfl, revokeInstanceCredential_users⟩

theorem applyPassword_users {password : String} (done : applyPassword db now user (some password) = .ok next) :
    ∃ hash : PasswordHash, hash.password = strip password ∧ next.users = db.users.put { user with passwordHash := some hash } := by
  simp only [applyPassword] at done
  split at done
  · cases done
  split at done
  next changed =>
    cases done
    obtain ⟨hash, text, users⟩ := changePortalPassword_users changed
    exact ⟨hash, text.trans (strip_strip password), users⟩
  · cases done

/-- The column is not one that a request sets, a password apart. -/
structure Steady (column : PortalUser → β) : Prop where
  active : ∀ user value, column { user with isActive := value } = column user
  blocked : ∀ user value, column { user with isBlocked := value } = column user
  rehashed : ∀ user (hash renewed : PasswordHash), user.passwordHash = some hash → renewed.password = hash.password →
    column { user with passwordHash := some renewed } = column user

/-- The column tells nothing of the password. -/
def Blind (column : PortalUser → β) : Prop := ∀ user hash, column { user with passwordHash := hash } = column user

theorem steady_email : Steady PortalUser.email := ⟨fun _ _ => rfl, fun _ _ => rfl, fun _ _ _ _ _ => rfl⟩

theorem steady_password : Steady storedPassword := by
  refine ⟨fun _ _ => rfl, fun _ _ => rfl, ?_⟩
  intro user hash renewed held same
  rw [storedPassword, storedPassword, held, Option.map_some, Option.map_some, same]

theorem seen_password {hash : PasswordHash} (stored : db.users.get user.id = some user)
    (users : next.users = db.users.put { user with passwordHash := some hash }) (changed : user.id ≠ id ∨ Blind column) :
    seen column next id = seen column db id := by
  apply seen_put users stored
  intro mine
  rcases changed with other | blind
  · exact absurd mine other
  · exact blind user (some hash)

theorem applyPassword_seen {password : Option String} (stored : db.users.get user.id = some user)
    (done : applyPassword db now user password = .ok next) (changed : (password = none ∨ user.id ≠ id) ∨ Blind column) :
    seen column next id = seen column db id := by
  cases password with
  | none =>
    cases done
    rfl
  | some password =>
    obtain ⟨hash, _, users⟩ := applyPassword_users done
    apply seen_password stored users
    rcases changed with (none | other) | blind
    · cases none
    · exact .inl other
    · exact .inr blind

theorem portalLogin_seen (steady : Steady column) (email password : String) (lockedOut hasEmployment : Bool) :
    seen column (Credentials.portalLogin db now email password lockedOut hasEmployment).1 id = seen column db id := by
  unfold Credentials.portalLogin
  split
  · rfl
  split
  · rfl
  next user found =>
    have stored := Table.get_of_mem (List.mem_of_find?_eq_some found)
    split
    · rfl
    next hash held =>
      split
      · rfl
      next right =>
        have verified : hash.password = password := by
          by_contra wrong
          exact right (.inr wrong)
        dsimp only
        generalize rehash : (if hash.outdated then hashPassword db password else (db, hash)) = made
        have renewed : made.2.password = hash.password := by
          split at rehash
          · rw [← rehash, verified]
            rfl
          · rw [← rehash]
        have kept {after : Db} (users : after.users = made.1.users.put { user with passwordHash := some made.2 }) :
            seen column after id = seen column db id := by
          have same : made.1.users = db.users := by
            split at rehash <;> subst rehash <;> rfl
          rw [same] at users
          exact seen_put users stored fun _ => steady.rehashed user hash made.2 held renewed
        split
        · exact kept rfl
        split
        · rfl
        · exact kept rfl

theorem updateUser_seen (steady : Steady column) {userId : Int} {isActive : Option Bool} {password : Option String}
    (done : Credentials.updateUser db now userId isActive password = .ok next)
    (changed : (password = none ∨ userId ≠ id) ∨ Blind column) : seen column next id = seen column db id := by
  simp only [Credentials.updateUser, bind_eq_ok, require_eq_ok] at done
  obtain ⟨_, _, user, found, done⟩ := done
  obtain ⟨stored, same⟩ := Table.get_eq_some_iff.mp found
  subst same
  generalize middle : (if isActive = some false then _ else _) = after at done
  have users : after.users = db.users.put { user with isActive := isActive.getD user.isActive } := by
    rw [← middle]
    split
    · exact revokeInstanceCredential_users
    · rfl
  have first : seen column after id = seen column db id :=
    seen_put users found fun _ => steady.active user _
  rw [← first]
  apply applyPassword_seen _ done changed
  rw [users]
  exact Table.get_put_self _ rfl

/-- Where a password is set, it is stored trimmed. -/
theorem applyPassword_sets {user : PortalUser} {password : String}
    (done : applyPassword db now user (some password) = .ok next) :
    seen storedPassword next user.id = some (some (strip password)) := by
  obtain ⟨hash, text, users⟩ := applyPassword_users done
  rw [seen, users, Table.get_put_self _ rfl, ← text]
  rfl

theorem updateUser_sets {userId : Int} {isActive : Option Bool} {password : String}
    (done : Credentials.updateUser db now userId isActive (some password) = .ok next) :
    seen storedPassword next userId = some (some (strip password)) := by
  simp only [Credentials.updateUser, bind_eq_ok, require_eq_ok] at done
  obtain ⟨_, _, user, found, done⟩ := done
  obtain ⟨_, rfl⟩ := Table.get_eq_some_iff.mp found
  generalize (if isActive = some false then _ else _) = after at done
  have sets := applyPassword_sets done
  exact sets

theorem setUserPassword_seen {userId : Int} {password : String}
    (done : Credentials.setUserPassword db now userId password = .ok next) (changed : userId ≠ id ∨ Blind column) :
    seen column next id = seen column db id := by
  simp only [Credentials.setUserPassword, bind_eq_ok, require_eq_ok] at done
  obtain ⟨_, _, user, found, done⟩ := done
  obtain ⟨_, same⟩ := Table.get_eq_some_iff.mp found
  subst same
  exact applyPassword_seen found done (changed.imp_left .inr)

theorem portalReset_users {token password : String} (done : Credentials.portalReset db now token password = .ok next) :
    ∃ row user, ∃ hash : PasswordHash, resetRow db now token = some row ∧ db.users.get row.userId = some user ∧
      hash.password = strip password ∧ next.users = db.users.put { user with passwordHash := some hash } := by
  simp only [Credentials.portalReset, bind_eq_ok, require_eq_ok] at done
  obtain ⟨_, _, _, _, row, presented, user, found, _, _, _, _, done⟩ := done
  split at done
  · cases done
  next changed =>
    obtain ⟨hash, text, users⟩ := changePortalPassword_users changed
    cases done
    exact ⟨row, user, hash, presented, found, text, users⟩

/-- A request keeps what is seen of an account, unless it sets its password. -/
theorem commit_seen (steady : Steady column) {request : Request} {entries : List Entry}
    (done : request.commit db now = some (next, entries)) (changed : .passwordChanged id ∉ entries ∨ Blind column) :
    seen column next id = seen column db id := by
  cases request with
  | login email password lockedOut hasEmployment =>
    have kept := @portalLogin_seen _ column db now id steady email password lockedOut hasEmployment
    simp only [Request.commit] at done
    split at done
    next outcome =>
      cases done
      rw [outcome] at kept
      exact kept
    next outcome =>
      cases done
      rw [outcome] at kept
      exact kept
  | claimToken instanceId =>
    simp only [Request.commit, Option.map_eq_some_iff, toOption_eq_some] at done
    obtain ⟨⟨after, token⟩, claimed, same⟩ := done
    cases same
    simp only [claimInstanceToken, bind_eq_ok, pure_eq_ok] at claimed
    obtain ⟨_, _, _, _, same⟩ := claimed
    cases same
    rfl
  | blockUser userId blocked =>
    simp only [Request.commit, Option.map_eq_some_iff, toOption_eq_some] at done
    obtain ⟨after, done, same⟩ := done
    cases same
    simp only [Credentials.blockUser, bind_eq_ok, require_eq_ok] at done
    obtain ⟨user, found, done⟩ := done
    obtain ⟨_, rfl⟩ := Table.get_eq_some_iff.mp found
    have users : next.users = db.users.put { user with isBlocked := blocked } := by
      split at done
      · cases done
        exact revokeInstanceCredential_users
      · cases done
        rfl
    exact seen_put users found fun _ => steady.blocked user blocked
  | updateUser userId isActive password =>
    simp only [Request.commit, Option.map_eq_some_iff, toOption_eq_some] at done
    obtain ⟨after, done, same⟩ := done
    cases same
    apply updateUser_seen steady done
    apply changed.imp_left
    intro others
    cases password with
    | none => exact .inl rfl
    | some password =>
      apply Or.inr
      rintro rfl
      simp at others
  | setUserPassword userId password =>
    simp only [Request.commit, Option.map_eq_some_iff, toOption_eq_some] at done
    obtain ⟨after, done, same⟩ := done
    cases same
    apply setUserPassword_seen done
    apply changed.imp_left
    rintro others rfl
    simp at others
  | reset token password =>
    simp only [Request.commit, Option.map_eq_some_iff, toOption_eq_some] at done
    obtain ⟨after, done, same⟩ := done
    cases same
    obtain ⟨row, user, hash, presented, found, _, users⟩ := portalReset_users done
    obtain ⟨_, same⟩ := Table.get_eq_some_iff.mp found
    apply seen_password (same ▸ found) users
    apply changed.imp_left
    rintro others rfl
    simp [presented, same] at others

end Columns

section Writers
variable {platform : Platform} {db next : Db} {now userId id : Int}

/-- The e-mail of one account at most is written, in the form that is stored, and to one that no other account has. -/
def EmailWritten (platform : Platform) (userId : Int) (db next : Db) : Prop :=
  ∀ id, seen PortalUser.email next id = seen PortalUser.email db id ∨ id = userId ∧ ∃ text,
    seen PortalUser.email next id = some (normalizedEmail platform text) ∧
      ∀ other ≠ id, seen PortalUser.email db other ≠ some (normalizedEmail platform text)

theorem freeEmail_ok {email : String} {excludingId : Option Int} (free : freeEmail db email excludingId = .ok ()) (other : Int)
    (counted : some other ≠ excludingId) : seen PortalUser.email db other ≠ some email := by
  intro taken
  obtain ⟨user, found, same⟩ := Option.map_eq_some_iff.mp taken
  obtain ⟨member, rfl⟩ := Table.get_eq_some_iff.mp found
  rw [freeEmail, raiseIf_eq_ok, not_not] at free
  have listed : user ∈ db.users.select fun user => user.email = email ∧ some user.id ≠ excludingId :=
    Table.mem_select.mpr ⟨member, same, counted⟩
  rw [free] at listed
  cases listed

theorem Kept.write (lowers : LowersOnce platform) (kept : Kept platform db) (written : EmailWritten platform userId db next) :
    Kept platform next := by
  constructor
  · intro id other email first second
    rcases written id with same | ⟨rfl, text, shown, fresh⟩
    · rcases written other with same' | ⟨rfl, text, shown, fresh⟩
      · exact kept.distinct id other email (same.symm.trans first) (same'.symm.trans second)
      · obtain rfl := Option.some.inj (shown.symm.trans second)
        by_contra different
        exact fresh id different (same.symm.trans first)
    · obtain rfl := Option.some.inj (shown.symm.trans first)
      rcases written other with same' | ⟨rfl, -⟩
      · by_contra different
        exact fresh other (Ne.symm different) (same'.symm.trans second)
      · rfl
  · intro id email found
    rcases written id with same | ⟨rfl, text, shown, _⟩
    · exact kept.lowered id email (same.symm.trans found)
    · obtain rfl := Option.some.inj (shown.symm.trans found)
      exact lowers text

theorem createUser_effect {instanceId : String} {payload : PortalUserCreateIn}
    (done : createUser platform db now userId instanceId payload = .ok next) :
    (∀ password ∈ payload.password, seen storedPassword next userId = some (some (strip password))) ∧
    db.users.get userId = none ∧
    (∀ id, id ≠ userId → seen storedPassword next id = seen storedPassword db id) ∧
    EmailWritten platform userId db next := by
  simp only [createUser, bind_eq_ok, require_eq_ok] at done
  obtain ⟨_, _, validated, _, _, _, _, _, _, _, _, _, _, _, _, free, instances, _, users, inserted, applied⟩ := done
  obtain ⟨absent, found⟩ := Table.get_insertAll inserted
  have stored := (found userId).trans (if_pos rfl)
  refine ⟨?_, absent, ?_, ?_⟩
  · intro password given
    rw [given] at applied
    exact applyPassword_sets applied
  · intro id other
    rw [applyPassword_seen stored applied (.inl (.inr (Ne.symm other))), seen, found, if_neg (Ne.symm other)]
    rfl
  · intro id
    rw [applyPassword_seen stored applied (.inr fun _ _ => rfl), seen, found]
    split
    next same =>
      exact .inr ⟨same.symm, validated, rfl, fun other _ => freeEmail_ok free other (Option.some_ne_none other)⟩
    next other => exact .inl rfl

theorem updateUser_effect {payload : PortalUserUpdateIn} (done : updateUser platform db now userId payload = .ok next) :
    (∀ password ∈ payload.password, seen storedPassword next userId = some (some (strip password))) ∧
    (∀ id, payload.password = none ∨ userId ≠ id → seen storedPassword next id = seen storedPassword db id) ∧
    EmailWritten platform userId db next := by
  simp only [updateUser, bind_eq_ok, require_eq_ok] at done
  obtain ⟨_, _, email, _, _, _, _, _, _, _, user, found, middle, changed, _, _, updated⟩ := done
  obtain ⟨_, rfl⟩ := Table.get_eq_some_iff.mp found
  -- The e-mail is written first, then the rest.
  have emails : middle = db ∨ ∃ text, middle = { db with users := db.users.put { user with email := normalizedEmail platform text } } ∧
      ∀ other ≠ user.id, seen PortalUser.email db other ≠ some (normalizedEmail platform text) := by
    cases email with
    | none =>
      cases changed
      exact .inl rfl
    | some text =>
      simp only [changeEmail, bind_eq_ok] at changed
      obtain ⟨_, _, changed⟩ := changed
      split at changed
      · cases changed
        exact .inl rfl
      · obtain ⟨_, free, same⟩ := bind_eq_ok.mp changed
        cases same
        exact .inr ⟨text, rfl, fun other different => freeEmail_ok free other fun same => different (Option.some.inj same)⟩
  have passwords (id : Int) : seen storedPassword middle id = seen storedPassword db id := by
    rcases emails with rfl | ⟨text, rfl, _⟩
    · rfl
    · exact seen_put rfl found fun _ => rfl
  refine ⟨?_, ?_, ?_⟩
  · intro password given
    rw [given] at updated
    exact updateUser_sets updated
  · intro id others
    rw [updateUser_seen steady_password updated (.inl others), passwords]
  · intro id
    rw [updateUser_seen steady_email updated (.inr fun _ _ => rfl)]
    rcases emails with rfl | ⟨text, rfl, free⟩
    · exact .inl rfl
    · by_cases mine : user.id = id
      · subst mine
        refine .inr ⟨rfl, text, ?_, free⟩
        rw [seen, Table.get_put_self _ rfl]
        rfl
      · exact .inl (by rw [seen, Table.get_put, if_neg mine]; rfl)

theorem passwordField_ok {password : String} {longest : Nat} (fits : passwordField (some password) longest = .ok ()) :
    8 ≤ password.length ∧ password.length ≤ longest := by
  rw [passwordField, raiseIf_eq_ok] at fits
  simpa using fits

variable {change : PasswordChange} {password : String}

theorem handle_kept (lowers : LowersOnce platform) (kept : Kept platform db)
    (done : change.handle platform db now password = .ok next) : Kept platform next := by
  have untouched (same : ∀ id, seen PortalUser.email next id = seen PortalUser.email db id) : Kept platform next :=
    @Kept.write platform db next 0 lowers kept fun id => .inl (same id)
  cases change with
  | portalReset token =>
    obtain ⟨row, user, hash, _, found, _, users⟩ := portalReset_users done
    obtain ⟨_, same⟩ := Table.get_eq_some_iff.mp found
    exact untouched fun id => seen_password (same ▸ found) users (.inr fun _ _ => rfl)
  | setUserPassword userId => exact untouched fun id => setUserPassword_seen done (.inr fun _ _ => rfl)
  | createUser userId instanceId payload => exact kept.write lowers (createUser_effect done).2.2.2
  | updateUser userId payload => exact kept.write lowers (updateUser_effect done).2.2

/-- A password that is set has the length its body asks for, and is stored trimmed. -/
theorem handle_sets (done : change.handle platform db now password = .ok next) (targets : change.target db now = some userId) :
    (8 ≤ password.length ∧ password.length ≤ change.longest) ∧
      seen storedPassword next userId = some (some (strip password)) := by
  cases change with
  | portalReset token =>
    obtain ⟨row, user, hash, presented, found, text, users⟩ := portalReset_users done
    obtain ⟨_, same⟩ := Table.get_eq_some_iff.mp found
    simp only [PasswordChange.target, presented, Option.map_some, Option.some.injEq] at targets
    simp only [PasswordChange.handle, portalReset, bind_eq_ok] at done
    obtain ⟨_, _, _, fits, _⟩ := done
    refine ⟨passwordField_ok fits, ?_⟩
    rw [← targets, ← same, seen, users, Table.get_put_self _ rfl, ← text]
    rfl
  | setUserPassword id =>
    cases targets
    simp only [PasswordChange.handle, setUserPassword, bind_eq_ok, require_eq_ok] at done
    obtain ⟨_, fits, user, found, applied⟩ := done
    refine ⟨passwordField_ok fits, ?_⟩
    rw [← (Table.get_eq_some_iff.mp found).2]
    exact applyPassword_sets applied
  | createUser id instanceId payload =>
    cases targets
    refine ⟨?_, (createUser_effect done).1 password rfl⟩
    simp only [PasswordChange.handle, createUser, bind_eq_ok] at done
    obtain ⟨_, _, _, _, _, _, _, _, _, fits, _⟩ := done
    exact passwordField_ok fits
  | updateUser id payload =>
    cases targets
    refine ⟨?_, (updateUser_effect done).1 password rfl⟩
    simp only [PasswordChange.handle, updateUser, bind_eq_ok] at done
    obtain ⟨_, _, _, _, _, _, _, _, _, fits, _⟩ := done
    exact passwordField_ok fits

theorem Leaves.kept (lowers : LowersOnce platform) (kept : Kept platform db) (step : Leaves platform userId db next) :
    Kept platform next := by
  cases step with
  | request done others =>
    apply @Kept.write platform db next 0 lowers kept
    exact fun id => .inl (commit_seen steady_email done (.inr fun _ _ => rfl))
  | createUser done => exact kept.write lowers (createUser_effect done).2.2.2
  | updateUser done others => exact kept.write lowers (updateUser_effect done).2.2

theorem Leaves.holds {stored : Option String} (step : Leaves platform userId db next)
    (held : seen storedPassword db userId = some stored) : seen storedPassword next userId = some stored := by
  cases step with
  | request done others => rw [commit_seen steady_password done (.inl others), held]
  | @createUser _ id _ _ done =>
    obtain ⟨_, absent, same, _⟩ := createUser_effect done
    rw [same, held]
    rintro rfl
    simp [seen, absent] at held
  | updateUser done others => rw [(updateUser_effect done).2.1 userId others, held]

theorem leaves_run (lowers : LowersOnce platform) {later : Db} {stored : Option String} (kept : Kept platform db)
    (held : seen storedPassword db userId = some stored) (requests : Relation.ReflTransGen (Leaves platform userId) db later) :
    Kept platform later ∧ seen storedPassword later userId = some stored := by
  induction requests with
  | refl => exact ⟨kept, held⟩
  | tail _ step ih => exact ⟨step.kept lowers ih.1, step.holds ih.2⟩

end Writers

section Login
variable {platform : Platform} {db : Db} {now : Int} {user : PortalUser} {hash : PasswordHash} {email password : String}

/-- The bounds of the login body. -/
def Fits (email password : String) : Prop :=
  (3 ≤ email.length ∧ email.length ≤ 160) ∧ 1 ≤ password.length ∧ password.length ≤ 256

theorem portalLogin_fit (fits : Fits email password) : portalLogin platform db now email password false true =
    Credentials.portalLogin db now (normalizedEmail platform email) password false true := by
  obtain ⟨email', password'⟩ := fits
  have first : textField "email" (some email) 3 160 = .ok () := by
    rw [textField, raiseIf_eq_ok]
    simp only [Option.mem_def, Option.some.injEq, exists_eq_left']
    omega
  have second : textField "password" (some password) 1 256 = .ok () := by
    rw [textField, raiseIf_eq_ok]
    simp only [Option.mem_def, Option.some.injEq, exists_eq_left']
    omega
  rw [portalLogin, first, second]
  rfl

theorem portalLogin_unfit (unfit : ¬ Fits email password) : Refused (portalLogin platform db now email password false true).2 := by
  have bounds (field text : String) (shortest longest : Nat) : textField field (some text) shortest longest =
      if shortest ≤ text.length ∧ text.length ≤ longest then .ok () else .error (.invalid field) := by
    simp only [textField, raiseIf, Option.mem_def, Option.some.injEq, exists_eq_left']
    split_ifs <;> first | rfl | omega
  rw [portalLogin, bounds, bounds]
  split_ifs with first second
  · exact absurd ⟨first, second⟩ unfit
  · exact .body "password"
  · exact .body "email"
  · exact .body "email"

theorem find_email (kept : Kept platform db) (stored : db.users.get user.id = some user) :
    db.users.rows.find? (·.email = user.email) = some user := by
  obtain ⟨member, _⟩ := Table.get_eq_some_iff.mp stored
  cases found : db.users.rows.find? (·.email = user.email) with
  | none =>
    have other := List.find?_eq_none.mp found user member
    exact absurd (decide_eq_true rfl) other
  | some row =>
    have inside : row ∈ db.users := List.mem_of_find?_eq_some found
    have same : row.email = user.email := by simpa using List.find?_some found
    have first : seen PortalUser.email db row.id = some user.email := by
      rw [seen, Table.get_of_mem inside, Option.map_some, same]
    have second : seen PortalUser.email db user.id = some user.email := by rw [seen, stored, Option.map_some]
    rw [db.users.key_inj inside member (kept.distinct _ _ _ first second)]

theorem refused_of_wrong (found : db.users.rows.find? (·.email = email) = some user) (held : user.passwordHash = some hash)
    (wrong : hash.password ≠ password) : Refused (Credentials.portalLogin db now email password false true).2 := by
  rw [Credentials.portalLogin, found]
  simp only [held, wrong, ne_eq, not_false_eq_true, or_true, if_true, Bool.false_eq_true, if_false]
  exact .credentials _

theorem issuePortalLogin_error {hasEmployment : Bool} {error : ApiError}
    (failed : issuePortalLogin db user hasEmployment = .error error) : ¬ Refused (.error error) := by
  have status : ∃ status code message, error = .api status code message [] ∧ status ≠ 401 := by
    simp only [issuePortalLogin, bind_eq_error, raiseIf_eq_error, require_eq_error] at failed
    rcases failed with ⟨_, rfl⟩ | ⟨_, _, ⟨_, rfl⟩ | ⟨_, _, ⟨_, rfl⟩ | ⟨_, _, ⟨_, rfl⟩ | ⟨_, _, _, rfl⟩⟩⟩⟩ <;>
      exact ⟨_, _, _, rfl, by decide⟩
  obtain ⟨status, code, message, rfl, other⟩ := status
  intro refused
  cases refused
  exact other rfl

theorem issuePortalLogin_ok (active : user.isActive) (unblocked : user.isBlocked = false) {row : Instance}
    (found : row ∈ db.instanceOf user) (current : row.status = .active) : issuePortalLogin db user true = .ok () := by
  simp only [issuePortalLogin, bind_eq_ok, raiseIf_eq_ok, require_eq_ok]
  refine ⟨(), by simp [unblocked], (), by simp [active], row, found, (), by simp [current], by simp⟩

/-- A login with the right password of an active user is past the credentials. -/
theorem verified_of_right (found : db.users.rows.find? (·.email = email) = some user) (held : user.passwordHash = some hash)
    (active : user.isActive) (unblocked : user.isBlocked = false) (right : hash.password = password) :
    ¬ Refused (Credentials.portalLogin db now email password false true).2 ∧
      ((∃ row ∈ db.instanceOf user, row.status = .active) →
        ∃ session, (Credentials.portalLogin db now email password false true).2 = .ok session) := by
  rw [Credentials.portalLogin, found]
  simp only [held, active, right, Bool.false_eq_true, if_false, not_true_eq_false, ne_eq, or_self]
  generalize rehash : (if hash.outdated then hashPassword db password else (db, hash)) = made
  have instances : made.1.instances = db.instances := by
    split at rehash <;> subst rehash <;> rfl
  rw [if_neg (by rw [unblocked]; exact Bool.false_ne_true)]
  split
  next error failed =>
    refine ⟨issuePortalLogin_error failed, ?_⟩
    intro ⟨row, found, current⟩
    cases failed.symm.trans (issuePortalLogin_ok rfl unblocked (by simpa only [Db.instanceOf, instances] using found) current)
  next issued =>
    refine ⟨?_, fun _ => ⟨_, rfl⟩⟩
    intro refused
    cases refused

/-- The password that an account holds is verified, and no other. -/
theorem works_iff (kept : Kept platform db) (stored : db.users.get user.id = some user) (active : user.isActive)
    (unblocked : user.isBlocked = false) {longest : Nat} (bounded : 8 ≤ password.length ∧ password.length ≤ longest)
    (held : storedPassword user = some (strip password)) : Works platform db user longest password now ↔
      strip password = password ∧ password.length ≤ 256 ∧ 3 ≤ user.email.length ∧ user.email.length ≤ 160 := by
  obtain ⟨hash, hashed, text⟩ := Option.map_eq_some_iff.mp held
  have found := find_email kept stored
  have email : normalizedEmail platform user.email = user.email :=
    kept.lowered user.id user.email (by rw [seen, stored, Option.map_some])
  rw [← email] at found
  constructor
  · intro works
    have fits : Fits user.email password := by
      by_contra unfit
      exact works.verified (portalLogin_unfit unfit)
    have right : hash.password = password := by
      by_contra wrong
      apply works.verified
      rw [portalLogin_fit fits]
      exact refused_of_wrong found hashed wrong
    exact ⟨text.symm.trans right, fits.2.2, fits.1⟩
  · intro ⟨trimmed, short, long, longEnough⟩
    have fits : Fits user.email password := ⟨⟨long, longEnough⟩, by omega, short⟩
    obtain ⟨verified, signsIn⟩ := @verified_of_right db now user hash _ password found hashed active unblocked (text.trans trimmed)
    rw [← portalLogin_fit fits] at verified signsIn
    refine ⟨verified, signsIn, ?_, ?_⟩
    · intro other different
      by_cases fits' : Fits user.email other
      · rw [portalLogin_fit fits']
        apply refused_of_wrong found hashed
        rw [text, trimmed]
        exact Ne.symm different
      · exact portalLogin_unfit fits'
    · intro stored' same
      rw [Option.mem_def, held, Option.some.injEq, trimmed] at same
      rw [← same]
      exact bounded

end Login

/-- A password that was accepted works for the login, from then on until another is set, exactly when there is
no space around it, it has at most 256 characters and the e-mail of the account fits the login too. -/
theorem password_round_trip (platform : Platform) (lowers : LowersOnce platform) (db next later : Db) (kept : Kept platform db)
    (now time : Int) (change : PasswordChange) (password : String)
    (done : change.handle platform db now password = .ok next) (user : PortalUser)
    (target : change.target db now = some user.id) (requests : Relation.ReflTransGen (Leaves platform user.id) next later)
    (stored : later.users.get user.id = some user) (active : user.isActive) (unblocked : user.isBlocked = false) :
    Works platform later user change.longest password time ↔
      strip password = password ∧ password.length ≤ 256 ∧ 3 ≤ user.email.length ∧ user.email.length ≤ 160 := by
  obtain ⟨bounded, set⟩ := handle_sets done target
  obtain ⟨kept', holds⟩ := leaves_run lowers (handle_kept lowers kept done) set requests
  rw [seen, stored, Option.map_some, Option.some.injEq] at holds
  exact works_iff kept' stored active unblocked bounded holds

section Examples

/-- A platform on texts that are lowered already. -/
def samplePlatform : Platform where
  loads _ := none
  lower text := text
  isDigit character := character.isDigit
  sha256 _ := ""
  lockId _ := 0

def jana : PortalUserCreateIn := { name := "Jana", email := "jana@example.cz", role := "employee" }

def emptyDb : Db := ⟨∅, ∅, ∅, 0, 0⟩

theorem samplePlatform_lowers : LowersOnce samplePlatform := strip_strip

theorem emptyDb_kept : Kept samplePlatform emptyDb := by
  constructor
  · intro id other email found
    cases found
  · intro id email found
    cases found

def janaStored (password : String) : PortalUser := ⟨1, "jana@example.cz", some ⟨0, password, false⟩, true, false, some "instance"⟩

def janaDb (password : String) : Db :=
  ⟨⟨[janaStored password], List.nodup_singleton _⟩, ⟨[⟨"instance", .active, none⟩], List.nodup_singleton _⟩, ∅, 1, 0⟩

theorem jana_created :
    (PasswordChange.createUser 1 "instance" jana).handle samplePlatform emptyDb 0 "secret word" = .ok (janaDb "secret word") := rfl

theorem sample_round_trip : Works samplePlatform (janaDb "secret word") (janaStored "secret word") 256 "secret word" 1 :=
  (password_round_trip samplePlatform samplePlatform_lowers emptyDb (janaDb "secret word") (janaDb "secret word") emptyDb_kept 0 1
    (.createUser 1 "instance" jana) "secret word" jana_created (janaStored "secret word") rfl .refl rfl rfl rfl).mpr (by decide)

/-- A password of ten characters that blanks surround is accepted and refused; its six characters sign in. -/
theorem padded_password_refused :
    (PasswordChange.createUser 1 "instance" jana).handle samplePlatform emptyDb 0 "  secret  " = .ok (janaDb "secret") ∧
    (portalLogin samplePlatform (janaDb "secret") 1 "jana@example.cz" "  secret  " false true).2 =
      .error (invalidCredentials "Neplatne prihlasovaci udaje") ∧
    (portalLogin samplePlatform (janaDb "secret") 1 "jana@example.cz" "secret" false true).2.toOption.isSome ∧
    storedPassword (janaStored "secret") = some "secret" ∧ "secret".length < 8 :=
  ⟨rfl, rfl, rfl, rfl, by decide⟩

end Examples

end Dagmar.Credentials.Accounts.Proofs
