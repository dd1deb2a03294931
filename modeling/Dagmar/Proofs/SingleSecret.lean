import Dagmar.IntegrationSecrets

/-! A client has one active secret as long as no rotation and no revocation misses a
secret that was committed after it had loaded the others. Two rotations side by side
miss each other's. -/

namespace Dagmar.Secrets.Proofs
open Library

section Safety

def SingleSecret (store : Store) : Prop :=
  ∀ first ∈ store.secrets, ∀ second ∈ store.secrets, first.clientId = second.clientId → first.revokedAt = none →
    second.revokedAt = none → first = second

/-- No token from before a rotation or a revocation authenticates. -/
def RetiredForGood (platform : Platform) (store : Store) : Prop :=
  ∀ issue ∈ store.retired, ∀ call, ¬ Authenticates platform store call issue.2

structure SecretsSafe (platform : Platform) (store : Store) : Prop where
  single : SingleSecret store
  retired : RetiredForGood platform store

/-- A rotation or a revocation commits only when it has loaded every secret that it has to revoke. -/
def Complete (world : World Store Session) (who : Nat) (store : Store) : Prop :=
  ∀ action client secrets, world.sessions who = .loaded action client secrets → action = .rotate ∨ action = .revokeSecret →
    store ≠ world.state → ∀ secret ∈ world.state.secrets, secret.clientId = client.id → secret.revokedAt = none → secret ∈ secrets

def ManagesCompletely (platform : Platform) (settings : Settings) : Rule Store Session := fun world who store session =>
  Manages platform settings world who store session ∧ Complete world who store

end Safety

section Stores
variable {platform : Platform} {store : Store}

theorem firstVerified_of_ok {call : Call} {token : String} {secrets : List IntegrationClientSecret} {client : IntegrationClient}
    {secret : IntegrationClientSecret} (found : firstVerified platform store call token secrets = .ok (some (client, secret))) :
    secret ∈ secrets ∧ platform.verify secret.record.tokenHash token = true := by
  induction secrets with
  | nil => cases found
  | cons head rest ih =>
    unfold firstVerified at found
    split at found
    next => exact (ih found).imp_left (List.mem_cons_of_mem _)
    next owner got =>
      split_ifs at found with other
      · exact (ih found).imp_left (List.mem_cons_of_mem _)
      · cases found
        exact ⟨List.mem_cons_self, by simpa using (not_or.mp other).2⟩

theorem authenticates_secret {call : Call} {token : String} (authenticates : Authenticates platform store call token) :
    ∃ secret ∈ store.secrets, secret.revokedAt = none ∧ platform.verify secret.record.tokenHash token = true := by
  obtain ⟨client, secret, found⟩ := authenticates
  unfold verifyIntegrationToken at found
  split at found
  · obtain ⟨member, verified⟩ := firstVerified_of_ok found
    have selected := Table.mem_select.mp ((List.mem_insertionSort _).mp member)
    exact ⟨secret, selected.1, selected.2.2, verified⟩
  · cases found

/-- What a store keeps: every secret was made from a token that was issued for its client, no token was
issued twice, and a retired one has no secret that is not revoked. -/
structure Kept (platform : Platform) (store : Store) : Prop where
  single : SingleSecret store
  owned : ∀ secret ∈ store.secrets, ∃ client ∈ store.clients, client.id = secret.clientId
  made : ∀ secret ∈ store.secrets, ∃ salt token, (secret.clientId, token) ∈ store.issued ∧
    secret.record.tokenHash = platform.hash salt token
  distinct : ∀ first ∈ store.issued, ∀ second ∈ store.issued, first.2 = second.2 → first = second
  past : ∀ issue ∈ store.retired, issue ∈ store.issued
  spent : ∀ issue ∈ store.retired, ∀ secret ∈ store.secrets, secret.revokedAt = none →
    platform.verify secret.record.tokenHash issue.2 = false

theorem Kept.safe (kept : Kept platform store) : SecretsSafe platform store := by
  refine ⟨kept.single, fun issue retired call authenticates => ?_⟩
  obtain ⟨secret, member, unrevoked, verified⟩ := authenticates_secret authenticates
  rw [kept.spent issue retired secret member unrevoked] at verified
  cases verified

theorem Kept.start : Kept platform .start := by
  refine ⟨?_, ?_, ?_, ?_, ?_, ?_⟩ <;> simp [Store.start, SingleSecret]

theorem generateIntegrationToken_inj {first second : List UInt8}
    (same : generateIntegrationToken first = generateIntegrationToken second) : first = second := by
  have encoded := String.ofList_injective ((String.append_right_inj _).mp same)
  have decoded := congrArg (fun text => Base64.urlsafeB64decode (text ++ ['=', '='])) encoded
  simpa only [Base64.urlsafeB64decode_b64url, Option.some.injEq] using decoded

theorem mem_setStatus {client : IntegrationClient} {status : IntegrationClientStatus} {id : Int} :
    (∃ row ∈ (store.setStatus client status).clients, row.id = id) ↔ ∃ row ∈ store.clients, row.id = id := by
  have same (row : IntegrationClient) : (Secrets.setStatus client status row).id = row.id := by
    unfold Secrets.setStatus
    split <;> rfl
  simp only [Store.setStatus, Table.mem_mapRows]
  constructor
  · rintro ⟨_, ⟨row, member, rfl⟩, named⟩
    exact ⟨row, member, (same row).symm.trans named⟩
  · rintro ⟨row, member, named⟩
    exact ⟨_, ⟨row, member, rfl⟩, (same row).trans named⟩

theorem Kept.setStatus (kept : Kept platform store) (client : IntegrationClient) (status : IntegrationClientStatus) :
    Kept platform (store.setStatus client status) :=
  ⟨kept.single, fun secret member => mem_setStatus.mpr (kept.owned secret member), kept.made, kept.distinct, kept.past, kept.spent⟩

theorem revoke_eq {loaded : List IntegrationClientSecret} {now : Int} {rotates : Bool} {row : IntegrationClientSecret}
    (unrevoked : (revoke loaded now rotates row).revokedAt = none) :
    revoke loaded now rotates row = row ∧ ∀ secret ∈ loaded, secret.revokedAt = none → secret.id ≠ row.id := by
  unfold revoke at unrevoked ⊢
  split_ifs at unrevoked ⊢ with listed
  refine ⟨rfl, fun secret member active same => listed ⟨secret, member, active, same⟩⟩

theorem revoke_same (loaded : List IntegrationClientSecret) (now : Int) (rotates : Bool) (row : IntegrationClientSecret) :
    (revoke loaded now rotates row).clientId = row.clientId ∧ (revoke loaded now rotates row).record = row.record := by
  unfold revoke
  split <;> exact ⟨rfl, rfl⟩

theorem mem_revokeLoaded {client : IntegrationClient} {secrets : List IntegrationClientSecret} {now : Int} {rotates : Bool}
    {secret : IntegrationClientSecret} :
    secret ∈ (store.revokeLoaded client secrets now rotates).secrets ↔ ∃ row ∈ store.secrets, revoke secrets now rotates row = secret := by
  simp only [Store.revokeLoaded, Table.mem_mapRows]

theorem revokeLoaded_unrevoked {client : IntegrationClient} {secrets : List IntegrationClientSecret} {now : Int} {rotates : Bool}
    {secret : IntegrationClientSecret} (member : secret ∈ (store.revokeLoaded client secrets now rotates).secrets)
    (unrevoked : secret.revokedAt = none) :
    secret ∈ store.secrets ∧ ∀ loaded ∈ secrets, loaded.revokedAt = none → loaded.id ≠ secret.id := by
  obtain ⟨row, inside, rfl⟩ := mem_revokeLoaded.mp member
  obtain ⟨same, unlisted⟩ := revoke_eq unrevoked
  exact same.symm ▸ ⟨inside, unlisted⟩

/-- A rotation or a revocation that has loaded all secrets leaves the client none. -/
theorem Kept.revokeLoaded (hashes : ∀ salt token other, platform.verify (platform.hash salt token) other = true ↔ token = other)
    (kept : Kept platform store) {client : IntegrationClient} {secrets : List IntegrationClientSecret} (now : Int) (rotates : Bool)
    (complete : ∀ secret ∈ store.secrets, secret.clientId = client.id → secret.revokedAt = none → secret ∈ secrets) :
    Kept platform (store.revokeLoaded client secrets now rotates) ∧
      ∀ secret ∈ (store.revokeLoaded client secrets now rotates).secrets, secret.revokedAt = none → secret.clientId ≠ client.id := by
  have others : ∀ secret ∈ (store.revokeLoaded client secrets now rotates).secrets, secret.revokedAt = none →
      secret.clientId ≠ client.id := by
    intro secret member unrevoked same
    obtain ⟨inside, unlisted⟩ := revokeLoaded_unrevoked member unrevoked
    exact unlisted secret (complete secret inside same unrevoked) unrevoked rfl
  refine ⟨⟨?_, ?_, ?_, kept.distinct, ?_, ?_⟩, others⟩
  · intro first left second right same unrevoked too
    exact kept.single first (revokeLoaded_unrevoked left unrevoked).1 second (revokeLoaded_unrevoked right too).1 same unrevoked too
  · intro secret member
    obtain ⟨row, inside, rfl⟩ := mem_revokeLoaded.mp member
    rw [(revoke_same ..).1]
    exact kept.owned row inside
  · intro secret member
    obtain ⟨row, inside, rfl⟩ := mem_revokeLoaded.mp member
    rw [(revoke_same ..).1, (revoke_same ..).2]
    exact kept.made row inside
  · intro issue member
    rcases List.mem_append.mp member with now | before
    · exact (List.mem_filter.mp now).1
    · exact kept.past issue before
  · intro issue member secret inside unrevoked
    have stored := (revokeLoaded_unrevoked inside unrevoked).1
    rcases List.mem_append.mp member with now | before
    · obtain ⟨issued, named⟩ := List.mem_filter.mp now
      obtain ⟨salt, token, mine, hashed⟩ := kept.made secret stored
      rw [hashed, Bool.eq_false_iff, Ne, hashes]
      rintro rfl
      have same := kept.distinct _ mine _ issued rfl
      exact others secret inside unrevoked ((congrArg Prod.fst same).trans (of_decide_eq_true named))
    · exact kept.spent issue before secret stored unrevoked

/-- A new secret of a client that has none. -/
theorem Kept.issue (hashes : ∀ salt token other, platform.verify (platform.hash salt token) other = true ↔ token = other)
    (kept : Kept platform store) (secretId : Int) {clientId : Int} {token : String} (random : ∀ issue ∈ store.issued, issue.2 ≠ token)
    (salt : String) (owned : ∃ client ∈ store.clients, client.id = clientId)
    (alone : ∀ secret ∈ store.secrets, secret.revokedAt = none → secret.clientId ≠ clientId) :
    Kept platform (store.issue platform clientId secretId salt token) := by
  have secrets : ∀ secret ∈ (store.issue platform clientId secretId salt token).secrets,
      secret ∈ store.secrets ∨ secret = ⟨secretId, clientId, buildTokenRecord platform salt token, none, none⟩ := by
    intro secret member
    rcases Table.mem_put.mp member with rfl | ⟨inside, -⟩
    · exact .inr rfl
    · exact .inl inside
  refine ⟨?_, ?_, ?_, ?_, ?_, ?_⟩
  · intro first left second right same unrevoked too
    rcases secrets first left with one | rfl
    · rcases secrets second right with two | rfl
      · exact kept.single first one second two same unrevoked too
      · exact absurd same (alone first one unrevoked)
    · rcases secrets second right with two | rfl
      · exact absurd same.symm (alone second two too)
      · rfl
  · intro secret member
    rcases secrets secret member with inside | rfl
    · exact kept.owned secret inside
    · exact owned
  · intro secret member
    rcases secrets secret member with inside | rfl
    · obtain ⟨salt, token, issued, hashed⟩ := kept.made secret inside
      exact ⟨salt, token, List.mem_cons_of_mem _ issued, hashed⟩
    · exact ⟨salt, _, List.mem_cons_self, rfl⟩
  · intro first left second right same
    rcases List.mem_cons.mp left with rfl | one
    · rcases List.mem_cons.mp right with rfl | two
      · rfl
      · exact absurd same.symm (random second two)
    · rcases List.mem_cons.mp right with rfl | two
      · exact absurd same (random first one)
      · exact kept.distinct first one second two same
  · exact fun issue member => List.mem_cons_of_mem _ (kept.past issue member)
  · intro issue member secret inside unrevoked
    rcases secrets secret inside with stored | rfl
    · exact kept.spent issue member secret stored unrevoked
    · rw [Bool.eq_false_iff]
      intro verified
      exact random issue (kept.past issue member) ((hashes ..).mp verified).symm

end Stores

section Sessions
variable {platform : Platform} {settings : Settings} {world : World Store Session} {who : Nat} {store : Store} {session : Session}

/-- Clients are never deleted, so one that was loaded is still there. -/
def Loads (store : Store) : Session → Prop
  | .found _ client | .loaded _ client _ => ∃ row ∈ store.clients, row.id = client.id
  | _ => True

theorem Loads.mono {next : Store} (loads : Loads store session)
    (grows : ∀ id, (∃ row ∈ store.clients, row.id = id) → ∃ row ∈ next.clients, row.id = id) : Loads next session := by
  cases session with
  | idle => trivial
  | found action client => exact grows _ loads
  | loaded action client secrets => exact grows _ loads
  | checked draft => trivial

structure Sound (platform : Platform) (world : World Store Session) : Prop where
  kept : Kept platform world.state
  loads : ∀ who, Loads world.state (world.sessions who)

theorem Sound.move (sound : Sound platform world) (kept : Kept platform store) (mine : Loads store session)
    (grows : ∀ id, (∃ row ∈ world.state.clients, row.id = id) → ∃ row ∈ store.clients, row.id = id) :
    Sound platform (world.move who store session) :=
  ⟨kept, World.forall_move _ mine fun other _ => (sound.loads other).mono grows⟩

theorem Kept.addClient (kept : Kept platform store) (client : IntegrationClient) (unique : ∀ other ∈ store.clients, other.id ≠ client.id) :
    Kept platform { store with clients := store.clients.put client } := by
  refine ⟨kept.single, fun secret member => ?_, kept.made, kept.distinct, kept.past, kept.spent⟩
  obtain ⟨owner, inside, named⟩ := kept.owned secret member
  exact ⟨owner, Table.mem_put.mpr (.inr ⟨inside, unique owner inside⟩), named⟩

/-- Every commit keeps the store, and no client goes. -/
theorem Sound.commit (hashes : ∀ salt token other, platform.verify (platform.hash salt token) other = true ↔ token = other)
    (sound : Sound platform world) (allowed : ManagesCompletely platform settings world who store session) :
    Kept platform store ∧ ∀ id, (∃ row ∈ world.state.clients, row.id = id) → ∃ row ∈ store.clients, row.id = id := by
  obtain ⟨step, complete⟩ := allowed
  have kept := sound.kept
  have loads := sound.loads who
  by_cases unchanged : store = world.state
  · rw [unchanged]
    exact ⟨kept, fun _ there => there⟩
  cases step with
  | abandon => exact absurd rfl unchanged
  | check => exact absurd rfl unchanged
  | find => exact absurd rfl unchanged
  | load => exact absurd rfl unchanged
  | @create draft id secretId salt raw checked unique draws =>
    have added := kept.addClient ⟨id, draft.name, .active, draft.scopes, draft.ipAllowlist, draft.expiresAt⟩
      fun other member => (unique other member).1
    have alone : ∀ secret ∈ world.state.secrets, secret.revokedAt = none → secret.clientId ≠ id := by
      intro secret member _ same
      obtain ⟨owner, inside, named⟩ := kept.owned secret member
      exact (unique owner inside).1 (named.trans same)
    refine ⟨added.issue hashes secretId draws.random salt ⟨_, Table.mem_put.mpr (.inl rfl), rfl⟩ alone, ?_⟩
    rintro other ⟨row, member, named⟩
    exact ⟨row, Table.mem_put.mpr (.inr ⟨member, (unique row member).1⟩), named⟩
  | @rotate client secrets now secretId salt raw loaded draws =>
    rw [loaded] at loads
    obtain ⟨revoked, others⟩ := kept.revokeLoaded hashes now true (complete _ _ _ loaded (.inl rfl) unchanged)
    have issued := revoked.issue hashes secretId draws.random salt loads others
    exact ⟨issued.setStatus client _, fun id there => mem_setStatus.mpr there⟩
  | @disable client secrets loaded => exact ⟨kept.setStatus client .disabled, fun id there => mem_setStatus.mpr there⟩
  | @enable client secrets loaded permitted => exact ⟨kept.setStatus client .active, fun id there => mem_setStatus.mpr there⟩
  | @revokeSecret client secrets now loaded =>
    obtain ⟨revoked, -⟩ := kept.revokeLoaded hashes now false (complete _ _ _ loaded (.inr rfl) unchanged)
    exact ⟨revoked.setStatus client .revoked, fun id there => mem_setStatus.mpr there⟩

theorem Sound.step (hashes : ∀ salt token other, platform.verify (platform.hash salt token) other = true ↔ token = other)
    (sound : Sound platform world) (allowed : ManagesCompletely platform settings world who store session) :
    Sound platform (world.move who store session) := by
  obtain ⟨kept, grows⟩ := sound.commit hashes allowed
  refine sound.move kept ?_ grows
  have loads := sound.loads who
  cases allowed.1 with
  | @find client action idle found => exact ⟨client, found, rfl⟩
  | load found =>
    rw [found] at loads
    exact loads
  | _ => trivial

end Sessions

section Main

/-- As long as no rotation and no revocation misses a secret, a client has at most one that is
active, and what came before a rotation or a revocation never authenticates again. -/
theorem secrets_safe (platform : Platform) (settings : Settings)
    (hashes : ∀ salt token other, platform.verify (platform.hash salt token) other = true ↔ token = other)
    {world : World Store Session} (reached : Reaches (ManagesCompletely platform settings) (World.quiet .start .idle) world) :
    SecretsSafe platform world.state := by
  have start : Sound platform (World.quiet .start .idle) := ⟨.start, fun _ => trivial⟩
  have sound : Sound platform world := reached.keeps (Sound platform) start fun _ _ _ _ before allowed => before.step hashes allowed
  exact sound.kept.safe

end Main

section Misses
variable {platform : Platform} {store : Store}

/-- What a rotation commits that has loaded these secrets. -/
def rotated (platform : Platform) (store : Store) (client : IntegrationClient) (secrets : List IntegrationClientSecret)
    (now secretId : Int) (salt token : String) : Store :=
  ((store.revokeLoaded client secrets now true).issue platform client.id secretId salt token).setStatus client
    (if client.status = .revoked then .active else client.status)

theorem mem_rotated_new (client : IntegrationClient) (secrets : List IntegrationClientSecret) (now secretId : Int)
    (salt token : String) :
    ⟨secretId, client.id, buildTokenRecord platform salt token, none, none⟩ ∈
      (rotated platform store client secrets now secretId salt token).secrets :=
  Table.mem_put.mpr (.inl rfl)

/-- A secret that was not loaded stays as it is. -/
theorem mem_rotated_missed {secret : IntegrationClientSecret} (member : secret ∈ store.secrets) {client : IntegrationClient}
    {secrets : List IntegrationClientSecret} (missed : ∀ loaded ∈ secrets, loaded.id ≠ secret.id) {secretId : Int}
    (numbered : secret.id ≠ secretId) (now : Int) (salt token : String) :
    secret ∈ (rotated platform store client secrets now secretId salt token).secrets := by
  have kept : revoke secrets now true secret = secret := by
    unfold revoke
    rw [if_neg]
    rintro ⟨loaded, inside, -, same⟩
    exact missed loaded inside same
  exact Table.mem_put.mpr (.inr ⟨mem_revokeLoaded.mpr ⟨secret, member, kept⟩, numbered⟩)

/-- A rotation that misses an active secret of its client leaves two. -/
theorem rotated_not_single {secret : IntegrationClientSecret} (member : secret ∈ store.secrets) (unrevoked : secret.revokedAt = none)
    {client : IntegrationClient} (owned : secret.clientId = client.id) {secrets : List IntegrationClientSecret}
    (missed : ∀ loaded ∈ secrets, loaded.id ≠ secret.id) {secretId : Int} (numbered : secret.id ≠ secretId) (now : Int)
    (salt token : String) : ¬ SingleSecret (rotated platform store client secrets now secretId salt token) := by
  intro single
  have same := single secret (mem_rotated_missed member missed numbered now salt token) _ (mem_rotated_new ..) owned unrevoked rfl
  exact numbered (congrArg IntegrationClientSecret.id same)

/-- Where every client may be used from anywhere, a secret that is not revoked admits its token. -/
theorem authenticates_of_active (hashes : ∀ salt token other, platform.verify (platform.hash salt token) other = true ↔ token = other)
    {secret : IntegrationClientSecret} (member : secret ∈ store.secrets) (unrevoked : secret.revokedAt = none) {salt token : String}
    (record : secret.record = buildTokenRecord platform salt token) (hashed : platform.hash salt token ≠ "")
    (format : validateIntegrationTokenFormat token = true)
    (usable : ∀ client ∈ store.clients, clientIsActive client ∧ client.expiresAt = none ∧ client.ipAllowlist = [])
    (owned : store.clients.get secret.clientId ≠ none) (call : Call) : Authenticates platform store call token := by
  have verifies : platform.verify secret.record.tokenHash token = true := by
    rw [record]
    exact (hashes salt token token).mpr rfl
  have named : secret.record.tokenHash ≠ "" := by
    rw [record]
    exact hashed
  have listed : secret ∈ candidates platform store token := by
    rw [candidates, List.mem_insertionSort, Table.mem_select]
    exact ⟨member, congrArg IntegrationTokenRecord.tokenPrefix record, unrevoked⟩
  have found : ∀ secrets : List IntegrationClientSecret, secret ∈ secrets →
      ∃ client first, firstVerified platform store call token secrets = .ok (some (client, first)) := by
    intro secrets inside
    induction secrets with
    | nil => cases inside
    | cons head rest ih =>
      have later (other : secret ≠ head) := ih ((List.mem_cons.mp inside).resolve_left other)
      unfold firstVerified
      split
      next unowned => exact later fun same => owned (same ▸ unowned)
      next client got =>
        obtain ⟨active, unexpiring, unrestricted⟩ := usable client (Table.get_eq_some_iff.mp got).1
        have unexpired : ¬ clientIsExpired client call.now := by simp [clientIsExpired, unexpiring]
        have allowed : ¬ ipAllowed platform client call.sourceIp = false := by simp [ipAllowed, unrestricted]
        split_ifs with other
        · refine later fun same => ?_
          rw [← same] at other
          rcases other with empty | refused
          · exact named empty
          · exact absurd verifies (by simp [refused])
        · exact ⟨client, head, rfl⟩
  obtain ⟨client, first, ok⟩ := found _ listed
  exact ⟨client, first, by rw [verifyIntegrationToken, if_pos format, ok]⟩

end Misses

section Samples

/-- A token by its first byte, with its salt and its digests: of itself, of the text of its fingerprint, and by Argon2. -/
structure Sample where
  first : Nat
  salt : String
  sha256 : String
  fingerprint : String
  encoded : String

def Sample.raw (sample : Sample) : List UInt8 := (List.range 32).map fun i => UInt8.ofNat (sample.first + i)

def Sample.token (sample : Sample) : String := generateIntegrationToken sample.raw

/-- The parameters, the salt and the hash stand each after a dollar sign. -/
def Sample.argon2 (sample : Sample) : String := "$" ++ sample.encoded

def firstToken : Sample where
  first := 1
  salt := "Jf3kW9sLq0vTz7Yb"
  sha256 := "abe8b8f5942f634bf60f6adb89c074091c43efb884b9d418178059f636b12360"
  fingerprint := "6cdd3807599ec7f4a73258758b33bd2ff4a01c0a61986491bbc6595f3a499d5f"
  encoded := "argon2id$v=19$m=65536,t=3,p=4$SmYza1c5c0xxMHZUejdZYg$Qzx7+6uicA1HCm4KJQ9+topja5plp8Ofn63yf1RjWaQ"

def secondToken : Sample where
  first := 101
  salt := "aX5nR2mHc8dPe1Gu"
  sha256 := "7b34e8455baab14d7ca8385412f1abb0c31991092ff16dd647fb490da3480e56"
  fingerprint := "e70e426fafe7f1ff2ea34fce533b23522b98a0d8d340ccd68bb973f0f47a0b14"
  encoded := "argon2id$v=19$m=65536,t=3,p=4$YVg1blIybUhjOGRQZTFHdQ$ojAn2FyBa0j+gQpi35QGAM72O7UfB3oYRIi4GBilOn0"

def thirdToken : Sample where
  first := 201
  salt := "oT6iQ4yKw3bVj9Zs"
  sha256 := "d1f52e42b52eac4628a6fe03f2063239b16702127dfa895f248d23b84fc84a5e"
  fingerprint := "79d039b3359289a8e3344ae7afa30ddba34eb15a4ad9d392330653119ad1a139"
  encoded := "argon2id$v=19$m=65536,t=3,p=4$b1Q2aVE0eUt3M2JWajlacw$SpSb/g17JiwKCg5uV+mCaYDjEqn9R5fOZ5BxW+SAbiA"

def samples : List Sample := [firstToken, secondToken, thirdToken]

/-- The digests of the samples; of another text Argon2 leaves it readable. -/
def samplePlatform : Platform where
  sha256 text :=
    match samples.find? fun sample => sample.token = text ∨ "fingerprint:" ++ sample.token = text with
    | some sample => if sample.token = text then sample.sha256 else sample.fingerprint
    | none => ""
  hash salt token :=
    match samples.find? fun sample => sample.salt = salt ∧ sample.token = token with
    | some sample => sample.argon2
    | none => "." ++ token
  verify hash token :=
    match samples.find? fun sample => sample.argon2 = hash with
    | some sample => sample.token = token
    | none => hash = "." ++ token
  parsesIp _ := false
  containsIp _ _ := false

theorem argon2_ne (sample : Sample) (token : String) : sample.argon2 ≠ "." ++ token := by
  intro same
  have heads := congrArg (fun text => text.toList.head?) same
  simp only [Sample.argon2, String.toList_append] at heads
  cases heads

theorem samples_distinct : ∀ first ∈ samples, ∀ second ∈ samples, first.argon2 = second.argon2 → first = second := by
  have apart : firstToken.encoded ≠ secondToken.encoded ∧ firstToken.encoded ≠ thirdToken.encoded ∧
      secondToken.encoded ≠ thirdToken.encoded := ⟨by decide, by decide, by decide⟩
  have distinct : (samples.map Sample.encoded).Nodup := by
    simp only [samples, List.map_cons, List.map_nil, List.nodup_cons, List.mem_cons, List.not_mem_nil, or_false, not_or,
      not_false_iff, List.nodup_nil, and_true]
    exact ⟨⟨apart.1, apart.2.1⟩, apart.2.2⟩
  exact fun first left second right same => List.inj_on_of_nodup_map distinct left right ((String.append_right_inj _).mp same)

theorem samplePlatform_hashes (salt token other : String) :
    samplePlatform.verify (samplePlatform.hash salt token) other = true ↔ token = other := by
  cases found : samples.find? fun sample => sample.salt = salt ∧ sample.token = token with
  | some sample =>
    have member := List.mem_of_find?_eq_some found
    have chosen : sample.salt = salt ∧ sample.token = token := by simpa using List.find?_some found
    have again : samples.find? (fun other => other.argon2 = sample.argon2) = some sample := by
      cases looked : samples.find? (fun other => other.argon2 = sample.argon2) with
      | none => exact absurd (decide_eq_true rfl) (List.find?_eq_none.mp looked sample member)
      | some one =>
        have same : one.argon2 = sample.argon2 := by simpa using List.find?_some looked
        rw [samples_distinct one (List.mem_of_find?_eq_some looked) sample member same]
    simp only [samplePlatform, found, again, decide_eq_true_eq, chosen.2]
  | none =>
    have unknown : samples.find? (fun sample => sample.argon2 = "." ++ token) = none := by
      refine List.find?_eq_none.mpr fun sample _ same => ?_
      exact argon2_ne sample token (of_decide_eq_true same)
    simp only [samplePlatform, found, unknown, decide_eq_true_eq]
    exact String.append_right_inj _

def sampleSettings : Settings := ⟨32⟩

/-- The client that a request creates; nobody else does anything yet. -/
def sampleDraft : Draft := ⟨"Portal", ["employments:read"], [], none⟩

def sampleClient : IntegrationClient := ⟨1, "Portal", .active, ["employments:read"], [], none⟩

def sampleSecret (id : Int) (sample : Sample) : IntegrationClientSecret :=
  ⟨id, 1, buildTokenRecord samplePlatform sample.salt sample.token, none, none⟩

def created : Store := { Store.start with clients := Table.put ∅ sampleClient }.issue samplePlatform 1 1 firstToken.salt firstToken.token

theorem samples_random : firstToken.token ≠ secondToken.token ∧ firstToken.token ≠ thirdToken.token ∧
    secondToken.token ≠ thirdToken.token := by
  refine ⟨?_, ?_, ?_⟩ <;> exact fun same => absurd (generateIntegrationToken_inj same) (by decide)

theorem complete_of_store {world : World Store Session} {who : Nat} : Complete world who world.state :=
  fun _ _ _ _ _ changed => absurd rfl changed

/-- A request loads the client and all its secrets. -/
theorem secrets_loaded {platform : Platform} {settings : Settings} {world : World Store Session} {who : Nat}
    (idle : world.sessions who = .idle) (action : Action) {client : IntegrationClient} (found : client ∈ world.state.clients) :
    Reaches (ManagesCompletely platform settings) world
      (world.move who world.state (.loaded action client (world.state.secrets.select (·.clientId = client.id)))) :=
  (Reaches.step .refl who ⟨.find action idle found, complete_of_store⟩).again
    ⟨.load (World.move_self ..), complete_of_store⟩

theorem sample_created : Reaches (ManagesCompletely samplePlatform sampleSettings) (World.quiet .start .idle)
    ((World.quiet .start .idle).move 0 created .idle) := by
  have check : ManagesCompletely samplePlatform sampleSettings (World.quiet .start .idle) 0 Store.start (.checked sampleDraft) :=
    ⟨.check sampleDraft rfl fun _ member => absurd member (Table.not_mem_empty _), complete_of_store⟩
  have draws : Store.start.Draws sampleSettings 1 firstToken.raw :=
    ⟨by decide, by simp [Store.start], fun _ member => absurd member (Table.not_mem_empty _)⟩
  refine (Reaches.step .refl 0 check).again ⟨.create 1 1 firstToken.salt firstToken.raw (World.move_self ..) ?_ draws, ?_⟩
  · exact fun _ member => absurd member (Table.not_mem_empty _)
  · intro action client secrets loaded
    rw [World.move_self] at loaded
    cases loaded

theorem sample_loaded : Reaches (ManagesCompletely samplePlatform sampleSettings) (World.quiet .start .idle)
    ((World.quiet .start .idle).move 0 created (.loaded .rotate sampleClient (created.secrets.select (·.clientId = 1)))) := by
  have looked := sample_created.trans (secrets_loaded (World.move_self ..) .rotate (Table.mem_put.mpr (.inl rfl)))
  rw [World.move_move] at looked
  exact looked

theorem mem_created {secret : IntegrationClientSecret} (member : secret ∈ created.secrets) : secret = sampleSecret 1 firstToken :=
  (Table.mem_put.mp member).resolve_right fun none => absurd none.1 (Table.not_mem_empty _)

/-- A client is created and its secret is rotated. -/
theorem sample_secrets_safe : ∃ world,
    Reaches (ManagesCompletely samplePlatform sampleSettings) (World.quiet .start .idle) world ∧
      (1, firstToken.token) ∈ world.state.retired ∧ sampleSecret 2 secondToken ∈ world.state.secrets ∧
      SecretsSafe samplePlatform world.state := by
  have draws : created.Draws sampleSettings 2 secondToken.raw := by
    refine ⟨by decide, List.forall_mem_singleton.mpr samples_random.1, fun secret member => ?_⟩
    rw [mem_created member]
    decide
  have rotated := sample_loaded.again ⟨.rotate 100 2 secondToken.salt secondToken.raw (World.move_self ..) draws, ?_⟩
  · refine ⟨_, rotated, ?_, mem_rotated_new .., secrets_safe samplePlatform sampleSettings samplePlatform_hashes rotated⟩
    exact List.mem_append_left _ (List.mem_filter.mpr ⟨List.mem_singleton_self _, rfl⟩)
  · intro action client secrets stands _ _ secret member owned _
    rw [World.move_self] at stands
    cases stands
    exact Table.mem_select.mpr ⟨member, owned⟩

/-- What the rotations of the sample client commit that have loaded its first secret only. -/
def rotatedOnce : Store :=
  rotated samplePlatform created sampleClient (created.secrets.select (·.clientId = 1)) 100 2 secondToken.salt secondToken.token

def rotatedTwice : Store :=
  rotated samplePlatform rotatedOnce sampleClient (created.secrets.select (·.clientId = 1)) 100 3 thirdToken.salt thirdToken.token

theorem mem_rotatedOnce {secret : IntegrationClientSecret} (member : secret ∈ rotatedOnce.secrets) : secret.id = 1 ∨ secret.id = 2 := by
  rcases Table.mem_put.mp member with rfl | ⟨old, -⟩
  · exact .inr rfl
  · obtain ⟨row, inside, rfl⟩ := mem_revokeLoaded.mp old
    rw [mem_created inside]
    unfold revoke
    split <;> exact .inl rfl

theorem sample_rotatedTwice : ∃ world, Reaches (Manages samplePlatform sampleSettings) (World.quiet .start .idle) world ∧
    world.state = rotatedTwice := by
  have loosely (world : World Store Session) (who : Nat) (store : Store) (session : Session)
      (allowed : ManagesCompletely samplePlatform sampleSettings world who store session) :
      Manages samplePlatform sampleSettings world who store session := allowed.1
  have zero := Reaches.mono sample_loaded loosely
  -- The second request loads the client before the first one commits.
  have one := zero.trans (Reaches.mono (@secrets_loaded samplePlatform sampleSettings _ 1 rfl .rotate sampleClient
    (Table.mem_put.mpr (.inl rfl))) loosely)
  have draws : created.Draws sampleSettings 2 secondToken.raw := by
    refine ⟨by decide, List.forall_mem_singleton.mpr samples_random.1, fun secret member => ?_⟩
    rw [mem_created member]
    decide
  have first := Reaches.step one 0 (.rotate 100 2 secondToken.salt secondToken.raw rfl draws)
  have drawsAgain : rotatedOnce.Draws sampleSettings 3 thirdToken.raw := by
    refine ⟨by decide, List.forall_mem_cons.mpr ⟨samples_random.2.2, List.forall_mem_singleton.mpr samples_random.2.1⟩, ?_⟩
    intro secret member
    rcases mem_rotatedOnce member with named | named <;> rw [named] <;> decide
  exact ⟨_, Reaches.step first 1 (.rotate 100 3 thirdToken.salt thirdToken.raw rfl drawsAgain), rfl⟩

/-- Two rotations that have both loaded the first secret leave two, and the token of the earlier one
still authenticates. -/
theorem secrets_doubled : ∃ world, Reaches (Manages samplePlatform sampleSettings) (World.quiet .start .idle) world ∧
    ¬ SingleSecret world.state ∧ ¬ RetiredForGood samplePlatform world.state := by
  obtain ⟨world, reached, state⟩ := sample_rotatedTwice
  have second : sampleSecret 2 secondToken ∈ rotatedOnce.secrets := mem_rotated_new ..
  have missed : ∀ loaded ∈ created.secrets.select (·.clientId = 1), loaded.id ≠ (sampleSecret 2 secondToken).id := by
    intro loaded member
    rw [mem_created (Table.mem_select.mp member).1]
    decide
  have apart : (sampleSecret 2 secondToken).id ≠ 3 := by decide
  have doubled : ¬ SingleSecret rotatedTwice := rotated_not_single second rfl rfl missed apart _ _ _
  refine ⟨world, reached, state ▸ doubled, fun retired => ?_⟩
  rw [state] at retired
  have earlier : (1, secondToken.token) ∈ rotatedTwice.retired :=
    List.mem_append_left _ (List.mem_filter.mpr ⟨List.mem_cons_self, rfl⟩)
  have kept : sampleSecret 2 secondToken ∈ rotatedTwice.secrets := mem_rotated_missed second missed apart _ _ _
  have hashed : samplePlatform.hash secondToken.salt secondToken.token ≠ "" := by decide +kernel
  refine retired _ earlier ⟨200, none⟩ (authenticates_of_active samplePlatform_hashes kept rfl rfl hashed (by decide +kernel) ?_ ?_ _)
  · decide +kernel
  · decide +kernel

end Samples

end Dagmar.Secrets.Proofs
