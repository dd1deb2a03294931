import Dagmar.Proofs.IdentityHistory
import Dagmar.Proofs.OneTimeLogins

/-! Identities and sign-ins in every world that requests reach side by side. A transaction
has been in the hands of one request since its callback consumed it, and a confirmation
since its password was verified, so what they are used for happens once. -/

namespace Dagmar.ExternalAuth.Proofs
open Library Library.Outcome OAuth

section Invariant
variable (settings : Settings)

/-- The consumed transaction that a request works for. -/
def Hand : Flow → String → Prop
  | .consumed id, key => id = key
  | .exchanging row, key | .validated row _, key | .unowned row _, key | .identified row _ _, key
  | .admitted row _ _ _, key => row.id = key
  | _, _ => False

/-- The confirmation that a request works with. -/
def Keeps : Flow → Nat → Prop
  | .confirmed confirmation, number | .unlinked confirmation, number | .unlinking confirmation _ _, number =>
    confirmation.number = number
  | _, _ => False

def Linked (history : List Entry) (identity : ExternalIdentity) : Prop :=
  ∃ link linked, .linked link linked ∈ history ∧ SameOwner linked identity

/-- A request has a row with a token that was accepted for it, and nothing was done with that yet. -/
def Accepted (history : List Entry) (purpose : Purpose) (row : Transaction) (claims : ProviderClaims) : Prop :=
  (∃ confirmation, Presented settings history confirmation row.opened claims) ∧ row.purpose = purpose ∧ Unfinished history row.id

/-- What a request may rely on between its steps. -/
def Standing (store : Store) : Flow → Prop
  | .confirmed confirmation | .unlinked confirmation =>
    .confirmed confirmation ∈ store.history ∧ Unspent store.history confirmation.number
  | .locked callback row =>
    row ∈ store.transactions ∧ row.stateHash = settings.sha256 callback.state ∧ row.provider = callback.provider
  | .consumed id =>
    (∃ account row, .started account row ∈ store.history ∧ row.id = id) ∧ (∀ idToken, .accepted id idToken ∉ store.history) ∧
      Unfinished store.history id
  | .exchanging row =>
    (∃ account, .started account row.opened ∈ store.history) ∧ (∀ idToken, .accepted row.id idToken ∉ store.history) ∧
      Unfinished store.history row.id
  | .validated row claims => ∃ purpose, Accepted settings store.history purpose row claims
  | .unowned row claims => Accepted settings store.history .link row claims
  | .identified row claims identity =>
    Accepted settings store.history .login row claims ∧ Linked store.history identity ∧
      identity.hasSubject row.provider claims ∧ identity.accountType = row.portal
  | .admitted row claims identity account =>
    Accepted settings store.history .login row claims ∧ Linked store.history identity ∧
      identity.hasSubject row.provider claims ∧ identity.isOf row.provider account
  | .unlinking confirmation identity _ =>
    Linked store.history identity ∧ .confirmed confirmation ∈ store.history ∧
      Unspent store.history confirmation.number
  | _ => True

/-- Two identities share neither a subject nor a provider of one account. -/
structure Apart (first second : ExternalIdentity) : Prop where
  subject : ¬ (first.provider = second.provider ∧ first.issuer = second.issuer ∧ first.subject = second.subject)
  account : ∀ account, first.isOf first.provider account → ¬ second.isOf first.provider account

/-- What holds between commits. -/
structure Stored (store : Store) : Prop where
  lawful : Lawful (Justified settings) store.history
  rows : ∀ row ∈ store.transactions, ∃ account, .started account row.opened ∈ store.history
  spent : ∀ row ∈ store.transactions, ∀ callback, .consumed row.id callback ∈ store.history → row.consumedAt ≠ none
  linked : ∀ identity ∈ store.identities, Linked store.history identity
  kept : ∀ identity ∈ store.identities, ∀ owner, .unlinked owner identity.id ∉ store.history
  apart : ∀ first ∈ store.identities, ∀ second ∈ store.identities, first.id ≠ second.id → Apart first second

structure Sound (world : World Store Flow) : Prop where
  stored : Stored settings world.state
  standing : ∀ who, Standing settings world.state (world.sessions who)
  hands : ∀ who id, Hand (world.sessions who) id → ∃ callback, .consumed id callback ∈ world.state.history
  single : Exclusive Hand (fun _ _ => False) world
  numbers : ∀ who number, Keeps (world.sessions who) number →
    ∃ confirmation, .confirmed confirmation ∈ world.state.history ∧ confirmation.number = number
  own : Exclusive Keeps (fun _ _ => False) world
  locks : Exclusive HoldsRow (fun _ _ => False) world

end Invariant

section Tables
variable {settings : Settings} {store : Store}

theorem Linked.later {history : List Entry} {identity : ExternalIdentity} (linked : Linked history identity) (entry : Entry) :
    Linked (entry :: history) identity := by
  obtain ⟨link, first, member, same⟩ := linked
  exact ⟨link, first, List.mem_cons_of_mem _ member, same⟩

theorem SameOwner.apart {first second changed : ExternalIdentity} (same : SameOwner first changed) :
    (Apart first second → Apart changed second) ∧ (Apart second first → Apart second changed) := by
  obtain ⟨-, accountType, portalUserId, adminUsername, provider, issuer, subject⟩ := same
  constructor
  · intro apart
    refine ⟨?_, ?_⟩
    · rw [provider, issuer, subject]
      exact apart.subject
    · intro account owned
      rw [provider] at owned ⊢
      apply apart.account account
      cases account <;> simpa only [ExternalIdentity.isOf, accountType, provider, portalUserId, adminUsername] using owned
  · intro apart
    refine ⟨?_, ?_⟩
    · rw [provider, issuer, subject]
      exact apart.subject
    · intro account owned
      have other := apart.account account owned
      cases account <;> simpa only [ExternalIdentity.isOf, accountType, provider, portalUserId, adminUsername] using other

theorem Stored.start (accounts : Credentials.Db) : Stored settings (Store.start accounts) := by
  refine ⟨trivial, ?_, ?_, ?_, ?_, ?_⟩
  all_goals
    intro row member
    cases member

/-- Rows may go. -/
theorem Stored.narrow (stored : Stored settings store) {next : Store} (same : next.history = store.history)
    (rows : ∀ row ∈ next.transactions, row ∈ store.transactions)
    (identities : ∀ identity ∈ next.identities, identity ∈ store.identities) : Stored settings next := by
  refine ⟨?_, ?_, ?_, ?_, ?_, ?_⟩
  · rw [same]
    exact stored.lawful
  · rw [same]
    exact fun row member => stored.rows row (rows row member)
  · rw [same]
    exact fun row member => stored.spent row (rows row member)
  · rw [same]
    exact fun identity member => stored.linked identity (identities identity member)
  · rw [same]
    exact fun identity member => stored.kept identity (identities identity member)
  · exact fun first one second two => stored.apart first (identities first one) second (identities second two)

theorem Stored.log (stored : Stored settings store) (entry : Entry) (justified : Justified settings store.history entry)
    (spent : ∀ callback, ∀ row ∈ store.transactions, entry = .consumed row.id callback → row.consumedAt ≠ none)
    (kept : ∀ owner, ∀ identity ∈ store.identities, entry ≠ .unlinked owner identity.id) :
    Stored settings (store.log entry) := by
  refine ⟨⟨justified, stored.lawful⟩, ?_, ?_, ?_, ?_, stored.apart⟩
  · intro row member
    obtain ⟨account, started⟩ := stored.rows row member
    exact ⟨account, List.mem_cons_of_mem _ started⟩
  · intro row member callback consumed
    rcases List.mem_cons.mp consumed with now | before
    · exact spent callback row member now.symm
    · exact stored.spent row member callback before
  · exact fun identity member => (stored.linked identity member).later entry
  · intro identity member owner unlinked
    rcases List.mem_cons.mp unlinked with now | before
    · exact kept owner identity member now.symm
    · exact stored.kept identity member owner before

theorem Stored.write (stored : Stored settings store) {next : Transaction}
    (started : ∃ account, .started account next.opened ∈ store.history)
    (spent : ∀ callback, .consumed next.id callback ∈ store.history → next.consumedAt ≠ none) :
    Stored settings (store.write next) := by
  refine ⟨stored.lawful, ?_, ?_, stored.linked, stored.kept, stored.apart⟩
  · intro row member
    rcases Table.mem_put.mp member with new | ⟨old, -⟩
    · rw [new]
      exact started
    · exact stored.rows row old
  · intro row member
    rcases Table.mem_put.mp member with new | ⟨old, -⟩
    · rw [new]
      exact spent
    · exact stored.spent row old

theorem Stored.identify (stored : Stored settings store) {next : ExternalIdentity} (linked : Linked store.history next)
    (kept : ∀ owner, .unlinked owner next.id ∉ store.history)
    (apart : ∀ other ∈ store.identities, other.id ≠ next.id → Apart next other ∧ Apart other next) :
    Stored settings (store.identify next) := by
  refine ⟨stored.lawful, stored.rows, stored.spent, ?_, ?_, ?_⟩
  · intro identity member
    rcases Table.mem_put.mp member with new | ⟨old, -⟩
    · rw [new]
      exact linked
    · exact stored.linked identity old
  · intro identity member
    rcases Table.mem_put.mp member with new | ⟨old, -⟩
    · rw [new]
      exact kept
    · exact stored.kept identity old
  · intro first one second two different
    rcases Table.mem_put.mp one with new | ⟨old, other⟩
    · rcases Table.mem_put.mp two with same | ⟨before, apartFrom⟩
      · rw [new, same] at different
        exact absurd rfl different
      · rw [new]
        exact (apart second before apartFrom).1
    · rcases Table.mem_put.mp two with new | ⟨before, -⟩
      · rw [new]
        exact (apart first old other).2
      · exact stored.apart first old second before different

/-- A sign-in leaves the columns of the owner. -/
theorem sameOwner_seen (read current : ExternalIdentity) (claims : ProviderClaims) (now : Int) :
    SameOwner current (read.seen claims now current) := ⟨rfl, rfl, rfl, rfl, rfl, rfl, rfl⟩

theorem SameOwner.linked {history : List Entry} {first second : ExternalIdentity} (same : SameOwner first second)
    (linked : Linked history first) : Linked history second := by
  obtain ⟨link, origin, member, owner⟩ := linked
  exact ⟨link, origin, member, same.id.trans owner.id, same.accountType.trans owner.accountType,
    same.portalUserId.trans owner.portalUserId, same.adminUsername.trans owner.adminUsername,
    same.provider.trans owner.provider, same.issuer.trans owner.issuer, same.subject.trans owner.subject⟩

theorem Stored.see (stored : Stored settings store) {current : ExternalIdentity} (member : current ∈ store.identities)
    (read : ExternalIdentity) (claims : ProviderClaims) (now : Int) :
    Stored settings (store.identify (read.seen claims now current)) := by
  have same := sameOwner_seen read current claims now
  refine stored.identify (same.linked (stored.linked current member)) (stored.kept current member) ?_
  intro other inside different
  exact ⟨same.apart.1 (stored.apart current member other inside different.symm),
    same.apart.2 (stored.apart other inside current member different)⟩

/-- The unique constraints keep a new identity apart from the others. -/
theorem apart_of_free {identities : Identities} {identity : ExternalIdentity} (free : Free identities identity) :
    ∀ other ∈ identities, Apart identity other ∧ Apart other identity := by
  intro other member
  refine ⟨⟨?_, ?_⟩, ?_, ?_⟩
  · rintro ⟨provider, issuer, subject⟩
    exact free.subject other member provider.symm issuer.symm subject.symm
  · intro account mine yours
    cases account with
    | employee userId => exact free.employee other member yours.2.1 userId mine.2.2 yours.2.2
    | admin username => exact free.admin other member yours.2.1 username mine.2.2 yours.2.2
  · rintro ⟨provider, issuer, subject⟩
    exact free.subject other member provider issuer subject
  · intro account yours mine
    cases account with
    | employee userId => exact free.employee other member mine.2.1.symm userId mine.2.2 yours.2.2
    | admin username => exact free.admin other member mine.2.1.symm username mine.2.2 yours.2.2

end Tables

section Sessions
variable {settings : Settings} {world : World Store Flow} {who : Nat} {store next : Store} {session : Flow}

/-- What a step of another request leaves alone. -/
structure Leaves (store next : Store) (session : Flow) : Prop where
  history : store.history ⊆ next.history
  rows : ∀ row ∈ store.transactions, HoldsRow session row.id → row ∈ next.transactions
  accepted : ∀ id, Hand session id → ∀ idToken, .accepted id idToken ∈ next.history → .accepted id idToken ∈ store.history
  finished : ∀ id, Hand session id → Unfinished store.history id → Unfinished next.history id
  unspent : ∀ number, Keeps session number → Unspent store.history number → Unspent next.history number

theorem Presented.later {history later : List Entry} {confirmation : Option Confirmation} {row : Transaction}
    {claims : ProviderClaims} (presented : Presented settings history confirmation row claims) (grown : history ⊆ later) :
    Presented settings later confirmation row claims := by
  obtain ⟨started, idToken, accepted, valid⟩ := presented
  exact ⟨grown started, idToken, grown accepted, valid⟩

theorem Standing.later (standing : Standing settings store session) (leaves : Leaves store next session) :
    Standing settings next session := by
  have grown := leaves.history
  have accepted {purpose : Purpose} {row : Transaction} {claims : ProviderClaims} (hand : Hand session row.id)
      (before : Accepted settings store.history purpose row claims) : Accepted settings next.history purpose row claims := by
    obtain ⟨⟨account, presented⟩, same, unfinished⟩ := before
    exact ⟨⟨account, presented.later grown⟩, same, leaves.finished row.id hand unfinished⟩
  have linked {identity : ExternalIdentity} (before : Linked store.history identity) : Linked next.history identity := by
    obtain ⟨link, first, member, same⟩ := before
    exact ⟨link, first, grown member, same⟩
  cases session with
  | idle | calling => trivial
  | confirmed confirmation | unlinked confirmation =>
    obtain ⟨confirmed, unspent⟩ := standing
    exact ⟨grown confirmed, leaves.unspent _ rfl unspent⟩
  | locked callback row => exact ⟨leaves.rows row standing.1 rfl, standing.2⟩
  | consumed id =>
    obtain ⟨⟨account, row, started, same⟩, unaccepted, unfinished⟩ := standing
    exact ⟨⟨account, row, grown started, same⟩, fun idToken found => unaccepted idToken (leaves.accepted id rfl idToken found),
      leaves.finished id rfl unfinished⟩
  | exchanging row =>
    obtain ⟨⟨account, started⟩, unaccepted, unfinished⟩ := standing
    exact ⟨⟨account, grown started⟩, fun idToken found => unaccepted idToken (leaves.accepted row.id rfl idToken found),
      leaves.finished row.id rfl unfinished⟩
  | validated row claims =>
    obtain ⟨purpose, before⟩ := standing
    exact ⟨purpose, accepted rfl before⟩
  | unowned row claims => exact accepted rfl standing
  | identified row claims identity =>
    obtain ⟨before, owned, subject⟩ := standing
    exact ⟨accepted rfl before, linked owned, subject⟩
  | admitted row claims identity account =>
    obtain ⟨before, owned, subject⟩ := standing
    exact ⟨accepted rfl before, linked owned, subject⟩
  | unlinking confirmation identity pending =>
    obtain ⟨owned, confirmed, unspent⟩ := standing
    exact ⟨linked owned, grown confirmed, leaves.unspent _ rfl unspent⟩

/-- What a step has to answer for: the store, its own session and what it takes. -/
structure Answers (settings : Settings) (world : World Store Flow) (who : Nat) (next : Store) (session : Flow) : Prop where
  stored : Stored settings next
  standing : Standing settings next session
  leaves : ∀ other, other ≠ who → Leaves world.state next (world.sessions other)
  consumed : ∀ id, Hand session id → ∃ callback, .consumed id callback ∈ next.history
  hand : ∀ id, Hand session id → Hand (world.sessions who) id ∨ Available Hand world who id
  confirmed : ∀ number, Keeps session number →
    ∃ confirmation, .confirmed confirmation ∈ next.history ∧ confirmation.number = number
  keep : ∀ number, Keeps session number → Keeps (world.sessions who) number ∨ Available Keeps world who number
  lock : ∀ id, HoldsRow session id → HoldsRow (world.sessions who) id ∨ Available HoldsRow world who id

theorem Sound.change (sound : Sound settings world) (answers : Answers settings world who next session) :
    Sound settings (world.move who next session) := by
  refine ⟨answers.stored, ?_, ?_, ?_, ?_, ?_, ?_⟩
  · refine World.forall_move _ answers.standing fun other different => ?_
    exact (sound.standing other).later (answers.leaves other different)
  · refine World.forall_move (fun session => ∀ id, Hand session id → ∃ callback, .consumed id callback ∈ next.history)
      answers.consumed fun other different id hand => ?_
    obtain ⟨callback, consumed⟩ := sound.hands other id hand
    exact ⟨callback, (answers.leaves other different).history consumed⟩
  · exact sound.single.alone answers.hand
  · refine World.forall_move
      (fun session => ∀ number, Keeps session number →
        ∃ confirmation, .confirmed confirmation ∈ next.history ∧ confirmation.number = number)
      answers.confirmed fun other different number keeps => ?_
    obtain ⟨confirmation, confirmed, same⟩ := sound.numbers other number keeps
    exact ⟨confirmation, (answers.leaves other different).history confirmed, same⟩
  · exact sound.own.alone answers.keep
  · exact sound.locks.alone answers.lock

/-- A request that is over answers for what it has committed only. -/
theorem Sound.rest (sound : Sound settings world) (stored : Stored settings next)
    (leaves : ∀ other, other ≠ who → Leaves world.state next (world.sessions other)) :
    Sound settings (world.move who next .idle) :=
  sound.change ⟨stored, trivial, leaves, fun _ => False.elim, fun _ => False.elim, fun _ => False.elim,
    fun _ => False.elim, fun _ => False.elim⟩

theorem Leaves.refl (session : Flow) : Leaves store store session :=
  ⟨List.Subset.refl _, fun _ member _ => member, fun _ _ _ accepted => accepted, fun _ _ unfinished => unfinished,
    fun _ _ unspent => unspent⟩

/-- A step that commits nothing. -/
theorem Sound.turn (sound : Sound settings world) (standing : Standing settings world.state session)
    (hand : ∀ id, Hand session id → Hand (world.sessions who) id)
    (keep : ∀ number, Keeps session number → Keeps (world.sessions who) number)
    (lock : ∀ id, HoldsRow session id → HoldsRow (world.sessions who) id ∨ Available HoldsRow world who id) :
    Sound settings (world.move who world.state session) :=
  sound.change ⟨sound.stored, standing, fun _ _ => .refl _, fun id holds => sound.hands who id (hand id holds),
    fun id holds => .inl (hand id holds), fun number keeps => sound.numbers who number (keep number keeps),
    fun number keeps => .inl (keep number keeps), lock⟩

/-- What a request has in hand, nobody else has. -/
theorem Sound.mine (sound : Sound settings world) {id : String} (hand : Hand (world.sessions who) id) :
    Available Hand world who id :=
  fun other different => (sound.single who other different.symm id hand).1

theorem Sound.held (sound : Sound settings world) {id : String} (holds : HoldsRow (world.sessions who) id) :
    Available HoldsRow world who id :=
  fun other different => (sound.locks who other different.symm id holds).1

theorem Sound.kept (sound : Sound settings world) {number : Nat} (keeps : Keeps (world.sessions who) number) :
    Available Keeps world who number :=
  fun other different => (sound.own who other different.symm number keeps).1

/-- An entry about no transaction or confirmation that another request works with, on rows that nobody else holds. -/
theorem leaves_log (entry : Entry) {transactions : Transactions} {identities : Identities}
    (rows : ∀ row ∈ store.transactions, HoldsRow session row.id → row ∈ transactions)
    (accepted : ∀ id ∈ entry.acceptedId, ¬ Hand session id) (finished : ∀ id ∈ entry.finishedId, ¬ Hand session id)
    (spent : ∀ number ∈ entry.confirmationNumber, ¬ Keeps session number) :
    Leaves store ({ store with transactions, identities } |>.log entry) session := by
  refine ⟨List.subset_cons_self _ _, rows, ?_, ?_, ?_⟩
  · intro id hand idToken found
    rcases List.mem_cons.mp found with now | before
    · subst now
      exact absurd hand (accepted id rfl)
    · exact before
  · intro id hand unfinished other found
    rcases List.mem_cons.mp found with now | before
    · subst now
      exact fun named => finished id named hand
    · exact unfinished other before
  · intro number keeps unspent other found
    rcases List.mem_cons.mp found with now | before
    · subst now
      exact fun named => spent number named keeps
    · exact unspent other before

/-- Tables that change while the history stays. -/
theorem leaves_quiet (same : next.history = store.history)
    (rows : ∀ row ∈ store.transactions, HoldsRow session row.id → row ∈ next.transactions) : Leaves store next session := by
  refine ⟨?_, rows, ?_, ?_, ?_⟩
  · rw [same]
    exact List.Subset.refl _
  · rw [same]
    exact fun _ _ _ accepted => accepted
  · rw [same]
    exact fun _ _ unfinished => unfinished
  · rw [same]
    exact fun _ _ unspent => unspent

end Sessions

section Commits
variable {settings : Settings} {world : World Store Flow} {who : Nat}

theorem mem_write_of_ne {store : Store} {row next : Transaction} (member : row ∈ store.transactions)
    (different : row.id ≠ next.id) : row ∈ (store.write next).transactions :=
  Table.mem_put.mpr (.inr ⟨member, different⟩)

theorem Sound.administer (sound : Sound settings world) {accounts : Credentials.Db}
    (free : ∀ row ∈ world.state.transactions, row ∉ (world.state.administer accounts).transactions →
      Available HoldsRow world who row.id) :
    Sound settings (world.move who (world.state.administer accounts) .idle) := by
  refine sound.rest ?_ ?_
  · exact sound.stored.narrow rfl (fun row member => (Table.mem_deleteWhere.mp member).1)
      fun identity member => (Table.mem_deleteWhere.mp member).1
  · intro other different
    refine leaves_quiet rfl ?_
    intro row member holds
    by_contra deleted
    exact free row member deleted other different holds

theorem Sound.open (sound : Sound settings world) {confirmation : Option Confirmation} {purged : List String}
    {row : Transaction}
    (opened : Opened settings world.state.history confirmation row)
    (keeps : ∀ own ∈ confirmation, Keeps (world.sessions who) own.number)
    (free : ∀ id ∈ purged, Available HoldsRow world who id) :
    Sound settings
      (world.move who (((world.state.without purged).write row).log (.started confirmation row)) .idle) := by
  have lawful := sound.stored.lawful
  have logged : Stored settings (world.state.log (.started confirmation row)) := by
    refine sound.stored.log (.started confirmation row) opened ?_ ?_
    · intro callback other member impossible
      cases impossible
    · intro owner identity member impossible
      cases impossible
  have purgedFirst : Stored settings ((world.state.without purged).log (.started confirmation row)) :=
    logged.narrow rfl (fun other member => (Table.mem_deleteWhere.mp member).1) fun identity member => member
  refine sound.rest (purgedFirst.write ⟨confirmation, ?_⟩ ?_) ?_
  · rw [opened.opened]
    exact List.mem_cons_self
  · -- Nobody has consumed a transaction that did not exist.
    intro callback consumed
    rcases List.mem_cons.mp consumed with now | before
    · cases now
    · obtain ⟨earlier, -, ⟨⟨other, first, started, same, -⟩, -⟩, order, -⟩ := lawful.before before
      exact absurd same (opened.fresh other first (order _ started).mem).1
  · intro other different
    refine leaves_log (.started confirmation row) ?_ (fun _ impossible => nomatch impossible)
      (fun _ impossible => nomatch impossible) ?_
    · intro held member holds
      refine mem_write_of_ne (Table.mem_deleteWhere.mpr ⟨member, fun deleted => free held.id deleted other different holds⟩) ?_
      intro same
      obtain ⟨earlier, started⟩ := sound.stored.rows held member
      exact (opened.fresh earlier held.opened started).1 same
    · intro number named
      obtain ⟨own, mine, rfl⟩ := Option.map_eq_some_iff.mp named
      exact sound.kept (keeps own mine) other different

theorem Sound.expire (sound : Sound settings world) {callback : Callback} {row : Transaction}
    (locked : world.sessions who = .locked callback row) :
    Sound settings (world.move who (world.state.write { row with consumedAt := some callback.now }) .idle) := by
  have standing := sound.standing who
  rw [locked] at standing
  have holds : HoldsRow (world.sessions who) row.id := by
    rw [locked]
    exact rfl
  have free := sound.held holds
  refine sound.rest ?_ ?_
  · exact sound.stored.write (sound.stored.rows row standing.1) fun _ _ => Option.some_ne_none _
  · intro other different
    refine leaves_quiet rfl ?_
    intro held member holds
    apply mem_write_of_ne member
    intro same
    exact free other different (same ▸ holds)

theorem Sound.consume (sound : Sound settings world) {callback : Callback} {row : Transaction}
    (locked : world.sessions who = .locked callback row)
    (accepted : callback.consumption settings.toSettings row.toOAuthTransaction = .consumed) :
    Sound settings
      (world.move who ((world.state.write { row with consumedAt := some callback.now }).log (.consumed row.id callback))
        (.consumed row.id)) := by
  have standing := sound.standing who
  rw [locked] at standing
  obtain ⟨member, state, provider⟩ := standing
  obtain ⟨unspent, early, browser⟩ := OAuth.Proofs.consumption_consumed.mp accepted
  obtain ⟨account, started⟩ := sound.stored.rows row member
  have holds : HoldsRow (world.sessions who) row.id := by
    rw [locked]
    exact rfl
  have free := sound.held holds
  have unconsumed : ∀ other, Entry.consumed row.id other ∉ world.state.history :=
    fun other consumed => sound.stored.spent row member other consumed unspent
  have unaccepted : ∀ idToken, Entry.accepted row.id idToken ∉ world.state.history := by
    intro idToken happened
    obtain ⟨earlier, -, ⟨-, ⟨other, consumed⟩, -⟩, order, -⟩ := sound.stored.lawful.before happened
    exact unconsumed other (order _ consumed).mem
  have acceptedOf {history : List Entry} {confirmation : Option Confirmation} {first : Transaction} {claims : ProviderClaims}
      (presented : Presented settings history confirmation first claims) (same : first.id = row.id)
      (earlier : ∀ other ∈ history, other ∈ world.state.history) : False := by
    obtain ⟨-, idToken, happened, -⟩ := presented
    rw [same] at happened
    exact unaccepted idToken (earlier _ happened)
  have unfinished : Unfinished world.state.history row.id := by
    intro entry happened named
    obtain ⟨earlier, -, justified, order, -⟩ := sound.stored.lawful.before happened
    cases entry with
    | linked id identity =>
      cases named
      obtain ⟨⟨owner, first, claims, presented, same, -⟩, -⟩ := justified
      exact acceptedOf presented same fun other inside => (order other inside).mem
    | signedIn id owner identityId =>
      cases named
      obtain ⟨⟨first, claims, link, identity, presented, same, -⟩, -⟩ := justified
      exact acceptedOf presented same fun other inside => (order other inside).mem
    | _ => cases named
  have written : Stored settings (world.state.write { row with consumedAt := some callback.now }) :=
    sound.stored.write ⟨account, started⟩ fun _ _ => Option.some_ne_none _
  apply sound.change
  refine ⟨?_, ?_, ?_, ?_, ?_, fun _ => False.elim, fun _ => False.elim, fun _ => False.elim⟩
  · refine written.log (.consumed row.id callback) ⟨⟨account, row.opened, started, rfl, provider, state, early, browser⟩, unconsumed⟩ ?_ ?_
    · intro other first inside same
      rcases Table.mem_put.mp inside with new | ⟨-, different⟩
      · rw [new]
        exact Option.some_ne_none _
      · exact absurd (Entry.consumed.inj same).1.symm different
    · intro owner identity inside impossible
      cases impossible
  · refine ⟨⟨account, row.opened, List.mem_cons_of_mem _ started, rfl⟩, ?_, ?_⟩
    · intro idToken happened
      exact unaccepted idToken ((List.mem_cons.mp happened).resolve_left (by simp))
    · intro entry happened
      rcases List.mem_cons.mp happened with now | before
      · rw [now]
        exact fun impossible => nomatch impossible
      · exact unfinished entry before
  · intro other different
    refine leaves_log (.consumed row.id callback) ?_ (fun _ impossible => nomatch impossible)
      (fun _ impossible => nomatch impossible) fun _ impossible => nomatch impossible
    intro held inside holds
    apply mem_write_of_ne inside
    intro same
    exact free other different (same ▸ holds)
  · intro id same
    cases same
    exact ⟨callback, List.mem_cons_self⟩
  · intro id same
    cases same
    right
    intro other different hand
    obtain ⟨earlier, consumed⟩ := sound.hands other row.id hand
    exact unconsumed earlier consumed

theorem Sound.confirm (sound : Sound settings world) {confirmation : Confirmation}
    (new : ∀ other, .confirmed other ∈ world.state.history → other.number ≠ confirmation.number) :
    Sound settings (world.move who (world.state.log (.confirmed confirmation)) (.confirmed confirmation)) := by
  have lawful := sound.stored.lawful
  have unspent : Unspent world.state.history confirmation.number := by
    intro entry happened named
    obtain ⟨earlier, -, justified, order, -⟩ := lawful.before happened
    cases entry with
    | started other row =>
      obtain ⟨own, rfl, same⟩ := Option.map_eq_some_iff.mp named
      exact new own (order _ (justified.confirmed own rfl).1).mem same
    | unlinked other identityId =>
      exact new other (order _ justified.2.1).mem (Option.some.inj named)
    | _ => cases named
  apply sound.change
  refine ⟨?_, ⟨List.mem_cons_self, ?_⟩, ?_, fun _ => False.elim, fun _ => False.elim, ?_, ?_, fun _ => False.elim⟩
  · refine sound.stored.log (.confirmed confirmation) new ?_ ?_
    · intro callback row member impossible
      cases impossible
    · intro owner identity member impossible
      cases impossible
  · intro entry happened
    rcases List.mem_cons.mp happened with now | before
    · rw [now]
      exact fun impossible => nomatch impossible
    · exact unspent entry before
  · intro other different
    exact leaves_log (.confirmed confirmation) (fun _ member _ => member) (fun _ impossible => nomatch impossible)
      (fun _ impossible => nomatch impossible) fun _ impossible => nomatch impossible
  · intro number same
    exact ⟨confirmation, List.mem_cons_self, same⟩
  · intro number same
    cases same
    right
    intro other different keeps
    obtain ⟨earlier, confirmed, same⟩ := sound.numbers other confirmation.number keeps
    exact new earlier confirmed same

theorem Sound.validate (sound : Sound settings world) {row : Transaction} {claims : ProviderClaims} {idToken : String}
    (exchanging : world.sessions who = .exchanging row)
    (valid : validateToken settings row.provider row.nonce idToken = .ok claims) :
    Sound settings (world.move who (world.state.log (.accepted row.id idToken)) (.validated row claims)) := by
  have standing := sound.standing who
  have hand : Hand (world.sessions who) row.id := by
    rw [exchanging]
    exact rfl
  rw [exchanging] at standing
  obtain ⟨⟨account, started⟩, unaccepted, unfinished⟩ := standing
  obtain ⟨callback, consumed⟩ := sound.hands who row.id hand
  apply sound.change
  refine ⟨?_, ?_, ?_, ?_, ?_, fun _ => False.elim, fun _ => False.elim, fun _ => False.elim⟩
  · refine sound.stored.log (.accepted row.id idToken)
      ⟨⟨account, row.opened, claims, started, rfl, valid⟩, ⟨callback, consumed⟩, unaccepted⟩ ?_ ?_
    · intro other first member impossible
      cases impossible
    · intro owner identity member impossible
      cases impossible
  · refine ⟨row.purpose, ⟨account, List.mem_cons_of_mem _ started, idToken, List.mem_cons_self, valid⟩, rfl, ?_⟩
    intro entry happened
    rcases List.mem_cons.mp happened with now | before
    · rw [now]
      exact fun impossible => nomatch impossible
    · exact unfinished entry before
  · intro other different
    refine leaves_log (.accepted row.id idToken) (fun _ member _ => member) ?_ (fun _ impossible => nomatch impossible)
      fun _ impossible => nomatch impossible
    intro id same hand
    cases same
    exact sound.mine (by assumption) other different hand
  · intro id same
    cases same
    exact ⟨callback, List.mem_cons_of_mem _ consumed⟩
  · intro id same
    cases same
    exact .inl hand

/-- The transaction of a request that came for a link was started for an account, that of a login for none. -/
theorem Accepted.confirmation {history : List Entry} {purpose : Purpose} {row : Transaction} {claims : ProviderClaims}
    (accepted : Accepted settings history purpose row claims) (lawful : Lawful (Justified settings) history) :
    ∃ confirmation, Presented settings history confirmation row.opened claims ∧
      Names settings row (confirmation.map Confirmation.account) ∧ (confirmation = none ↔ purpose = .login) := by
  obtain ⟨⟨confirmation, presented⟩, same, -⟩ := accepted
  have names := names_of_started lawful presented.started
  refine ⟨confirmation, presented, ?_, ?_⟩
  · cases confirmation <;> exact names
  · subst same
    cases confirmation with
    | none => exact ⟨fun _ => names.1, fun _ => rfl⟩
    | some own =>
      have link : row.purpose = .link := names.1
      rw [link]
      simp

/-- The entries that use up the transaction in hand. -/
theorem Sound.finish (sound : Sound settings world) (entry : Entry) {id : String} {transactions : Transactions}
    {identities : Identities} (finishes : entry.finishedId = some id) (accepts : entry.acceptedId = none)
    (spends : entry.confirmationNumber = none) (hand : Hand (world.sessions who) id)
    (rows : ∀ other, other ≠ who → ∀ row ∈ world.state.transactions, HoldsRow (world.sessions other) row.id →
      row ∈ transactions)
    (stored : Stored settings (({ world.state with transactions, identities } : Store).log entry)) :
    Sound settings (world.move who (({ world.state with transactions, identities } : Store).log entry) .idle) := by
  refine sound.rest stored ?_
  intro other different
  refine leaves_log entry (rows other different) ?_ ?_ ?_
  · intro key accepted
    rw [accepts] at accepted
    cases accepted
  · intro key finished
    rw [finishes] at finished
    cases finished
    exact sound.mine hand other different
  · intro number spent
    rw [spends] at spent
    cases spent

theorem Sound.link (sound : Sound settings world) {row : Transaction} {claims : ProviderClaims} {id now : Int}
    (unowned : world.sessions who = .unowned row claims) (target : Targets row.portal row.portalUserId row.adminUsername)
    (unused : ∀ other identity, .linked other identity ∈ world.state.history → identity.id ≠ id)
    (free : Free world.state.identities (linkedIdentity row claims id now target)) :
    Sound settings
      (world.move who
        ((world.state.identify (linkedIdentity row claims id now target)).log
          (.linked row.id (linkedIdentity row claims id now target)))
        .idle) := by
  have standing := sound.standing who
  have hand : Hand (world.sessions who) row.id := by
    rw [unowned]
    exact rfl
  rw [unowned] at standing
  obtain ⟨confirmation, presented, names, purpose⟩ := standing.confirmation sound.stored.lawful
  cases confirmation with
  | none => exact nomatch purpose.mp rfl
  | some own =>
    have logged : Stored settings (world.state.log (.linked row.id (linkedIdentity row claims id now target))) := by
      refine sound.stored.log (.linked row.id (linkedIdentity row claims id now target))
        ⟨⟨own, row.opened, claims, presented, rfl, rfl, rfl, rfl, rfl, rfl, rfl⟩, standing.2.2, unused⟩ ?_ ?_
      · intro callback first member impossible
        cases impossible
      · intro other identity member impossible
        cases impossible
    refine sound.finish (.linked row.id (linkedIdentity row claims id now target)) rfl rfl rfl hand
      (fun _ _ _ member _ => member) ?_
    refine logged.identify ⟨row.id, _, List.mem_cons_self, rfl, rfl, rfl, rfl, rfl, rfl, rfl⟩ ?_ fun other member _ =>
      apart_of_free free other member
    -- Its number was never given before, so nothing with it was unlinked.
    intro other unlinked
    rcases List.mem_cons.mp unlinked with now' | before
    · cases now'
    · obtain ⟨earlier, -, ⟨⟨link, identity, linked, same⟩, -⟩, order, -⟩ := sound.stored.lawful.before before
      exact unused link identity (order _ linked).mem same

theorem SameOwner.isOf {first second : ExternalIdentity} (same : SameOwner first second) {provider : Provider}
    {account : Account} (owned : second.isOf provider account) : first.isOf provider account := by
  obtain ⟨-, accountType, portalUserId, adminUsername, named, -⟩ := same
  cases account <;> simpa only [ExternalIdentity.isOf, accountType, named, portalUserId, adminUsername] using owned

theorem SameOwner.hasSubject {first second : ExternalIdentity} (same : SameOwner first second) {provider : Provider}
    {claims : ProviderClaims} (subject : second.hasSubject provider claims) : first.hasSubject provider claims := by
  obtain ⟨-, -, -, -, named, issuer, subject'⟩ := same
  simpa only [ExternalIdentity.hasSubject, named, issuer, subject'] using subject

/-- A sign-in is justified while the identity that was found is still there. -/
theorem Sound.signIn (sound : Sound settings world) {row : Transaction} {claims : ProviderClaims}
    {identity current : ExternalIdentity} {account : Account} {transactions : Transactions} (now : Int)
    (admitted : world.sessions who = .admitted row claims identity account)
    (got : world.state.identities.get identity.id = some current)
    (rows : ∀ other, other ≠ who → ∀ row ∈ world.state.transactions, HoldsRow (world.sessions other) row.id →
      row ∈ transactions)
    (stored : Stored settings { world.state with transactions }) :
    Sound settings
      (world.move who
        ((({ world.state with transactions } : Store).identify (identity.seen claims now current)).log
          (.signedIn row.id account identity.id))
        .idle) := by
  have standing := sound.standing who
  have hand : Hand (world.sessions who) row.id := by
    rw [admitted]
    exact rfl
  rw [admitted] at standing
  obtain ⟨accepted, ⟨link, linked, happened, owner⟩, subject, owned⟩ := standing
  obtain ⟨member, number⟩ := Table.get_eq_some_iff.mp got
  obtain ⟨first, presented, -, purpose⟩ := accepted.confirmation sound.stored.lawful
  rw [purpose.mpr rfl] at presented
  have justified : Justified settings world.state.history (.signedIn row.id account identity.id) := by
    refine ⟨⟨row.opened, claims, link, linked, presented, rfl, happened, owner.id.symm, owner.isOf owned,
      owner.hasSubject subject⟩, accepted.2.2, ?_⟩
    rw [← number]
    exact sound.stored.kept current member
  refine sound.finish (.signedIn row.id account identity.id) rfl rfl rfl hand rows ?_
  refine (stored.see member identity claims now).log (.signedIn row.id account identity.id) justified ?_ ?_
  · intro callback other inside impossible
    cases impossible
  · intro other found inside impossible
    cases impossible

theorem Sound.unlink (sound : Sound settings world) {confirmation : Confirmation} {identity : ExternalIdentity} {pending : List String}
    (unlinking : world.sessions who = .unlinking confirmation identity pending)
    (free : ∀ id ∈ pending, Available HoldsRow world who id) :
    Sound settings
      (world.move who
        (({ world.state.without pending with
            identities := world.state.identities.deleteWhere fun other => other.id = identity.id } : Store).log
          (.unlinked confirmation identity.id))
        .idle) := by
  have standing := sound.standing who
  have keeps : Keeps (world.sessions who) confirmation.number := by
    rw [unlinking]
    exact rfl
  rw [unlinking] at standing
  obtain ⟨⟨link, linked, happened, same⟩, confirmed, unspent⟩ := standing
  have narrowed : Stored settings { world.state.without pending with
      identities := world.state.identities.deleteWhere fun other => other.id = identity.id } :=
    sound.stored.narrow rfl (fun row member => (Table.mem_deleteWhere.mp member).1)
      fun other member => (Table.mem_deleteWhere.mp member).1
  refine sound.rest ?_ ?_
  · refine narrowed.log (.unlinked confirmation identity.id)
      ⟨⟨link, linked, happened, same.id.symm⟩, confirmed, unspent⟩ ?_ ?_
    · intro callback row member impossible
      cases impossible
    · intro owner other member equal
      exact (Table.mem_deleteWhere.mp member).2 (Entry.unlinked.inj equal).2.symm
  · intro other different
    refine leaves_log (.unlinked confirmation identity.id) ?_ (fun _ impossible => nomatch impossible)
      (fun _ impossible => nomatch impossible) ?_
    · intro row member holds
      exact Table.mem_deleteWhere.mpr ⟨member, fun deleted => free row.id deleted other different holds⟩
    · intro number named
      cases named
      exact sound.kept keeps other different

/-- A request that goes on with the transaction it has in hand. -/
theorem Sound.pass (sound : Sound settings world) {session : Flow} (standing : Standing settings world.state session)
    (hand : ∀ id, Hand session id → Hand (world.sessions who) id)
    (keep : ∀ number, Keeps session number → Keeps (world.sessions who) number) (lock : ∀ id, ¬ HoldsRow session id) :
    Sound settings (world.move who world.state session) :=
  sound.turn standing hand keep fun id holds => absurd holds (lock id)

theorem Sound.refresh (sound : Sound settings world) {id : String} {row : Transaction}
    (consumed : world.sessions who = .consumed id) (got : world.state.transactions.get id = some row) :
    Sound settings (world.move who world.state (.exchanging row)) := by
  have standing := sound.standing who
  rw [consumed] at standing
  obtain ⟨-, unaccepted, unfinished⟩ := standing
  obtain ⟨member, named⟩ := Table.get_eq_some_iff.mp got
  subst named
  refine sound.pass ⟨sound.stored.rows row member, unaccepted, unfinished⟩ ?_ (fun _ => False.elim) fun _ => id
  intro key same
  rw [consumed]
  exact same

theorem completeLogin_owner {accounts : Credentials.Db} {hasEmployment : Bool} {row : Transaction}
    {identity : ExternalIdentity} {account : Account} (unnamed : row.adminUsername = none)
    (portal : identity.accountType = row.portal) (provider : identity.provider = row.provider)
    (completed : completeLogin settings accounts hasEmployment row identity = .ok account) :
    identity.isOf row.provider account := by
  unfold completeLogin at completed
  cases entered : row.portal with
  | employee =>
    rw [entered] at completed
    simp only [bind_eq_ok, require_eq_ok, raiseIf_eq_ok, pure_eq_ok] at completed
    obtain ⟨user, found, -, -, -, -, -, -, rfl⟩ := completed
    obtain ⟨userId, stored, got⟩ := Option.bind_eq_some_iff.mp found
    refine ⟨portal.trans entered, provider, ?_⟩
    rw [← (Table.get_eq_some_iff.mp got).2] at stored
    exact stored
  | admin =>
    rw [entered] at completed
    simp only [bind_eq_ok, raiseIf_eq_ok, pure_eq_ok, unnamed] at completed
    obtain ⟨-, passed, rfl⟩ := completed
    refine ⟨portal.trans entered, provider, ?_⟩
    exact not_not.mp (not_or.mp passed).2

theorem Sound.letIn (sound : Sound settings world) {row : Transaction} {claims : ProviderClaims}
    {identity : ExternalIdentity} {account : Account} {hasEmployment : Bool}
    (identified : world.sessions who = .identified row claims identity)
    (completed : completeLogin settings world.state.accounts hasEmployment row identity = .ok account) :
    Sound settings (world.move who world.state (.admitted row claims identity account)) := by
  have standing := sound.standing who
  rw [identified] at standing
  obtain ⟨accepted, linked, subject, portal⟩ := standing
  obtain ⟨first, -, names, purpose⟩ := accepted.confirmation sound.stored.lawful
  rw [purpose.mpr rfl] at names
  refine sound.pass ⟨accepted, linked, subject, completeLogin_owner names.2.2 portal subject.1 completed⟩ ?_
    (fun _ => False.elim) fun _ => id
  intro key same
  rw [identified]
  exact same

theorem Sound.step (sound : Sound settings world) {store : Store} {session : Flow}
    (allowed : Acts settings world who store session) : Sound settings (world.move who store session) := by
  have mine := sound.standing who
  cases allowed with
  | abandon => exact sound.pass trivial (fun _ => False.elim) (fun _ => False.elim) fun _ => id
  | administer accounts idle free => exact sound.administer free
  | confirm confirmation idle verified new => exact sound.confirm new
  | search confirmed absent =>
    rw [confirmed] at mine
    refine sound.pass mine (fun _ => False.elim) ?_ fun _ => id
    intro number same
    rw [confirmed]
    exact same
  | @startLink confirmation start nonce now purged unlinked enabled provider purpose portal old free random known =>
    rw [unlinked] at mine
    refine sound.open ⟨⟨purpose, portal, rfl, rfl⟩, ?_, rfl, random⟩ ?_ free
    · intro own same
      cases same
      exact ⟨mine.1, provider, mine.2⟩
    · intro own same
      cases same
      rw [unlinked]
      exact rfl
  | startLogin start nonce now purged idle enabled purpose old free random =>
    refine sound.open ⟨⟨purpose, rfl, rfl⟩, (fun own none => nomatch none), rfl, random⟩ ?_ free
    intro own none
    cases none
  | call callback idle => exact sound.pass trivial (fun _ => False.elim) (fun _ => False.elim) fun _ => id
  | lock calling member state provider free =>
    refine sound.turn ⟨member, state, provider⟩ (fun _ => False.elim) (fun _ => False.elim) ?_
    intro key same
    cases same
    exact .inr free
  | expire locked expired => exact sound.expire locked
  | consume locked accepted => exact sound.consume locked accepted
  | refresh consumed got => exact sound.refresh consumed got
  | validate idToken exchanging valid => exact sound.validate exchanging valid
  | disown validated purpose absent =>
    rw [validated] at mine
    obtain ⟨same, presented, named, unfinished⟩ := mine
    refine sound.pass ⟨presented, purpose, unfinished⟩ ?_ (fun _ => False.elim) fun _ => id
    intro key hand
    rw [validated]
    exact hand
  | link id now unowned target unused free known => exact sound.link unowned target unused free
  | identify validated purpose member subject portal =>
    rw [validated] at mine
    obtain ⟨same, presented, named, unfinished⟩ := mine
    refine sound.pass ⟨⟨presented, purpose, unfinished⟩, sound.stored.linked _ member, subject, portal⟩ ?_
      (fun _ => False.elim) fun _ => id
    intro key hand
    rw [validated]
    exact hand
  | letIn hasEmployment identified completed => exact sound.letIn identified completed
  | @signInUser row stored claims identity current userId payload now admitted got result free =>
    obtain ⟨member, named⟩ := Table.get_eq_some_iff.mp result
    refine sound.signIn now admitted got ?_ (sound.stored.write (sound.stored.rows stored member) ?_)
    · intro other different held inside holds
      apply mem_write_of_ne inside
      intro same
      refine free other different ?_
      rw [← named]
      exact same ▸ holds
    · exact fun callback consumed => sound.stored.spent stored member callback consumed
  | signInAdmin now admitted got =>
    exact sound.signIn now admitted got (fun _ _ _ member _ => member) sound.stored
  | collect pending confirmed member linked matching =>
    rw [confirmed] at mine
    refine sound.pass ⟨sound.stored.linked _ member, mine⟩ (fun _ => False.elim) ?_ fun _ => id
    intro number same
    rw [confirmed]
    exact same
  | unlink unlinking free => exact sound.unlink unlinking free

end Commits

section Samples

def linkStart : Start where
  provider := .google
  purpose := .link
  portal := .employee
  offered := none
  id := "L"
  state := "Kx3vQ7mB2nR8sT4wY6zA1cE5gI9kM0oP2qS4uW6yB8d"
  drawn := "Zb7wX5cV3nM1qA9sD7fG5hJ3kL1pO9iU7yT5rE3wQ1z"

def loginStart : Start :=
  { linkStart with purpose := .login, id := "T", state := "Lp2dF4hJ6kN8qS0uW2yA4cE6gI8kM0oQ2sU4wY6zB8f" }

/-- The secrets of one link and one login as they are hashed, and the nonces that two tokens carry. -/
def sampleSettings : Settings where
  sha256 text :=
    if text = linkStart.state then "fc3f81a3eb17ac850a52cc61e66cb1db3f49a8fab9884b147801dc2487ee3e5b"
    else if text = loginStart.state then "1da27afb7ddfd7e0aa5c8d1b11f09589d23a9715e0848378c27be0a84f34a09d"
    else if text = linkStart.drawn then "aca117f53b6908c39f0f75f90e5f697497349fbf04cf586939419aad75db0659"
    else String.ofList ('-' :: text.toList)
  providerEnabled _ := true
  externalAuthTransactionTtlSeconds := 600
  externalAuthResultTtlSeconds := 120
  adminUsername := "admin"
  adminPasswordHash := none
  clientId _ := "dagmar"
  lower text := text
  repr _ := ""
  checkToken _ _ := .ok ()
  payload idToken := .object [("iss", .text "https://accounts.google.com"), ("sub", .text "110248495921238986420"),
    ("nonce", .text idToken)]

def sampleUser : Credentials.PortalUser := ⟨1, "jana@example.com", some ⟨0, "heslo", false⟩, true, false, some "I"⟩

def sampleAccounts : Credentials.Db where
  users := ⟨[sampleUser], List.nodup_singleton _⟩
  instances := ⟨[⟨"I", .active, none⟩], List.nodup_singleton _⟩
  resetTokens := ∅
  nextSalt := 1
  nextSecret := 0

def sampleClaims : ProviderClaims := ⟨"https://accounts.google.com", "110248495921238986420", none, none⟩

def sampleConfirmation : Confirmation := ⟨0, .employee 1, .google, "heslo"⟩

def linkCallback : Callback := ⟨.google, linkStart.state, some linkStart.drawn, 1⟩

def loginCallback : Callback := ⟨.google, loginStart.state, some linkStart.drawn, 1⟩

def linkRow : Transaction := startTransaction sampleSettings linkStart (some (.employee 1)) "N1" 0

def loginRow : Transaction := startTransaction sampleSettings loginStart none "N2" 0

def spentRow (row : Transaction) : Transaction := { row with consumedAt := some 1 }

def sampleIdentity : ExternalIdentity := linkedIdentity (spentRow linkRow) sampleClaims 7 2 (by decide)

def confirmedStore : Store := (Store.start sampleAccounts).log (.confirmed sampleConfirmation)

def linkStarted : Store := ((confirmedStore.without []).write linkRow).log (.started (some sampleConfirmation) linkRow)

def linkConsumed : Store := (linkStarted.write (spentRow linkRow)).log (.consumed "L" linkCallback)

def linkAccepted : Store := linkConsumed.log (.accepted "L" "N1")

def linkedStore : Store := (linkAccepted.identify sampleIdentity).log (.linked "L" sampleIdentity)

def loginStarted : Store := ((linkedStore.without []).write loginRow).log (.started none loginRow)

def loginConsumed : Store := (loginStarted.write (spentRow loginRow)).log (.consumed "T" loginCallback)

def loginAccepted : Store := loginConsumed.log (.accepted "T" "N2")

def signedInStore : Store :=
  ((loginAccepted.identify (sampleIdentity.seen sampleClaims 3 sampleIdentity)).write
    { spentRow loginRow with resultPayload := some "login", resultExpiresAt := some (3 + seconds 120) }).log
    (.signedIn "T" (.employee 1) 7)

def linkEntries : List Entry :=
  [.accepted "L" "N1", .consumed "L" linkCallback, .started (some sampleConfirmation) linkRow, .confirmed sampleConfirmation]

abbrev at0 (store : Store) (session : Flow) : World Store Flow :=
  (World.quiet (Store.start sampleAccounts) .idle).move 0 store session

theorem released_at0 (store : Store) (session : Flow) (id : String) : Available HoldsRow (at0 store session) 0 id := by
  intro other different
  rw [World.move_other different]
  exact False.elim

theorem linked_reached : Reaches (Acts sampleSettings) (World.quiet (Store.start sampleAccounts) .idle)
    (at0 linkedStore .idle) := by
  have accepted : linkCallback.consumption sampleSettings.toSettings linkRow.toOAuthTransaction = .consumed := by
    decide +kernel
  have valid : validateToken sampleSettings .google "N1" "N1" = .ok sampleClaims := by rfl
  have confirmed : Reaches (Acts sampleSettings) (World.quiet (Store.start sampleAccounts) .idle)
      (at0 confirmedStore (.confirmed sampleConfirmation)) :=
    Reaches.step .refl 0 (.confirm sampleConfirmation rfl ⟨sampleUser, rfl, _, rfl, rfl⟩ fun _ none => nomatch none)
  have searched := confirmed.again (.search (World.move_self ..) fun _ none => nomatch none)
  have started : Reaches (Acts sampleSettings) (World.quiet (Store.start sampleAccounts) .idle) (at0 linkStarted .idle) := by
    refine searched.again (.startLink linkStart "N1" 0 [] (World.move_self ..) rfl rfl rfl rfl (fun _ none => nomatch none)
      (fun _ none => nomatch none) ?_ ?_)
    · intro other row happened
      rcases List.mem_singleton.mp happened with ⟨⟩
    · intro userId same
      cases same
      rfl
  have called := started.again (.call linkCallback (World.move_self ..))
  have locked := called.again (.lock (World.move_self ..) (Table.mem_put.mpr (.inl rfl)) rfl rfl (released_at0 _ _ _))
  have consumed : Reaches (Acts sampleSettings) (World.quiet (Store.start sampleAccounts) .idle)
      (at0 linkConsumed (.consumed "L")) := locked.again (.consume (World.move_self ..) accepted)
  have refreshed := consumed.again (.refresh (World.move_self ..) (Table.get_put_self _ rfl))
  have validated : Reaches (Acts sampleSettings) (World.quiet (Store.start sampleAccounts) .idle)
      (at0 linkAccepted (.validated (spentRow linkRow) sampleClaims)) :=
    refreshed.again (.validate "N1" (World.move_self ..) valid)
  have unowned := validated.again (.disown (World.move_self ..) rfl fun _ none => nomatch none)
  refine unowned.again (.link 7 2 (World.move_self ..) (by decide) ?_ ⟨?_, ?_, ?_⟩ ?_)
  · intro other identity happened
    have earlier : Entry.linked other identity ∈ linkEntries := happened
    simp [linkEntries] at earlier
  · exact fun _ none => nomatch none
  · exact fun _ none => nomatch none
  · exact fun _ none => nomatch none
  · intro userId same
    cases same
    rfl

theorem signed_in_reached : Reaches (Acts sampleSettings) (World.quiet (Store.start sampleAccounts) .idle)
    (at0 signedInStore .idle) := by
  have accepted : loginCallback.consumption sampleSettings.toSettings loginRow.toOAuthTransaction = .consumed := by
    decide +kernel
  have valid : validateToken sampleSettings .google "N2" "N2" = .ok sampleClaims := by rfl
  have started : Reaches (Acts sampleSettings) (World.quiet (Store.start sampleAccounts) .idle) (at0 loginStarted .idle) := by
    refine linked_reached.again (.startLogin loginStart "N2" 0 [] (World.move_self ..) rfl rfl (fun _ none => nomatch none)
      (fun _ none => nomatch none) ?_)
    intro other row happened
    have earlier : Entry.started other row ∈ Entry.linked "L" sampleIdentity :: linkEntries := happened
    obtain ⟨-, rfl⟩ : other = some sampleConfirmation ∧ row = linkRow := by simpa [linkEntries] using earlier
    exact ⟨by decide +kernel, by decide +kernel, by decide +kernel⟩
  have called := started.again (.call loginCallback (World.move_self ..))
  have locked := called.again (.lock (World.move_self ..) (Table.mem_put.mpr (.inl rfl)) rfl rfl (released_at0 _ _ _))
  have consumed : Reaches (Acts sampleSettings) (World.quiet (Store.start sampleAccounts) .idle)
      (at0 loginConsumed (.consumed "T")) := locked.again (.consume (World.move_self ..) accepted)
  have refreshed := consumed.again (.refresh (World.move_self ..) (Table.get_put_self _ rfl))
  have validated : Reaches (Acts sampleSettings) (World.quiet (Store.start sampleAccounts) .idle)
      (at0 loginAccepted (.validated (spentRow loginRow) sampleClaims)) :=
    refreshed.again (.validate "N2" (World.move_self ..) valid)
  have identified := validated.again
    (.identify (World.move_self ..) rfl (Table.mem_put.mpr (.inl rfl)) ⟨rfl, rfl, rfl⟩ rfl)
  have completed : completeLogin sampleSettings sampleAccounts true (spentRow loginRow) sampleIdentity = .ok (.employee 1) := by
    rfl
  have admitted := identified.again (.letIn true (World.move_self ..) completed)
  exact admitted.again (.signInUser "login" 3 (World.move_self ..) (Table.get_put_self _ rfl) (Table.get_put_self _ rfl)
    (released_at0 _ _ _))

end Samples

section Main
variable {settings : Settings} {world : World Store Flow} {history : List Entry}

theorem Sound.quiet (accounts : Credentials.Db) : Sound settings (World.quiet (Store.start accounts) .idle) := by
  refine ⟨Stored.start accounts, fun _ => trivial, fun _ _ => False.elim, ?_, fun _ _ => False.elim, ?_, ?_⟩
  all_goals
    intro first second different key impossible
    cases impossible

theorem sound_of_reaches {accounts : Credentials.Db}
    (reached : Reaches (Acts settings) (World.quiet (Store.start accounts) .idle) world) : Sound settings world :=
  reached.keeps (Sound settings) (Sound.quiet accounts) fun _ _ _ _ sound allowed => sound.step allowed

/-- Every linked identity was linked by a callback of the browser that had confirmed the password of
its account, and no two share a subject or a provider of one account. -/
theorem identities_confirmed {accounts : Credentials.Db}
    (reached : Reaches (Acts settings) (World.quiet (Store.start accounts) .idle) world) :
    (∀ current ∈ world.state.identities,
      (∀ owner, .unlinked owner current.id ∉ world.state.history) ∧
      ∃ identity confirmation row callback idToken, SameOwner identity current ∧
        LinkedBy settings world.state.history confirmation row callback idToken identity) ∧
    (world.state.history.filterMap Entry.confirmationNumber).Nodup ∧
    ∀ first ∈ world.state.identities, ∀ second ∈ world.state.identities, first.id ≠ second.id → Apart first second := by
  have sound := sound_of_reaches reached
  refine ⟨?_, sound.stored.lawful.once confirmation_once, sound.stored.apart⟩
  intro current member
  obtain ⟨link, identity, happened, same⟩ := sound.stored.linked current member
  obtain ⟨confirmation, row, callback, idToken, -, linked⟩ := linkedBy_of_linked sound.stored.lawful happened
  exact ⟨sound.stored.kept current member, identity, confirmation, row, callback, idToken, same, linked⟩

theorem sample_identities_confirmed : ∃ current ∈ signedInStore.identities,
    ∃ identity confirmation row callback idToken, SameOwner identity current ∧
      LinkedBy sampleSettings signedInStore.history confirmation row callback idToken identity := by
  obtain ⟨linked, -⟩ := identities_confirmed signed_in_reached
  obtain ⟨-, confirmed⟩ := linked _ (Table.mem_put.mpr (.inl rfl))
  exact ⟨_, Table.mem_put.mpr (.inl rfl), confirmed⟩

/-- A sign-in ends in the account that had linked the subject and had not unlinked it by then. -/
theorem sign_ins_linked {accounts : Credentials.Db}
    (reached : Reaches (Acts settings) (World.quiet (Store.start accounts) .idle) world) {id : String} {account : Account}
    {identityId : Int} (happened : .signedIn id account identityId ∈ world.state.history) :
    ∃ row callback idToken identity, row.id = id ∧ identity.id = identityId ∧
      ∃ confirmation link linkCallback linkToken,
        SignedInBy settings world.state.history account row callback idToken link.id identity ∧
        LinkedBy settings world.state.history confirmation link linkCallback linkToken identity ∧
        account.portal = confirmation.account.portal ∧ account.portalUserId = confirmation.account.portalUserId ∧
        ∀ username, account = .admin username → confirmation.account.adminUsername settings = some username := by
  have lawful := (sound_of_reaches reached).stored.lawful
  obtain ⟨row, callback, idToken, link, identity, named, number, signedIn⟩ := signedInBy_of_signedIn lawful happened
  obtain ⟨confirmation, first, linkCallback, linkToken, rfl, linked⟩ := linkedBy_of_linked lawful signedIn.linked.mem
  exact ⟨row, callback, idToken, identity, named, number, confirmation, first, linkCallback, linkToken, signedIn, linked,
    linked.owner signedIn.owner⟩

theorem sample_sign_ins_linked : ∃ row callback idToken identity confirmation link linkCallback linkToken,
    SignedInBy sampleSettings signedInStore.history (.employee 1) row callback idToken link.id identity ∧
      LinkedBy sampleSettings signedInStore.history confirmation link linkCallback linkToken identity := by
  obtain ⟨row, callback, idToken, identity, -, -, confirmation, link, linkCallback, linkToken, signedIn, linked, -⟩ :=
    sign_ins_linked signed_in_reached (List.mem_cons_self)
  exact ⟨row, callback, idToken, identity, confirmation, link, linkCallback, linkToken, signedIn, linked⟩

/-- An identity token is accepted for one transaction, and a transaction ends in one link or one
sign-in, for which a token was accepted. -/
theorem tokens_accepted_once {accounts : Credentials.Db}
    (reached : Reaches (Acts settings) (World.quiet (Store.start accounts) .idle) world) :
    (world.state.history.filterMap Entry.acceptedToken).Nodup ∧ (world.state.history.filterMap Entry.acceptedId).Nodup ∧
      (world.state.history.filterMap Entry.finishedId).Nodup ∧
      ∀ entry ∈ world.state.history, ∀ id ∈ entry.finishedId, ∃ idToken, Since world.state.history (.accepted id idToken) entry := by
  have lawful := (sound_of_reaches reached).stored.lawful
  refine ⟨lawful.once token_once, lawful.once accepted_once, lawful.once finished_once, ?_⟩
  intro entry happened id named
  obtain ⟨earlier, -, justified, order, -⟩ := lawful.before happened
  cases entry with
  | linked link identity =>
    cases named
    obtain ⟨⟨account, row, claims, presented, rfl, -⟩, -⟩ := justified
    obtain ⟨-, idToken, accepted, -⟩ := presented
    exact ⟨idToken, order _ accepted⟩
  | signedIn link account identityId =>
    cases named
    obtain ⟨⟨row, claims, link, identity, presented, rfl, -⟩, -⟩ := justified
    obtain ⟨-, idToken, accepted, -⟩ := presented
    exact ⟨idToken, order _ accepted⟩
  | _ => cases named

theorem sample_tokens_accepted_once : signedInStore.history.filterMap Entry.acceptedToken = ["N2", "N1"] ∧
    (signedInStore.history.filterMap Entry.acceptedToken).Nodup :=
  ⟨rfl, (tokens_accepted_once signed_in_reached).1⟩

end Main

end Dagmar.ExternalAuth.Proofs
