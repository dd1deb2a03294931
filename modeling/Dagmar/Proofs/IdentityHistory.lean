import Dagmar.ExternalAuth
import Dagmar.Library.History

/-! What an identity, a sign-in and an accepted token say about what has happened before:
every entry is justified by the entries before it, and the order of the steps is read off. -/

namespace Dagmar.ExternalAuth.Proofs
open Library Library.Outcome OAuth

section Safety
variable (settings : Settings)

/-- The callback brought the state and the secret of the transaction, in time. -/
structure Brings (callback : Callback) (row : Transaction) : Prop where
  provider : row.provider = callback.provider
  state : row.stateHash = settings.sha256 callback.state
  early : callback.now < row.expiresAt
  browser : row.boundTo settings.toSettings callback.browserSecret = true

/-- The columns of an identity that a sign-in leaves alone. -/
structure SameOwner (first second : ExternalIdentity) : Prop where
  id : second.id = first.id
  accountType : second.accountType = first.accountType
  portalUserId : second.portalUserId = first.portalUserId
  adminUsername : second.adminUsername = first.adminUsername
  provider : second.provider = first.provider
  issuer : second.issuer = first.issuer
  subject : second.subject = first.subject

/-- The steps that linked an identity to an account, in their order. -/
structure LinkedBy (history : List Entry) (confirmation : Confirmation) (row : Transaction) (callback : Callback)
    (idToken : String) (identity : ExternalIdentity) : Prop where
  accountType : identity.accountType = confirmation.account.portal
  portalUserId : identity.portalUserId = confirmation.account.portalUserId
  adminUsername : identity.adminUsername = confirmation.account.adminUsername settings
  provider : identity.provider = confirmation.provider ∧ row.provider = confirmation.provider
  subject : ∃ claims, validateToken settings row.provider row.nonce idToken = .ok claims ∧
    identity.hasSubject row.provider claims
  brings : Brings settings callback row
  confirmed : Since history (.confirmed confirmation) (.started (some confirmation) row)
  consumed : Since history (.started (some confirmation) row) (.consumed row.id callback)
  accepted : Since history (.consumed row.id callback) (.accepted row.id idToken)
  linked : Since history (.accepted row.id idToken) (.linked row.id identity)

/-- The steps of a sign-in through an identity that is linked by then and has not been unlinked. -/
structure SignedInBy (history : List Entry) (account : Account) (row : Transaction) (callback : Callback) (idToken : String)
    (link : String) (identity : ExternalIdentity) : Prop where
  owner : identity.isOf row.provider account
  subject : ∃ claims, validateToken settings row.provider row.nonce idToken = .ok claims ∧
    identity.hasSubject row.provider claims
  brings : Brings settings callback row
  consumed : Since history (.started none row) (.consumed row.id callback)
  accepted : Since history (.consumed row.id callback) (.accepted row.id idToken)
  entered : Since history (.accepted row.id idToken) (.signedIn row.id account identity.id)
  linked : Since history (.linked link identity) (.signedIn row.id account identity.id)
  kept : ∀ owner, ¬ Since history (.unlinked owner identity.id) (.signedIn row.id account identity.id)

end Safety

section History
variable (settings : Settings)

/-- The columns of a transaction say which account it was started for. -/
def Names (row : Transaction) : Option Account → Prop
  | none => row.purpose = .login ∧ row.portalUserId = none ∧ row.adminUsername = none
  | some account => row.purpose = .link ∧ row.portal = account.portal ∧ row.portalUserId = account.portalUserId ∧
      row.adminUsername = account.adminUsername settings

def Unspent (history : List Entry) (number : Nat) : Prop := ∀ entry ∈ history, entry.confirmationNumber ≠ some number

structure Opened (history : List Entry) (confirmation : Option Confirmation) (row : Transaction) : Prop where
  names : Names settings row (confirmation.map Confirmation.account)
  confirmed : ∀ own ∈ confirmation, .confirmed own ∈ history ∧ row.provider = own.provider ∧ Unspent history own.number
  opened : row.opened = row
  fresh : ∀ other earlier, .started other earlier ∈ history →
    earlier.id ≠ row.id ∧ earlier.stateHash ≠ row.stateHash ∧ earlier.nonce ≠ row.nonce

/-- A token was accepted for the transaction. -/
structure Presented (history : List Entry) (confirmation : Option Confirmation) (row : Transaction) (claims : ProviderClaims) :
    Prop where
  started : .started confirmation row ∈ history
  token : ∃ idToken, .accepted row.id idToken ∈ history ∧
    validateToken settings row.provider row.nonce idToken = .ok claims

def Unfinished (history : List Entry) (id : String) : Prop := ∀ entry ∈ history, entry.finishedId ≠ some id

/-- What has happened before an entry. -/
def Justified (history : List Entry) : Entry → Prop
  | .confirmed confirmation => ∀ other, .confirmed other ∈ history → other.number ≠ confirmation.number
  | .unlinked confirmation identityId =>
    (∃ link identity, .linked link identity ∈ history ∧ identity.id = identityId) ∧ .confirmed confirmation ∈ history ∧
      Unspent history confirmation.number
  | .started confirmation row => Opened settings history confirmation row
  | .consumed id callback =>
    (∃ confirmation row, .started confirmation row ∈ history ∧ row.id = id ∧ Brings settings callback row) ∧
      ∀ other, .consumed id other ∉ history
  | .accepted id idToken =>
    (∃ confirmation row claims, .started confirmation row ∈ history ∧ row.id = id ∧
      validateToken settings row.provider row.nonce idToken = .ok claims) ∧
      (∃ callback, .consumed id callback ∈ history) ∧ ∀ other, .accepted id other ∉ history
  | .linked id identity =>
    (∃ confirmation row claims, Presented settings history (some confirmation) row claims ∧ row.id = id ∧
      identity.accountType = row.portal ∧ identity.portalUserId = row.portalUserId ∧
      identity.adminUsername = row.adminUsername ∧ identity.hasSubject row.provider claims) ∧
      Unfinished history id ∧ ∀ other earlier, .linked other earlier ∈ history → earlier.id ≠ identity.id
  | .signedIn id account identityId =>
    (∃ row claims link identity, Presented settings history none row claims ∧ row.id = id ∧
      .linked link identity ∈ history ∧ identity.id = identityId ∧ identity.isOf row.provider account ∧
      identity.hasSubject row.provider claims) ∧
      Unfinished history id ∧ ∀ owner, .unlinked owner identityId ∉ history

end History

section Entries
variable {settings : Settings} {history : List Entry}

theorem started_once : Fresh (Justified settings) Entry.startedId := by
  intro earlier entry _ justified other happened id named
  cases entry with
  | started account row =>
    cases named
    cases other with
    | started before old => exact fun equal => (justified.fresh before old happened).1 (Option.some.inj equal)
    | _ => exact fun impossible => nomatch impossible
  | _ => cases named

theorem nonce_once : Fresh (Justified settings) Entry.startedNonce := by
  intro earlier entry _ justified other happened nonce named
  cases entry with
  | started account row =>
    cases named
    cases other with
    | started before old => exact fun equal => (justified.fresh before old happened).2.2 (Option.some.inj equal)
    | _ => exact fun impossible => nomatch impossible
  | _ => cases named

theorem consumed_once : Fresh (Justified settings) Entry.consumedId := by
  intro earlier entry _ justified other happened id named
  cases entry with
  | consumed key callback =>
    cases named
    cases other with
    | consumed before old =>
      intro equal
      cases equal
      exact justified.2 old happened
    | _ => exact fun impossible => nomatch impossible
  | _ => cases named

theorem accepted_once : Fresh (Justified settings) Entry.acceptedId := by
  intro earlier entry _ justified other happened id named
  cases entry with
  | accepted key idToken =>
    cases named
    cases other with
    | accepted before old =>
      intro equal
      cases equal
      exact justified.2.2 old happened
    | _ => exact fun impossible => nomatch impossible
  | _ => cases named

theorem finished_once : Fresh (Justified settings) Entry.finishedId := by
  intro earlier entry _ justified other happened id named
  cases entry with
  | linked key identity =>
    cases named
    exact justified.2.1 other happened
  | signedIn key account identityId =>
    cases named
    exact justified.2.1 other happened
  | _ => cases named

theorem confirmation_once : Fresh (Justified settings) Entry.confirmationNumber := by
  intro earlier entry _ justified other happened number named
  cases entry with
  | started confirmation row =>
    obtain ⟨own, rfl, rfl⟩ := Option.map_eq_some_iff.mp named
    exact (justified.confirmed own rfl).2.2 other happened
  | unlinked confirmation identityId =>
    cases named
    exact justified.2.2 other happened
  | _ => cases named

theorem started_alone (lawful : Lawful (Justified settings) history) {first second : Option Confirmation} {row other : Transaction}
    (one : .started first row ∈ history) (two : .started second other ∈ history) (same : other.id = row.id) :
    second = first ∧ other = row := by
  have equal := lawful.alone started_once one two rfl (congrArg some same)
  cases equal
  exact ⟨rfl, rfl⟩

theorem names_of_started (lawful : Lawful (Justified settings) history) {confirmation : Option Confirmation} {row : Transaction}
    (started : .started confirmation row ∈ history) : Names settings row (confirmation.map Confirmation.account) := by
  obtain ⟨earlier, -, opened, -⟩ := lawful.before started
  exact opened.names

theorem nonce_of_valid {provider : Provider} {nonce idToken : String} {claims : ProviderClaims}
    (valid : validateToken settings provider nonce idToken = .ok claims) :
    strOrEmpty settings ((settings.payload idToken).find "nonce") = nonce := by
  unfold validateToken at valid
  simp only [bind_eq_ok, raiseIf_eq_ok, not_not] at valid
  obtain ⟨-, -, -, same, -⟩ := valid
  exact same

/-- A token carries the nonce of one transaction. -/
theorem token_once : Fresh (Justified settings) Entry.acceptedToken := by
  intro earlier entry lawful justified other happened idToken named again
  cases entry with
  | accepted id token =>
    cases named
    cases other with
    | accepted before same =>
      cases again
      obtain ⟨⟨account, row, claims, started, rfl, valid⟩, -, fresh⟩ := justified
      obtain ⟨first, -, ⟨⟨owner, origin, others, opened, rfl, accepted⟩, -⟩, order, -⟩ := lawful.before happened
      have nonce : origin.nonce = row.nonce := (nonce_of_valid accepted).symm.trans (nonce_of_valid valid)
      have one := lawful.alone nonce_once started (order _ opened).mem rfl (congrArg some nonce)
      cases one
      exact fresh _ happened
    | _ => cases again
  | _ => cases named

end Entries

section Chains
variable {settings : Settings} {history : List Entry}

/-- A token that was accepted for a started transaction was brought by its callback before. -/
theorem presented_order (lawful : Lawful (Justified settings) history) {confirmation : Option Confirmation}
    {row : Transaction} {claims : ProviderClaims} (presented : Presented settings history confirmation row claims) :
    ∃ callback idToken, .accepted row.id idToken ∈ history ∧
      validateToken settings row.provider row.nonce idToken = .ok claims ∧ Brings settings callback row ∧
      Since history (.started confirmation row) (.consumed row.id callback) ∧
      Since history (.consumed row.id callback) (.accepted row.id idToken) := by
  obtain ⟨started, idToken, accepted, valid⟩ := presented
  obtain ⟨earlier, -, ⟨-, ⟨callback, consumed⟩, -⟩, order, -⟩ := lawful.before accepted
  have later := order _ consumed
  obtain ⟨first, -, ⟨⟨other, same, began, named, brings⟩, -⟩, before, -⟩ := lawful.before later.mem
  have opened := before _ began
  obtain ⟨rfl, rfl⟩ := started_alone lawful started opened.mem named
  exact ⟨callback, idToken, accepted, valid, brings, opened, later⟩

theorem linkedBy_of_linked (lawful : Lawful (Justified settings) history) {link : String} {identity : ExternalIdentity}
    (happened : .linked link identity ∈ history) :
    ∃ confirmation row callback idToken, row.id = link ∧
      LinkedBy settings history confirmation row callback idToken identity := by
  obtain ⟨earlier, past, ⟨⟨confirmation, row, claims, presented, rfl, accountType, portalUserId, adminUsername, subject⟩, -⟩,
    order, longer⟩ := lawful.before happened
  obtain ⟨callback, idToken, accepted, valid, brings, began, consumed⟩ := presented_order past presented
  obtain ⟨first, -, opened, before, -⟩ := past.before presented.started
  obtain ⟨confirmed, provider, -⟩ := opened.confirmed confirmation rfl
  obtain ⟨-, portal, user, admin⟩ := opened.names
  exact ⟨confirmation, row, callback, idToken, rfl, accountType.trans portal, portalUserId.trans user,
    adminUsername.trans admin, ⟨subject.1.trans provider, provider⟩, ⟨claims, valid, subject⟩, brings,
    longer _ _ (before _ confirmed), longer _ _ began, longer _ _ consumed, order _ accepted⟩

theorem signedInBy_of_signedIn (lawful : Lawful (Justified settings) history) {id : String} {account : Account}
    {identityId : Int} (happened : .signedIn id account identityId ∈ history) :
    ∃ row callback idToken link identity, row.id = id ∧ identity.id = identityId ∧
      SignedInBy settings history account row callback idToken link identity := by
  obtain ⟨earlier, past, ⟨⟨row, claims, link, identity, presented, rfl, linked, rfl, owned, subject⟩, -, kept⟩, order, longer⟩ :=
    lawful.before happened
  obtain ⟨callback, idToken, accepted, valid, brings, began, consumed⟩ := presented_order past presented
  refine ⟨row, callback, idToken, link, identity, rfl, rfl, owned, ⟨claims, valid, subject⟩, brings, longer _ _ began,
    longer _ _ consumed, order _ accepted, order _ linked, ?_⟩
  intro owner since
  obtain ⟨before, ⟨-, -, kept⟩, unlinked⟩ := lawful.of_since since
  exact kept owner unlinked

/-- An identity is of the account that linked it. -/
theorem LinkedBy.owner {account : Account} {confirmation : Confirmation} {idToken : String} {row : Transaction}
    {callback : Callback} {identity : ExternalIdentity} {provider : Provider}
    (linked : LinkedBy settings history confirmation row callback idToken identity)
    (owned : identity.isOf provider account) :
    account.portal = confirmation.account.portal ∧ account.portalUserId = confirmation.account.portalUserId ∧
      ∀ username, account = .admin username → confirmation.account.adminUsername settings = some username := by
  refine ⟨owned.1.symm.trans linked.accountType, ?_, ?_⟩
  · cases account with
    | employee userId => exact owned.2.2.symm.trans linked.portalUserId
    | admin username =>
      have portal := owned.1.symm.trans linked.accountType
      cases other : confirmation.account with
      | employee userId =>
        rw [other] at portal
        cases portal
      | admin name => rfl
  · intro username same
    subst same
    exact linked.adminUsername.symm.trans owned.2.2

end Chains

end Dagmar.ExternalAuth.Proofs
