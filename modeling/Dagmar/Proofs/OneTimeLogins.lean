import Dagmar.OAuthTransactions

/-! States and login results are used once. A callback holds the row of its state from
its check to its commit. A request for a result holds nothing between the two, so two
of them may deliver one result; that nobody else delivers it in between is a condition. -/

namespace Dagmar.OAuth.Proofs
open Library

section Safety

/-- A callback succeeds with the provider and the secret of the state it brings, in time. -/
def Matches (history : List Entry) (callback : Callback) : Prop :=
  ∃ start expiresAt, .started start expiresAt ∈ history ∧ start.state = callback.state ∧
    start.provider = callback.provider ∧ callback.browserSecret = some start.browserSecret ∧ callback.now < expiresAt

/-- A result goes to the browser that the login was started from, in time. -/
def Owns (history : List Entry) (request : ResultRequest) : Prop :=
  (∃ start expiresAt, .started start expiresAt ∈ history ∧ start.id = request.transactionId ∧
    request.browserSecret = some start.browserSecret) ∧
  ∃ expiresAt, .completed request.transactionId expiresAt ∈ history ∧ request.now < expiresAt

def Entry.consumedState : Entry → Option String
  | .consumed callback => some callback.state
  | _ => none

def Entry.deliveredId : Entry → Option String
  | .delivered request _ => some request.transactionId
  | _ => none

def consumedStates (history : List Entry) : List String := history.filterMap Entry.consumedState

def deliveredIds (history : List Entry) : List String := history.filterMap Entry.deliveredId

structure TransactionsSafe (history : List Entry) : Prop where
  consumedOnce : (consumedStates history).Nodup
  consumedBy : ∀ callback, .consumed callback ∈ history → Matches history callback
  deliveredTo : ∀ request payload, .delivered request payload ∈ history → Owns history request

def ResultsOnce (history : List Entry) : Prop := (deliveredIds history).Nodup

/-- A request commits a delivery only while nobody has delivered the result since it read it. -/
def Undelivered : Rule Store Flow := fun world who state _ =>
  ∀ request row, world.sessions who = .found request row → state ≠ world.state →
    ∀ current, world.state.transactions.get request.transactionId = some current → current.resultConsumedAt = none

def TransactsAlone (settings : Settings) : Rule Store Flow := fun world who state session =>
  Transacts settings world who state session ∧ Undelivered world who state session

end Safety

section History
variable {history : List Entry}

theorem Matches.later {callback : Callback} (matching : Matches history callback) (entries : List Entry) :
    Matches (entries ++ history) callback := by
  obtain ⟨start, expiresAt, started, rest⟩ := matching
  exact ⟨start, expiresAt, List.mem_append_right _ started, rest⟩

theorem Owns.later {request : ResultRequest} (owns : Owns history request) (entries : List Entry) :
    Owns (entries ++ history) request := by
  obtain ⟨⟨start, expiresAt, started, rest⟩, expiry, completed, early⟩ := owns
  exact ⟨⟨start, expiresAt, List.mem_append_right _ started, rest⟩, expiry, List.mem_append_right _ completed, early⟩

theorem mem_consumedStates {state : String} :
    state ∈ consumedStates history ↔ ∃ callback, .consumed callback ∈ history ∧ callback.state = state := by
  rw [consumedStates, List.mem_filterMap]
  constructor
  · rintro ⟨entry, member, named⟩
    cases entry with
    | consumed callback => exact ⟨callback, member, Option.some.inj named⟩
    | _ => cases named
  · rintro ⟨callback, member, rfl⟩
    exact ⟨_, member, rfl⟩

theorem mem_deliveredIds {id : String} :
    id ∈ deliveredIds history ↔ ∃ request payload, .delivered request payload ∈ history ∧ request.transactionId = id := by
  rw [deliveredIds, List.mem_filterMap]
  constructor
  · rintro ⟨entry, member, named⟩
    cases entry with
    | delivered request payload => exact ⟨request, payload, member, Option.some.inj named⟩
    | _ => cases named
  · rintro ⟨request, payload, member, rfl⟩
    exact ⟨_, member, rfl⟩

/-- One more entry is safe when what it says of a state or a result is new and true. -/
theorem TransactionsSafe.cons {entry : Entry} (safe : TransactionsSafe history)
    (unseen : ∀ state ∈ Entry.consumedState entry, state ∉ consumedStates history)
    (matching : ∀ callback, entry = .consumed callback → Matches history callback)
    (owns : ∀ request payload, entry = .delivered request payload → Owns history request) :
    TransactionsSafe (entry :: history) := by
  refine ⟨?_, ?_, ?_⟩
  · cases named : Entry.consumedState entry with
    | none =>
      rw [consumedStates, List.filterMap_cons_none named]
      exact safe.consumedOnce
    | some state =>
      rw [consumedStates, List.filterMap_cons_some named]
      exact List.nodup_cons.mpr ⟨unseen state named, safe.consumedOnce⟩
  · intro callback consumed
    rcases List.mem_cons.mp consumed with now | before
    · exact (matching callback now.symm).later [entry]
    · exact (safe.consumedBy callback before).later [entry]
  · intro request payload delivered
    rcases List.mem_cons.mp delivered with now | before
    · exact (owns request payload now.symm).later [entry]
    · exact (safe.deliveredTo request payload before).later [entry]

theorem TransactionsSafe.started (safe : TransactionsSafe history) (start : Start) (expiresAt : Int) :
    TransactionsSafe (.started start expiresAt :: history) := by
  apply safe.cons
  · intro state named
    cases named
  · intro callback same
    cases same
  · intro request payload same
    cases same

theorem TransactionsSafe.completed (safe : TransactionsSafe history) (id : String) (expiry : Int) :
    TransactionsSafe (.completed id expiry :: history) := by
  apply safe.cons
  · intro state named
    cases named
  · intro callback same
    cases same
  · intro request payload same
    cases same

theorem TransactionsSafe.consumed (safe : TransactionsSafe history) {callback : Callback}
    (unseen : callback.state ∉ consumedStates history) (matching : Matches history callback) :
    TransactionsSafe (.consumed callback :: history) := by
  apply safe.cons
  · intro state named
    cases named
    exact unseen
  · intro other same
    cases same
    exact matching
  · intro request payload same
    cases same

theorem TransactionsSafe.delivered (safe : TransactionsSafe history) {request : ResultRequest} (payload : Option String)
    (owns : Owns history request) : TransactionsSafe (.delivered request payload :: history) := by
  apply safe.cons
  · intro state named
    cases named
  · intro callback same
    cases same
  · intro other result same
    cases same
    exact owns

end History

section Rows
variable {settings : Settings} {store : Store}

/-- A row is what its start has made of it, apart from what is written later. -/
structure Originates (settings : Settings) (history : List Entry) (row : OAuthTransaction) : Prop where
  started : ∃ start, .started start row.expiresAt ∈ history ∧ row.id = start.id ∧
    row.stateHash = settings.sha256 start.state ∧ row.browserHash = settings.sha256 start.browserSecret ∧
    row.provider = start.provider
  completed : ∀ expiry ∈ row.resultExpiresAt, .completed row.id expiry ∈ history

theorem Originates.later {history : List Entry} {row : OAuthTransaction} (originates : Originates settings history row)
    (entries : List Entry) : Originates settings (entries ++ history) row := by
  obtain ⟨⟨start, started, made⟩, completed⟩ := originates
  exact ⟨⟨start, List.mem_append_right _ started, made⟩, fun expiry stored => List.mem_append_right _ (completed expiry stored)⟩

/-- Columns that no step writes. -/
structure SameStart (current next : OAuthTransaction) : Prop where
  id : next.id = current.id
  stateHash : next.stateHash = current.stateHash
  browserHash : next.browserHash = current.browserHash
  provider : next.provider = current.provider
  expiresAt : next.expiresAt = current.expiresAt

theorem Originates.write {history entries : List Entry} {current next : OAuthTransaction}
    (originates : Originates settings history current) (same : SameStart current next)
    (completed : ∀ expiry ∈ next.resultExpiresAt, expiry ∈ current.resultExpiresAt ∨ .completed next.id expiry ∈ entries) :
    Originates settings (entries ++ history) next := by
  obtain ⟨⟨start, started, id, stateHash, browserHash, provider⟩, before⟩ := originates
  refine ⟨⟨start, ?_, same.id.trans id, same.stateHash.trans stateHash, same.browserHash.trans browserHash,
    same.provider.trans provider⟩, ?_⟩
  · rw [same.expiresAt]
    exact List.mem_append_right _ started
  · intro expiry stored
    rcases completed expiry stored with kept | written
    · rw [same.id]
      exact List.mem_append_right _ (before expiry kept)
    · exact List.mem_append_left _ written

/-- What holds between commits. -/
structure Consistent (settings : Settings) (store : Store) : Prop where
  originates : ∀ row ∈ store.transactions, Originates settings store.history row
  distinct : ∀ first second since later, .started first since ∈ store.history → .started second later ∈ store.history →
    settings.sha256 first.state = settings.sha256 second.state → first.id = second.id
  spent : ∀ callback, .consumed callback ∈ store.history → ∀ row ∈ store.transactions,
    row.stateHash = settings.sha256 callback.state → row.consumedAt ≠ none
  emptied : ∀ request payload, .delivered request payload ∈ store.history → ∀ row ∈ store.transactions,
    row.id = request.transactionId → row.resultConsumedAt ≠ none
  safe : TransactionsSafe store.history

theorem Consistent.without (consistent : Consistent settings store) (ids : List String) :
    Consistent settings (store.without ids) where
  originates row member := consistent.originates row (Table.mem_deleteWhere.mp member).1
  distinct := consistent.distinct
  spent callback consumed row member := consistent.spent callback consumed row (Table.mem_deleteWhere.mp member).1
  emptied request payload delivered row member :=
    consistent.emptied request payload delivered row (Table.mem_deleteWhere.mp member).1
  safe := consistent.safe

/-- What is written over a row, with what the commit adds to the history. -/
structure Rewrites (settings : Settings) (history entries : List Entry) (current next : OAuthTransaction) : Prop where
  same : SameStart current next
  completed : ∀ expiry ∈ next.resultExpiresAt, expiry ∈ current.resultExpiresAt ∨ .completed next.id expiry ∈ entries
  stays : current.consumedAt ≠ none → next.consumedAt ≠ none
  empty : current.resultConsumedAt ≠ none → next.resultConsumedAt ≠ none
  startsNone : ∀ start expiry, .started start expiry ∉ entries
  spends : ∀ callback, .consumed callback ∈ entries → next.consumedAt ≠ none ∧
    current.stateHash = settings.sha256 callback.state
  empties : ∀ request payload, .delivered request payload ∈ entries → next.resultConsumedAt ≠ none ∧
    next.id = request.transactionId
  safe : TransactionsSafe (entries ++ history)

theorem Consistent.write (consistent : Consistent settings store) {current next : OAuthTransaction} {entries : List Entry}
    (member : current ∈ store.transactions) (rewrites : Rewrites settings store.history entries current next) :
    Consistent settings (store.write next entries) := by
  have rows : ∀ row, row ∈ (store.write next entries).transactions →
      row = next ∨ row ∈ store.transactions ∧ row.id ≠ next.id := fun row => Table.mem_put.mp
  have started : ∀ start expiry, .started start expiry ∈ entries ++ store.history → .started start expiry ∈ store.history :=
    fun start expiry found => (List.mem_append.mp found).resolve_left (rewrites.startsNone start expiry)
  refine ⟨?_, ?_, ?_, ?_, rewrites.safe⟩
  · intro row inside
    rcases rows row inside with rfl | ⟨kept, -⟩
    · exact (consistent.originates current member).write rewrites.same rewrites.completed
    · exact (consistent.originates row kept).later entries
  · intro first second since later one two
    exact consistent.distinct first second since later (started _ _ one) (started _ _ two)
  · intro callback consumed row inside hashed
    rcases List.mem_append.mp consumed with now | before
    · obtain ⟨spent, state⟩ := rewrites.spends callback now
      rcases rows row inside with rfl | ⟨kept, other⟩
      · exact spent
      -- Another row has another state.
      · exfalso
        obtain ⟨first, one, id, hash, -⟩ := (consistent.originates row kept).started
        obtain ⟨second, two, id', hash', -⟩ := (consistent.originates current member).started
        have equal := consistent.distinct first second _ _ one two
          (hash.symm.trans (hashed.trans (state.symm.trans hash')))
        exact other (id.trans (equal.trans (id'.symm.trans rewrites.same.id.symm)))
    · rcases rows row inside with rfl | ⟨kept, -⟩
      · exact rewrites.stays (consistent.spent callback before current member (rewrites.same.stateHash.symm.trans hashed))
      · exact consistent.spent callback before row kept hashed
  · intro request payload delivered row inside named
    rcases List.mem_append.mp delivered with now | before
    · obtain ⟨emptied, id⟩ := rewrites.empties request payload now
      rcases rows row inside with rfl | ⟨-, other⟩
      · exact emptied
      · exact absurd (named.trans id.symm) other
    · rcases rows row inside with rfl | ⟨kept, -⟩
      · exact rewrites.empty (consistent.emptied request payload before current member (rewrites.same.id.symm.trans named))
      · exact consistent.emptied request payload before row kept named

theorem Consistent.insert (consistent : Consistent settings store) {start : Start} {now : Int}
    (random : ∀ other expiry, .started other expiry ∈ store.history →
      other.id ≠ start.id ∧ settings.sha256 other.state ≠ settings.sha256 start.state) :
    Consistent settings
      (store.write (start.transaction settings now) [.started start (start.transaction settings now).expiresAt]) := by
  have rows : ∀ row, row ∈ (store.write (start.transaction settings now) []).transactions →
      row = start.transaction settings now ∨ row ∈ store.transactions := fun row member =>
    (Table.mem_put.mp member).imp_right And.left
  refine ⟨?_, ?_, ?_, ?_, ?_⟩
  · intro row inside
    rcases rows row inside with rfl | kept
    · refine ⟨⟨start, List.mem_cons_self, rfl, rfl, rfl, rfl⟩, ?_⟩
      intro expiry stored
      cases stored
    · exact (consistent.originates row kept).later [_]
  · intro first second since later one two same
    rcases List.mem_cons.mp one with this | before <;> rcases List.mem_cons.mp two with that | earlier
    · cases this
      cases that
      rfl
    · cases this
      exact absurd same.symm (random second later earlier).2
    · cases that
      exact absurd same (random first since before).2
    · exact consistent.distinct first second since later before earlier same
  · intro callback consumed row inside hashed
    have before := (List.mem_cons.mp consumed).resolve_left (by simp)
    rcases rows row inside with rfl | kept
    · obtain ⟨other, expiry, started, state, -⟩ := consistent.safe.consumedBy callback before
      rw [← state] at hashed
      exact absurd hashed.symm (random other expiry started).2
    · exact consistent.spent callback before row kept hashed
  · intro request payload delivered row inside named
    have before := (List.mem_cons.mp delivered).resolve_left (by simp)
    rcases rows row inside with rfl | kept
    · obtain ⟨⟨other, expiry, started, id, -⟩, -⟩ := consistent.safe.deliveredTo request payload before
      exact absurd (id.trans named.symm) (random other expiry started).1
    · exact consistent.emptied request payload before row kept named
  · exact consistent.safe.started start _

end Rows

section Checks
variable {settings : Settings} {store : Store} {row : OAuthTransaction}

theorem boundTo_iff {browserSecret : Option String} :
    row.boundTo settings browserSecret = true ↔
      ∃ secret, browserSecret = some secret ∧ secret ≠ "" ∧ row.browserHash = settings.sha256 secret := by
  simp [OAuthTransaction.boundTo, Option.any_eq_true]

theorem consumption_consumed {callback : Callback} :
    callback.consumption settings row = .consumed ↔
      row.consumedAt = none ∧ callback.now < row.expiresAt ∧ row.boundTo settings callback.browserSecret = true := by
  constructor
  · intro accepted
    unfold Callback.consumption at accepted
    split_ifs at accepted with replayed expired unbound
    exact ⟨not_not.mp replayed, Int.not_le.mp expired, unbound⟩
  · rintro ⟨unspent, early, bound⟩
    rw [Callback.consumption, if_neg (not_not.mpr unspent), if_neg (Int.not_le.mpr early), if_neg (not_not.mpr bound)]

/-- The secret that a row is bound to is the one the start has given out. -/
theorem Originates.secret {history : List Entry} (injective : Function.Injective settings.sha256)
    (originates : Originates settings history row) {browserSecret : Option String}
    (bound : row.boundTo settings browserSecret = true) :
    ∃ start, .started start row.expiresAt ∈ history ∧ row.id = start.id ∧ row.stateHash = settings.sha256 start.state ∧
      row.provider = start.provider ∧ browserSecret = some start.browserSecret := by
  obtain ⟨start, started, id, state, browser, provider⟩ := originates.started
  obtain ⟨secret, rfl, -, hashed⟩ := boundTo_iff.mp bound
  exact ⟨start, started, id, state, provider, congrArg some (injective (hashed.symm.trans browser))⟩

theorem Consistent.owns (consistent : Consistent settings store) (injective : Function.Injective settings.sha256)
    {request : ResultRequest} (got : store.transactions.get request.transactionId = some row)
    (admits : request.admits settings row) : Owns store.history request := by
  obtain ⟨member, named⟩ := Table.get_eq_some_iff.mp got
  obtain ⟨-, -, -, ⟨expiry, stored, early⟩, bound, -⟩ := admits
  have originates := consistent.originates row member
  obtain ⟨start, started, id, -, -, secret⟩ := originates.secret injective bound
  have completed := originates.completed expiry stored
  rw [named] at id completed
  exact ⟨⟨start, _, started, id.symm, secret⟩, expiry, completed, early⟩

theorem Consistent.matches (consistent : Consistent settings store) (injective : Function.Injective settings.sha256)
    {callback : Callback} (member : row ∈ store.transactions) (state : row.stateHash = settings.sha256 callback.state)
    (provider : row.provider = callback.provider) (accepted : callback.consumption settings row = .consumed) :
    Matches store.history callback := by
  obtain ⟨-, early, bound⟩ := consumption_consumed.mp accepted
  obtain ⟨start, started, -, hashed, made, secret⟩ := (consistent.originates row member).secret injective bound
  exact ⟨start, _, started, injective (hashed.symm.trans state), made.symm.trans provider, secret, early⟩

end Checks

section Writes
variable {settings : Settings} {store : Store} {row : OAuthTransaction}

theorem Consistent.expire (consistent : Consistent settings store) (member : row ∈ store.transactions) (now : Int) :
    Consistent settings (store.write { row with consumedAt := some now } []) := by
  refine consistent.write member ⟨⟨rfl, rfl, rfl, rfl, rfl⟩, fun _ stored => .inl stored, ?_, fun empty => empty, ?_, ?_, ?_, ?_⟩
  · exact fun _ => Option.some_ne_none _
  · exact fun _ _ => List.not_mem_nil
  · exact fun _ impossible => absurd impossible List.not_mem_nil
  · exact fun _ _ impossible => absurd impossible List.not_mem_nil
  · exact consistent.safe

theorem Consistent.consume (consistent : Consistent settings store) (injective : Function.Injective settings.sha256)
    {callback : Callback} (member : row ∈ store.transactions) (state : row.stateHash = settings.sha256 callback.state)
    (provider : row.provider = callback.provider) (accepted : callback.consumption settings row = .consumed) :
    Consistent settings (store.write { row with consumedAt := some callback.now } [.consumed callback]) := by
  have unseen : callback.state ∉ consumedStates store.history := by
    intro seen
    obtain ⟨earlier, consumed, same⟩ := mem_consumedStates.mp seen
    refine consistent.spent earlier consumed row member ?_ (consumption_consumed.mp accepted).1
    rw [same, state]
  refine consistent.write member ⟨⟨rfl, rfl, rfl, rfl, rfl⟩, fun _ stored => .inl stored, ?_, fun empty => empty, ?_, ?_, ?_, ?_⟩
  · exact fun _ => Option.some_ne_none _
  · intro start expiry
    simp
  · intro other now
    cases List.mem_singleton.mp now
    exact ⟨Option.some_ne_none _, state⟩
  · intro request payload delivered
    cases List.mem_singleton.mp delivered
  · exact consistent.safe.consumed unseen (consistent.matches injective member state provider accepted)

theorem Consistent.complete (consistent : Consistent settings store) {id : String}
    (got : store.transactions.get id = some row) (payload : String) (expiry : Int) :
    Consistent settings
      (store.write { row with resultPayload := some payload, resultExpiresAt := some expiry } [.completed id expiry]) := by
  obtain ⟨member, rfl⟩ := Table.get_eq_some_iff.mp got
  refine consistent.write member ⟨⟨rfl, rfl, rfl, rfl, rfl⟩, ?_, fun stays => stays, fun empty => empty, ?_, ?_, ?_, ?_⟩
  · rintro later stored
    cases stored
    exact .inr List.mem_cons_self
  · intro start since
    simp
  · intro callback consumed
    cases List.mem_singleton.mp consumed
  · intro request result delivered
    cases List.mem_singleton.mp delivered
  · exact consistent.safe.completed row.id expiry

theorem Consistent.deliver (consistent : Consistent settings store) {request : ResultRequest}
    (got : store.transactions.get request.transactionId = some row) (owns : Owns store.history request)
    (payload : Option String) :
    Consistent settings
      (store.write { row with resultPayload := none, resultConsumedAt := some request.now }
        [.delivered request payload]) := by
  obtain ⟨member, named⟩ := Table.get_eq_some_iff.mp got
  refine consistent.write member ⟨⟨rfl, rfl, rfl, rfl, rfl⟩, fun _ stored => .inl stored, fun stays => stays, ?_, ?_, ?_, ?_, ?_⟩
  · exact fun _ => Option.some_ne_none _
  · intro start since
    simp
  · intro callback consumed
    cases List.mem_singleton.mp consumed
  · intro other result delivered
    cases List.mem_singleton.mp delivered
    exact ⟨Option.some_ne_none _, named⟩
  · exact consistent.safe.delivered payload owns

end Writes

section Sessions
variable {settings : Settings} {world : World Store Flow} {who : Nat} {store : Store} {session : Flow}

/-- What a request may rely on after its reads. -/
def Sound (settings : Settings) (store : Store) : Flow → Prop
  | .locked callback row =>
    row ∈ store.transactions ∧ row.stateHash = settings.sha256 callback.state ∧ row.provider = callback.provider
  | .found request _ => Owns store.history request
  | _ => True

structure Ordered (settings : Settings) (world : World Store Flow) : Prop where
  consistent : Consistent settings world.state
  sound : ∀ who, Sound settings world.state (world.sessions who)
  alone : Exclusive HoldsRow (fun _ _ => False) world

/-- A row that a request holds is left alone by everybody else. -/
theorem Sound.later {next : Store} {entries : List Entry} (sound : Sound settings store session)
    (kept : ∀ row ∈ store.transactions, HoldsRow session row.id → row ∈ next.transactions)
    (grown : next.history = entries ++ store.history) : Sound settings next session := by
  cases session with
  | locked callback row => exact ⟨kept row sound.1 rfl, sound.2⟩
  | found request row =>
    change Owns next.history request
    rw [grown]
    exact Owns.later sound entries
  | _ => trivial

theorem mem_write_of_ne {row next : OAuthTransaction} {entries : List Entry} (member : row ∈ store.transactions)
    (different : row.id ≠ next.id) : row ∈ (store.write next entries).transactions :=
  Table.mem_put.mpr (.inr ⟨member, different⟩)

theorem Ordered.change (ordered : Ordered settings world) (entries : List Entry) (consistent : Consistent settings store)
    (grown : store.history = entries ++ world.state.history) (sound : Sound settings store session)
    (kept : ∀ other, other ≠ who → ∀ row ∈ world.state.transactions, HoldsRow (world.sessions other) row.id →
      row ∈ store.transactions)
    (held : ∀ key, HoldsRow session key → HoldsRow (world.sessions who) key ∨ Available HoldsRow world who key) :
    Ordered settings (world.move who store session) := by
  refine ⟨consistent, ?_, ?_⟩
  · refine World.forall_move _ sound fun other different => ?_
    exact (ordered.sound other).later (kept other different) grown
  · refine ordered.alone.move (fun key holds => (held key holds).imp_right fun free => ⟨free, ?_⟩) fun _ impossible => impossible.elim
    exact fun _ _ impossible => impossible

/-- A step that commits nothing has only its own session to answer for. -/
theorem Ordered.turn (ordered : Ordered settings world) (sound : Sound settings world.state session)
    (held : ∀ key, HoldsRow session key → HoldsRow (world.sessions who) key ∨ Available HoldsRow world who key) :
    Ordered settings (world.move who world.state session) :=
  ordered.change [] ordered.consistent rfl sound (fun _ _ _ member _ => member) held

/-- A row is written by a request that holds it, or when nobody does. -/
theorem Ordered.write (ordered : Ordered settings world) {next : OAuthTransaction} {entries : List Entry}
    (consistent : Consistent settings (world.state.write next entries)) (free : Available HoldsRow world who next.id)
    (sound : Sound settings (world.state.write next entries) session) (released : ∀ key, ¬ HoldsRow session key) :
    Ordered settings (world.move who (world.state.write next entries) session) := by
  refine ordered.change entries consistent rfl sound ?_ fun key holds => absurd holds (released key)
  intro other different row member holds
  refine mem_write_of_ne member fun same => free other different ?_
  exact same ▸ holds

theorem Ordered.free (ordered : Ordered settings world) {key : String} (holds : HoldsRow (world.sessions who) key) :
    Available HoldsRow world who key :=
  fun other different => (ordered.alone who other different.symm key holds).1

theorem Ordered.start (ordered : Ordered settings world) {now : Int} {purged : List String} {start : Start}
    (starting : world.sessions who = .starting now purged)
    (random : ∀ other expiry, .started other expiry ∈ world.state.history →
      other.id ≠ start.id ∧ settings.sha256 other.state ≠ settings.sha256 start.state) :
    Ordered settings
      (world.move who
        ((world.state.without purged).write (start.transaction settings now)
          [.started start (start.transaction settings now).expiresAt])
        .idle) := by
  refine ordered.change [_] ((ordered.consistent.without purged).insert random) rfl trivial ?_ fun _ impossible => impossible.elim
  intro other different row member holds
  refine mem_write_of_ne (Table.mem_deleteWhere.mpr ⟨member, ?_⟩) ?_
  · intro deleted
    have mine : HoldsRow (world.sessions who) row.id := by
      rw [starting]
      exact deleted
    exact ordered.free mine other different holds
  · intro same
    obtain ⟨earlier, started, id, -⟩ := (ordered.consistent.originates row member).started
    exact (random earlier _ started).1 (id.symm.trans same)

theorem Ordered.remove (ordered : Ordered settings world) {ids : List String}
    (free : ∀ id ∈ ids, Available HoldsRow world who id) :
    Ordered settings (world.move who (world.state.without ids) .idle) := by
  refine ordered.change [] (ordered.consistent.without ids) rfl trivial ?_ fun _ impossible => impossible.elim
  intro other different row member holds
  exact Table.mem_deleteWhere.mpr ⟨member, fun deleted => free row.id deleted other different holds⟩

theorem Ordered.step (injective : Function.Injective settings.sha256) (ordered : Ordered settings world)
    (allowed : Transacts settings world who store session) : Ordered settings (world.move who store session) := by
  have mine := ordered.sound who
  cases allowed with
  | abandon => exact ordered.turn trivial fun _ impossible => impossible.elim
  | remove ids idle free => exact ordered.remove free
  | purge now ids idle old free => exact ordered.turn trivial fun key holds => .inr (free key holds)
  | start start starting enabled random => exact ordered.start starting random
  | call => exact ordered.turn trivial fun _ impossible => impossible.elim
  | lock calling member state provider free =>
    refine ordered.turn ⟨member, state, provider⟩ ?_
    rintro key rfl
    exact .inr free
  | expire locked expired =>
    rw [locked] at mine
    exact ordered.write (ordered.consistent.expire mine.1 _) (ordered.free (by rw [locked]; exact rfl)) trivial fun _ => id
  | consume locked accepted =>
    rw [locked] at mine
    obtain ⟨member, state, provider⟩ := mine
    exact ordered.write (ordered.consistent.consume injective member state provider accepted)
      (ordered.free (by rw [locked]; exact rfl)) trivial fun _ => id
  | complete payload now exchanging got login free =>
    refine ordered.write (ordered.consistent.complete got payload _) ?_ trivial fun _ => id
    rw [← (Table.get_eq_some_iff.mp got).2] at free
    exact free
  | read request idle got admits =>
    exact ordered.turn (ordered.consistent.owns injective got admits) fun _ impossible => impossible.elim
  | deliver found got free =>
    rw [found] at mine
    refine ordered.write (ordered.consistent.deliver got mine _) ?_ trivial fun _ => id
    rw [← (Table.get_eq_some_iff.mp got).2] at free
    exact free

end Sessions

section Main
variable {settings : Settings} {world : World Store Flow} {who : Nat} {store : Store} {session : Flow}

theorem Ordered.quiet : Ordered settings (World.quiet Store.start .idle) := by
  have none {entry : Entry} (member : entry ∈ Store.start.history) : False := List.not_mem_nil member
  have empty {row : OAuthTransaction} (member : row ∈ Store.start.transactions) : False := Table.not_mem_empty row member
  refine ⟨⟨?_, ?_, ?_, ?_, List.nodup_nil, ?_, ?_⟩, fun _ => trivial, ?_⟩
  · exact fun _ member => (empty member).elim
  · exact fun _ _ _ _ member => (none member).elim
  · exact fun _ member => (none member).elim
  · exact fun _ _ member => (none member).elim
  · exact fun _ member => (none member).elim
  · exact fun _ _ member => (none member).elim
  · exact fun _ _ _ _ impossible => impossible.elim

/-- A delivery on a row that is still unconsumed is the first one. -/
theorem ResultsOnce.step (once : ResultsOnce world.state.history) (ordered : Ordered settings world)
    (allowed : TransactsAlone settings world who store session) : ResultsOnce store.history := by
  obtain ⟨step, undelivered⟩ := allowed
  cases step with
  | @deliver request row current found got free =>
    refine List.nodup_cons.mpr ⟨?_, once⟩
    intro seen
    obtain ⟨earlier, payload, delivered, same⟩ := mem_deliveredIds.mp seen
    obtain ⟨member, named⟩ := Table.get_eq_some_iff.mp got
    have written : world.state.write { current with resultPayload := none, resultConsumedAt := some request.now }
        [.delivered request row.resultPayload] ≠ world.state := by
      intro equal
      have longer := congrArg (fun store => store.history.length) equal
      simp [Store.write] at longer
    have unconsumed := undelivered request row found written current got
    exact ordered.consistent.emptied earlier payload delivered current member (named.trans same.symm) unconsumed
  | _ => exact once

theorem transactions_once (settings : Settings) (injective : Function.Injective settings.sha256) :
    (∀ world, Reaches (Transacts settings) (World.quiet Store.start .idle) world →
      TransactionsSafe world.state.history) ∧
    ∀ world, Reaches (TransactsAlone settings) (World.quiet Store.start .idle) world →
      ResultsOnce world.state.history := by
  refine ⟨?_, ?_⟩
  · intro world reached
    have ordered : Ordered settings world :=
      reached.keeps (Ordered settings) .quiet fun _ _ _ _ before allowed => before.step injective allowed
    exact ordered.consistent.safe
  · intro world reached
    have kept : Ordered settings world ∧ ResultsOnce world.state.history := by
      refine reached.keeps (fun world => Ordered settings world ∧ ResultsOnce world.state.history) ⟨.quiet, List.nodup_nil⟩ ?_
      intro before who store session holds allowed
      exact ⟨holds.1.step injective allowed.1, holds.2.step holds.1 allowed⟩
    exact kept.2

end Main

section Samples

def sampleStart : Start where
  provider := .google
  purpose := .login
  portal := .employee
  offered := none
  id := "T"
  state := "Jx0aT2fQ9mWcLr7vYb3nKd5sHg1pUe8iOz4qXtR6yAk"
  drawn := "Qm4dV7sLc1xBn9gTf2rHw8kPz5yJa3uEo6iXvS0tNbM"

/-- The two secrets of one login as they are hashed. -/
def sampleSettings : Settings where
  sha256 text :=
    if text = sampleStart.state then "d6b0ffe92e2a48fde92f5818ad3529c2ea981a7c89f5b460b14ad7f249c788ef"
    else if text = sampleStart.drawn then "4f831122c84645a959a23f2c8fcfc2bee370ae960aa32796be51f76be806a165"
    else String.ofList ('-' :: text.toList)
  providerEnabled _ := true
  externalAuthTransactionTtlSeconds := 600
  externalAuthResultTtlSeconds := 120

theorem sampleSettings_injective : Function.Injective sampleSettings.sha256 := by
  intro first second same
  have head (digest text : String) (starts : digest.toList.head? ≠ some '-') : digest ≠ String.ofList ('-' :: text.toList) := by
    intro equal
    rw [equal, String.toList_ofList] at starts
    exact starts rfl
  have state (text : String) := head "d6b0ffe92e2a48fde92f5818ad3529c2ea981a7c89f5b460b14ad7f249c788ef" text (by decide +kernel)
  have secret (text : String) := head "4f831122c84645a959a23f2c8fcfc2bee370ae960aa32796be51f76be806a165" text (by decide +kernel)
  have different : "d6b0ffe92e2a48fde92f5818ad3529c2ea981a7c89f5b460b14ad7f249c788ef" ≠
      "4f831122c84645a959a23f2c8fcfc2bee370ae960aa32796be51f76be806a165" := by decide +kernel
  by_cases one : first = sampleStart.state <;> by_cases two : second = sampleStart.state
  · exact one.trans two.symm
  · simp only [sampleSettings, if_pos one, if_neg two] at same
    split_ifs at same
    · exact absurd same different
    · exact absurd same (state second)
  · simp only [sampleSettings, if_neg one, if_pos two] at same
    split_ifs at same
    · exact absurd same.symm different
    · exact absurd same.symm (state first)
  · simp only [sampleSettings, if_neg one, if_neg two] at same
    split_ifs at same with three four four
    · exact three.trans four.symm
    · exact absurd same (secret second)
    · exact absurd same.symm (secret first)
    · exact String.toList_injective (List.cons.inj (String.ofList_injective same)).2

def sampleCallback : Callback := ⟨.google, sampleStart.state, some sampleStart.drawn, 1⟩

def sampleRequest : ResultRequest := ⟨"T", some sampleStart.drawn, 3⟩

def startedRow : OAuthTransaction := sampleStart.transaction sampleSettings 0

def consumedRow : OAuthTransaction := { startedRow with consumedAt := some 1 }

def completedRow : OAuthTransaction :=
  { consumedRow with
    resultPayload := some "login"
    resultExpiresAt := some (2 + seconds sampleSettings.externalAuthResultTtlSeconds) }

def startedStore : Store := (Store.start.without []).write startedRow [.started sampleStart startedRow.expiresAt]

def consumedStore : Store := startedStore.write consumedRow [.consumed sampleCallback]

def completedStore : Store :=
  consumedStore.write completedRow [.completed "T" (2 + seconds sampleSettings.externalAuthResultTtlSeconds)]

def deliveredRow : OAuthTransaction := { completedRow with resultPayload := none, resultConsumedAt := some 3 }

def deliveredStore : Store := completedStore.write deliveredRow [.delivered sampleRequest (some "login")]

/-- The steps before a result is read are under no condition. -/
theorem alone_of_unread {settings : Settings} {world : World Store Flow} {who : Nat} {store : Store} {session flow : Flow}
    (step : Transacts settings world who store session) (stands : world.sessions who = flow)
    (unread : ∀ request row, flow ≠ .found request row) : TransactsAlone settings world who store session :=
  ⟨step, fun request row found => absurd (stands.symm.trans found) (unread request row)⟩

def Released (flow : Flow) : Prop := ∀ key, ¬ HoldsRow flow key

theorem available_of_released {world : World Store Flow} (released : ∀ who, Released (world.sessions who)) (who : Nat)
    (key : String) : Available HoldsRow world who key :=
  fun other _ => released other key

theorem released_move {world : World Store Flow} {who : Nat} {store : Store} {flow : Flow}
    (others : ∀ who, Released (world.sessions who)) (mine : Released flow) :
    ∀ other, Released ((world.move who store flow).sessions other) :=
  World.forall_move Released mine fun other _ => others other

theorem released_idle : Released .idle := fun _ => id

theorem released_quiet (who : Nat) : Released ((World.quiet Store.start Flow.idle).sessions who) := released_idle

theorem sample_bound : startedRow.boundTo sampleSettings (some sampleStart.drawn) = true :=
  boundTo_iff.mpr ⟨_, rfl, by decide +kernel, rfl⟩

theorem got_completed : completedStore.transactions.get "T" = some completedRow := Table.get_put_self _ rfl

/-- One login from its start to the stored result. -/
theorem login_completed :
    Reaches (TransactsAlone sampleSettings) (World.quiet Store.start .idle)
      ((World.quiet Store.start .idle).move 0 completedStore .idle) := by
  have accepted : sampleCallback.consumption sampleSettings startedRow = .consumed :=
    consumption_consumed.mpr ⟨rfl, by decide, sample_bound⟩
  have purged : Reaches (TransactsAlone sampleSettings) (World.quiet Store.start .idle)
      ((World.quiet Store.start .idle).move 0 Store.start (.starting 0 [])) := by
    have stands : (World.quiet Store.start Flow.idle).sessions 0 = .idle := rfl
    refine Reaches.step .refl 0 (alone_of_unread (.purge 0 [] stands ?_ ?_) stands (by simp))
    · exact fun _ member => absurd member List.not_mem_nil
    · exact fun _ member => absurd member List.not_mem_nil
  have started : Reaches (TransactsAlone sampleSettings) (World.quiet Store.start .idle)
      ((World.quiet Store.start .idle).move 0 startedStore .idle) := by
    refine purged.again (alone_of_unread ?_ (World.move_self ..) (by simp))
    exact .start sampleStart (World.move_self ..) rfl fun _ _ member => absurd member List.not_mem_nil
  have called := started.again (alone_of_unread (.call sampleCallback (World.move_self ..)) (World.move_self ..) (by simp))
  have locked := called.again (alone_of_unread
    (.lock (World.move_self ..) (Table.mem_put.mpr (.inl rfl)) rfl rfl (available_of_released (released_move released_quiet fun _ => id) 0 _)) (World.move_self ..) (by simp))
  have consumed := locked.again (alone_of_unread (.consume (World.move_self ..) accepted) (World.move_self ..) (by simp))
  exact consumed.again (alone_of_unread
    (.complete "login" 2 (World.move_self ..) (Table.get_put_self _ rfl) ⟨rfl, rfl⟩ (available_of_released (released_move released_quiet fun _ => id) 0 _))
    (World.move_self ..) (by simp))

theorem sample_admitted : sampleRequest.admits sampleSettings completedRow :=
  ⟨rfl, rfl, rfl, ⟨_, rfl, by decide⟩, sample_bound, _, rfl, by decide⟩

/-- The login is delivered once, to the browser that started it. -/
theorem login_delivered : ∃ world, Reaches (TransactsAlone sampleSettings) (World.quiet Store.start .idle) world ∧
    consumedStates world.state.history = [sampleStart.state] ∧ deliveredIds world.state.history = ["T"] ∧
    TransactionsSafe world.state.history ∧ ResultsOnce world.state.history := by
  have read := login_completed.again (alone_of_unread
    (.read sampleRequest (World.move_self ..) got_completed sample_admitted) (World.move_self ..) (by simp))
  have delivered : Reaches (TransactsAlone sampleSettings) (World.quiet Store.start .idle)
      ((World.quiet Store.start .idle).move 0 deliveredStore .idle) := by
    refine read.again ⟨.deliver (World.move_self ..) got_completed (available_of_released (released_move released_quiet fun _ => id) 0 _), ?_⟩
    intro request row found written current got
    rw [World.move_self] at found
    cases found
    cases got_completed.symm.trans got
    rfl
  have once := transactions_once sampleSettings sampleSettings_injective
  exact ⟨_, delivered, rfl, rfl, once.1 _ (delivered.mono fun _ _ _ _ allowed => allowed.1), once.2 _ delivered⟩

/-- Two requests read the result before either of them commits. -/
theorem login_delivered_twice : ∃ world, Reaches (Transacts sampleSettings) (World.quiet Store.start .idle) world ∧
    deliveredIds world.state.history = ["T", "T"] ∧ ¬ ResultsOnce world.state.history := by
  have found : Released (.found sampleRequest completedRow) := fun _ => id
  have gone : deliveredStore.transactions.get "T" = some deliveredRow := Table.get_put_self _ rfl
  have completed := login_completed.mono fun _ _ _ _ allowed => allowed.1
  have first := completed.again (.read sampleRequest (World.move_self ..) got_completed sample_admitted)
  have second := first.step 1 (.read sampleRequest rfl got_completed sample_admitted)
  have reading : ∀ who, Released ((((World.quiet Store.start .idle).move 0 completedStore
      (.found sampleRequest completedRow)).move 1 completedStore (.found sampleRequest completedRow)).sessions who) :=
    released_move (released_move released_quiet found) found
  have delivered := second.step 0 (.deliver rfl got_completed (available_of_released reading 0 _))
  have twice := delivered.step 1 (.deliver rfl gone (available_of_released (released_move reading released_idle) 1 _))
  refine ⟨_, twice, rfl, ?_⟩
  intro once
  cases once with
  | cons fresh _ => exact fresh "T" List.mem_cons_self rfl

end Samples

end Dagmar.OAuth.Proofs
