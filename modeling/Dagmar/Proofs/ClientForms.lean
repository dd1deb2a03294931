import Dagmar.IntegrationAdmin
import Dagmar.Proofs.CachedSummaries

/-! What the administration keeps of integration clients. Every client that a form has
saved is well formed, a form that is saved as it was opened changes at most the
expiration, and what a form opens is what the integration interface lets through. -/

namespace Dagmar.IntegrationAdmin.Proofs
open Library Library.Calendar Library.Outcome Integration Dagmar.Proofs
open Secrets (IntegrationClientStatus)

section Purpose

/-- A name that a form may give. -/
structure ClientName (lower : String → String) (name : String) : Prop where
  length : nameMinLength ≤ name.length ∧ name.length ≤ nameMaxLength
  stripped : strip name = name
  characters : ∀ c ∈ name.toList, isNameCharacter c = true
  noAddress : ∀ mark ∈ addressMarks, contains (lower name) mark = false
  noSecret : ∀ mark ∈ secretMarks, startsWith (lower name) mark = false

structure ClientScopes (scopes : List String) : Prop where
  strict : scopes.Pairwise (· < ·)
  health : scopeHealth ∈ scopes
  available : ∀ scope ∈ scopes, ⟨scope, true⟩ ∈ scopeDefinitions

/-- Numbers that a query can compare, in order and each once. -/
structure ClientIds (ids : List Int) : Prop where
  strict : ids.Pairwise (· < ·)
  bounded : ∀ id ∈ ids, -integerMax - 1 ≤ id ∧ id ≤ integerMax

/-- A client whose columns agree with each other. -/
structure WellFormed (lower : String → String) (client : IntegrationClient) : Prop where
  name : ClientName lower client.name
  scopes : ClientScopes client.scopes
  mode : client.dataScopeMode ∈ dataScopes
  employees : ClientIds client.allowedEmployeeIds
  employments : ClientIds client.allowedEmploymentIds
  selectsEmployees : client.allowedEmployeeIds ≠ [] ↔ client.dataScopeMode = scopeSelectedEmployees
  selectsEmployments : client.allowedEmploymentIds ≠ [] ↔ client.dataScopeMode = scopeSelectedEmployments
  inactive : client.dataScopeMode ≠ scopeSelectedEmployees →
    (client.includeInactiveEmployments = true ↔ client.dataScopeMode = scopeAll)

end Purpose

section Checks
variable {lower : String → String}

theorem printable_of_isNameCharacter {c : Char} (valid : isNameCharacter c = true) : 32 ≤ c.toNat := by
  have named (d : Char) (small : 32 ≤ d.toNat) (same : c = d) : 32 ≤ c.toNat := same ▸ small
  simp only [isNameCharacter, decide_eq_true_eq] at valid
  rcases valid with ⟨digit, -⟩ | ⟨upper, -⟩ | ⟨letter, -⟩ | ⟨wide, -⟩ | same | same | same
  · exact le_trans (by decide) (Char.le_def.mp digit : _)
  · exact le_trans (by decide) (Char.le_def.mp upper : _)
  · exact le_trans (by decide) (Char.le_def.mp letter : _)
  · omega
  · exact named ' ' (by decide) same
  · exact named '_' (by decide) same
  · exact named '-' (by decide) same

/-- A character that no name has is in no name. -/
theorem not_contains {name part : String} {c : Char} (characters : ∀ c ∈ name.toList, isNameCharacter c = true)
    (outside : isNameCharacter c = false) (inside : c ∈ part.toList) : contains name part = false := by
  apply decide_eq_false
  intro found
  have member : c ∈ name.toList := found.subset inside
  rw [characters c member] at outside
  cases outside

theorem validateClientName_eq_ok {raw name : String} :
    validateClientName lower raw = .ok name ↔ name = strip raw ∧ ClientName lower name := by
  simp only [validateClientName, bind_eq_ok, raiseIf_eq_ok, pure_eq_ok]
  constructor
  · intro done
    obtain ⟨-, short, -, long, -, -, -, spelled, -, address, -, -, -, secret, rfl⟩ := done
    push Not at short long spelled
    refine ⟨rfl, ⟨short, long⟩, strip_strip raw, List.all_eq_true.mp spelled.2, ?_, ?_⟩
    · intro mark listed
      by_contra found
      exact address (List.any_eq_true.mpr ⟨mark, listed, by simpa using found⟩)
    · intro mark listed
      by_contra found
      exact secret (List.any_eq_true.mpr ⟨mark, listed, by simpa using found⟩)
  · rintro ⟨same, valid⟩
    subst same
    have short : ¬ (strip raw).length < nameMinLength := not_lt.mpr valid.length.1
    have present : strip raw ≠ "" := by
      intro empty
      rw [empty] at short
      exact short (by decide)
    have plain : ¬ (strip raw).toList.any (·.toNat < 32) = true := by
      rw [List.any_eq_true]
      rintro ⟨c, member, control⟩
      have printable := printable_of_isNameCharacter (valid.characters c member)
      simp only [decide_eq_true_eq] at control
      omega
    have quiet (marks : List String) (reads : String → Bool) (none : ∀ mark ∈ marks, reads mark = false) :
        ¬ marks.any reads = true := by
      rw [List.any_eq_true]
      rintro ⟨mark, listed, found⟩
      rw [none mark listed] at found
      cases found
    have tags : ¬ (contains (strip raw) "<" = true ∨ contains (strip raw) ">" = true) := by
      have opened : contains (strip raw) "<" = false :=
        not_contains valid.characters (show isNameCharacter '<' = false by decide) (by decide)
      have closed : contains (strip raw) ">" = false :=
        not_contains valid.characters (show isNameCharacter '>' = false by decide) (by decide)
      simp [opened, closed]
    exact ⟨(), short, (), not_lt.mpr valid.length.2, (), plain, (),
      not_not_intro ⟨present, List.all_eq_true.mpr valid.characters⟩, (), quiet _ _ valid.noAddress, (), tags, (),
      quiet _ _ valid.noSecret, rfl⟩

theorem checkScope_eq_ok {scope : String} : checkScope scope = .ok () ↔ ⟨scope, true⟩ ∈ scopeDefinitions := by
  simp only [checkScope, bind_eq_ok, require_eq_ok, raiseIf_eq_ok]
  constructor
  · rintro ⟨definition, found, available⟩
    have member := List.mem_of_find?_eq_some found
    have named := List.find?_some found
    simp only [decide_eq_true_eq] at named
    obtain ⟨id, flag⟩ := definition
    subst named
    simpa using (by simpa using available : flag = true) ▸ member
  · intro member
    have found : scopeDefinitions.find? (·.id = scope) = some ⟨scope, true⟩ := by
      have distinct : ∀ definition ∈ scopeDefinitions, scopeDefinitions.find? (·.id = definition.id) = some definition := by
        decide +kernel
      exact distinct _ member
    exact ⟨_, found, by simp⟩

/-- Every scope on offer is spelled without blanks. -/
theorem scopes_spelled {scope : String} (available : ⟨scope, true⟩ ∈ scopeDefinitions) : strip scope = scope ∧ scope ≠ "" := by
  have all : ∀ definition ∈ scopeDefinitions, strip definition.id = definition.id ∧ definition.id ≠ "" := by
    decide +kernel
  exact all ⟨scope, true⟩ available

theorem mem_normalizeStringList {values : List String} {text : String} :
    text ∈ normalizeStringList values ↔ text ≠ "" ∧ ∃ value ∈ values, strip value = text := by
  simp only [normalizeStringList, mem_sortedSet, List.mem_filter, List.mem_map, decide_eq_true_eq]
  exact and_comm

theorem validateScopes_eq_ok {raw scopes : List String} :
    validateScopes raw = .ok scopes ↔ scopes = normalizeStringList raw ∧ ClientScopes scopes := by
  simp only [validateScopes, bind_eq_ok, forM_eq_ok, raiseIf_eq_ok, pure_eq_ok, not_not]
  constructor
  · intro done
    obtain ⟨-, known, -, -, -, health, rfl⟩ := done
    exact ⟨rfl, sortedSet_strict _, health, fun scope listed => checkScope_eq_ok.mp (known scope listed)⟩
  · rintro ⟨same, valid⟩
    subst same
    exact ⟨(), fun scope listed => checkScope_eq_ok.mpr (valid.available scope listed), (),
      List.ne_nil_of_mem valid.health, (), valid.health, rfl⟩

/-- Scopes that are stored are checked again to themselves. -/
theorem validateScopes_again {scopes : List String} (valid : ClientScopes scopes) : validateScopes scopes = .ok scopes := by
  rw [validateScopes_eq_ok]
  refine ⟨?_, valid⟩
  have spelled : scopes.map strip = scopes := by
    rw [List.map_congr_left fun scope listed => (scopes_spelled (valid.available scope listed)).1, List.map_id']
  have kept : scopes.filter (· ≠ "") = scopes :=
    List.filter_eq_self.mpr fun scope listed => decide_eq_true (scopes_spelled (valid.available scope listed)).2
  rw [normalizeStringList, spelled, kept, sortedSet_of_strict valid.strict]

theorem validateSelectedIds_eq_ok {empty missing : String} {stored : Int → Bool} {raw ids : List Int} :
    validateSelectedIds empty missing stored raw = .ok ids ↔
      raw ≠ [] ∧ ids = sortedSet raw ∧ ClientIds ids ∧ ∀ id ∈ ids, stored id = true := by
  have bound (id : Int) : bindInteger (some id) = .ok () ↔ -integerMax - 1 ≤ id ∧ id ≤ integerMax := by
    simp only [bindInteger, raiseIf_eq_ok, Option.mem_some_iff, exists_eq_left', not_or, not_lt]
  simp only [validateSelectedIds, bind_eq_ok, forM_eq_ok, raiseIf_eq_ok, bound]
  constructor
  · intro done
    obtain ⟨-, some_, -, bounded, done⟩ := done
    split at done
    · cases done
    next none =>
      cases done
      refine ⟨some_, rfl, ⟨sortedSet_strict raw, bounded⟩, ?_⟩
      intro id listed
      simpa using List.find?_eq_none.mp none id listed
  · rintro ⟨some_, same, valid, present⟩
    subst same
    refine ⟨(), some_, (), valid.bounded, ?_⟩
    have none : (sortedSet raw).find? (fun id => ¬ stored id) = none :=
      List.find?_eq_none.mpr fun id listed => by simp [present id listed]
    rw [none]
    rfl

end Checks

section Expiration
variable {now : Int} {expiresAt : Option Int}

/-- The expiration that a form has when it is saved as it was opened. -/
def resavedExpiration (now : Int) : Option Int → Option Int
  | none => none
  | some expiresAt =>
    let deltaDays := dateOf expiresAt - dateOf now
    if 28 ≤ deltaDays ∧ deltaDays ≤ 31 then some (now + 30 * day)
    else if 88 ≤ deltaDays ∧ deltaDays ≤ 92 then some (now + 90 * day)
    else if 360 ≤ deltaDays ∧ deltaDays ≤ 370 then some (now + 365 * day)
    else some (endOfDay (dateOf expiresAt))

theorem daysLater_ok {days : Int} (inside : inCalendar (dateOf (now + days * day))) :
    daysLater now days = .ok (some (now + days * day)) := by
  rw [daysLater, raiseIf, if_neg (not_not_intro inside)]
  rfl

theorem expiration_resaved (started : 1 ≤ dateOf now) (early : dateOf now + 365 ≤ ordinal 9999 12 31)
    (future : ∀ instant ∈ expiresAt, dateOf now < dateOf instant) :
    expirationFromChoice now (expirationChoiceFromDatetime now expiresAt).1 (expirationChoiceFromDatetime now expiresAt).2 =
      .ok (resavedExpiration now expiresAt) := by
  have inside (days : Int) (some_ : 0 ≤ days) (few : days ≤ 365) : inCalendar (dateOf (now + days * day)) := by
    simp only [inCalendar, dateOf, day] at started early ⊢
    omega
  cases expiresAt with
  | none => rfl
  | some instant =>
    have later := future instant rfl
    simp only [expirationChoiceFromDatetime, resavedExpiration]
    split_ifs
    · exact daysLater_ok (inside 30 (by decide) (by decide))
    · exact daysLater_ok (inside 90 (by decide) (by decide))
    · exact daysLater_ok (inside 365 (by decide) (by decide))
    · change (raiseIf _ _ >>= _) = _
      rw [raiseIf, if_neg (not_le.mpr later)]
      rfl

theorem expiration_refused {instant : Int} (past : dateOf instant ≤ dateOf now) :
    expirationFromChoice now (expirationChoiceFromDatetime now (some instant)).1
      (expirationChoiceFromDatetime now (some instant)).2 = .error (.http 400 "Datum expirace musí být v budoucnosti.") := by
  simp only [expirationChoiceFromDatetime]
  rw [if_neg (by omega), if_neg (by omega), if_neg (by omega)]
  change (raiseIf _ _ >>= _) = _
  rw [raiseIf, if_pos past]
  rfl

/-- Saving a form again moves an expiration by less than six days. -/
theorem resaved_near {before after : Int} (found : expiresAt = some before) (saved : resavedExpiration now expiresAt = some after) :
    before - 6 * day < after ∧ after < before + 6 * day := by
  subst found
  simp only [resavedExpiration] at saved
  split_ifs at saved
  all_goals
    obtain rfl := Option.some.inj saved
    simp only [dateOf, endOfDay, midnight, day] at *
    omega

end Expiration

section Saving
variable {lower : String → String} {db : Db} {now : Int} {client next : IntegrationClient} {payload : IntegrationClientCreateIn}

/-- What a payload makes of a client. -/
structure Saved (lower : String → String) (client next : IntegrationClient) (payload : IntegrationClientCreateIn) : Prop where
  same : next.id = client.id ∧ next.status = client.status ∧ next.createdBy = client.createdBy
  form : WellFormed lower next
  name : next.name = strip payload.name
  scopes : ∀ scope, scope ∈ next.scopes ↔ scope ≠ "" ∧ ∃ raw ∈ payload.selectedScopeIds, strip raw = scope
  mode : next.dataScopeMode = payload.dataScopeMode
  employees : payload.dataScopeMode = scopeSelectedEmployees →
    next.includeInactiveEmployments = payload.includeInactiveEmployments ∧
      ∀ id, id ∈ next.allowedEmployeeIds ↔ id ∈ payload.selectedEmployeeIds
  employments : payload.dataScopeMode = scopeSelectedEmployments →
    ∀ id, id ∈ next.allowedEmploymentIds ↔ id ∈ payload.selectedEmploymentIds
  allowlist : next.ipAllowlist = [] ∨ next.ipAllowlist = client.ipAllowlist

theorem clientIds_nil : ClientIds [] := ⟨List.Pairwise.nil, by simp⟩

theorem restrictAddresses_ok {mode : String} {allowlist : List String}
    (done : restrictAddresses client mode = .ok allowlist) : allowlist = [] ∨ allowlist = client.ipAllowlist := by
  simp only [restrictAddresses, bind_eq_ok] at done
  obtain ⟨-, -, done⟩ := done
  split at done
  · cases done
    exact .inl rfl
  · simp only [bind_eq_ok, pure_eq_ok] at done
    obtain ⟨-, -, same⟩ := done
    exact .inr same.symm

/-- A payload that is accepted is stored as it stands, and the client is well formed. -/
theorem applyPayload_saved (done : applyPayloadToClient lower db now client payload = .ok next) : Saved lower client next payload := by
  simp only [applyPayloadToClient, bind_eq_ok, raiseIf_eq_ok, pure_eq_ok, validateClientName_eq_ok, validateScopes_eq_ok,
    not_not] at done
  obtain ⟨_, ⟨rfl, named⟩, _, ⟨rfl, allowed⟩, -, mode, ⟨employeeIds, employmentIds, inactive⟩, selected, allowlist, restricted,
    expiresAt, -, rfl⟩ := done
  have texts : scopeSelectedEmployments ≠ scopeSelectedEmployees ∧ scopeAll ≠ scopeSelectedEmployees ∧
    scopeAll ≠ scopeSelectedEmployments := by decide
  have scopes (scope : String) : scope ∈ normalizeStringList payload.selectedScopeIds ↔
    scope ≠ "" ∧ ∃ raw ∈ payload.selectedScopeIds, strip raw = scope := mem_normalizeStringList
  unfold selectRange at selected
  split at selected
  next employees =>
    simp only [bind_eq_ok, pure_eq_ok, validateSelectedEmployeeIds, validateSelectedIds_eq_ok, Prod.mk.injEq] at selected
    obtain ⟨_, ⟨some_, rfl, valid, -⟩, rfl, rfl, rfl⟩ := selected
    refine ⟨⟨rfl, rfl, rfl⟩, ⟨named, allowed, mode, valid, clientIds_nil, ?_, ?_, ?_⟩, rfl, scopes, rfl, ?_, ?_,
      restrictAddresses_ok restricted⟩
    · simp [employees, sortedSet_eq_nil, some_]
    · simp [employees, texts.1.symm]
    · exact fun other => absurd employees other
    · exact fun _ => ⟨rfl, fun id => mem_sortedSet⟩
    · exact fun other => absurd (other.symm.trans employees) texts.1
  next others =>
    split at selected
    next employments =>
      simp only [bind_eq_ok, pure_eq_ok, validateSelectedEmploymentIds, validateSelectedIds_eq_ok, Prod.mk.injEq] at selected
      obtain ⟨_, ⟨some_, rfl, valid, -⟩, rfl, rfl, rfl⟩ := selected
      refine ⟨⟨rfl, rfl, rfl⟩, ⟨named, allowed, mode, clientIds_nil, valid, ?_, ?_, ?_⟩, rfl, scopes, rfl, ?_, ?_,
        restrictAddresses_ok restricted⟩
      · simp [others]
      · simp [employments, sortedSet_eq_nil, some_]
      · simp [employments, texts.2.2.symm]
      · exact fun other => absurd other others
      · exact fun _ id => mem_sortedSet
    next neither =>
      simp only [pure_eq_ok, Prod.mk.injEq] at selected
      obtain ⟨rfl, rfl, rfl⟩ := selected
      refine ⟨⟨rfl, rfl, rfl⟩, ⟨named, allowed, mode, clientIds_nil, clientIds_nil, ?_, ?_, ?_⟩, rfl, scopes, rfl, ?_, ?_,
        restrictAddresses_ok restricted⟩
      · simp [others]
      · simp [neither]
      · simp
      · exact fun other => absurd other others
      · exact fun other => absurd other neither

end Saving

section Steps
variable {lower : String → String} {db : Db} {now : Int} {store next : ClientStore}

/-- The form that a request carries. -/
def formIn : AdminRequest → Option IntegrationClientCreateIn
  | .create payload => some payload
  | .update _ payload => some payload
  | _ => none

/-- What a request writes: a new client, a client that a form has changed, or another status. -/
inductive Writes (lower : String → String) (store : ClientStore) (client : IntegrationClient) : AdminRequest → Prop where
  | create {payload : IntegrationClientCreateIn} (unused : ∀ other ∈ store.clients, other.name ≠ client.name)
      (saved : Saved lower (newClient store (strip payload.name)) client payload) : Writes lower store client (.create payload)
  | update {payload : IntegrationClientCreateIn} {original : IntegrationClient} (stored : original ∈ store.clients)
      (unused : ∀ other ∈ store.clients, other.name = client.name → other.id = client.id)
      (saved : Saved lower original client payload) : Writes lower store client (.update original.id payload)
  | status {request : AdminRequest} {original : IntegrationClient} (status : IntegrationClientStatus)
      (formless : formIn request = none) (stored : original ∈ store.clients)
      (changed : client = { original with status := status }) :
      Writes lower store client request

theorem getClient_ok {clientId : Int} {client : IntegrationClient} (found : getClientOr404 store clientId = .ok client) :
    client ∈ store.clients ∧ client.id = clientId :=
  Table.get_eq_some_iff.mp (require_eq_ok.mp found)

theorem handle_writes {request : AdminRequest} (done : request.handle lower db now store = .ok next) :
    ∃ client, next = store.put client ∧ Writes lower store client request := by
  cases request with
  | create payload =>
    simp only [AdminRequest.handle, createIntegrationClient, bind_eq_ok, raiseIf_eq_ok, pure_eq_ok,
      validateClientName_eq_ok] at done
    obtain ⟨-, -, _, ⟨rfl, -⟩, -, unused, client, applied, rfl⟩ := done
    have saved := applyPayload_saved applied
    refine ⟨client, rfl, .create ?_ saved⟩
    intro other member same
    exact unused ⟨other, member, same.trans saved.name⟩
  | update clientId payload =>
    simp only [AdminRequest.handle, updateIntegrationClient, bind_eq_ok, raiseIf_eq_ok, pure_eq_ok,
      validateClientName_eq_ok] at done
    obtain ⟨-, -, original, found, _, ⟨rfl, -⟩, -, unused, client, applied, rfl⟩ := done
    obtain ⟨stored, rfl⟩ := getClient_ok found
    have saved := applyPayload_saved applied
    refine ⟨client, rfl, .update stored ?_ saved⟩
    intro other member same
    by_contra different
    exact unused ⟨other, member, same.trans saved.name, saved.same.1 ▸ different⟩
  | rotate clientId =>
    simp only [AdminRequest.handle, rotateIntegrationClientSecret, bind_eq_ok, pure_eq_ok] at done
    obtain ⟨original, found, rfl⟩ := done
    exact ⟨_, rfl, .status _ rfl (getClient_ok found).1 rfl⟩
  | disable clientId =>
    simp only [AdminRequest.handle, disableIntegrationClient, bind_eq_ok, pure_eq_ok] at done
    obtain ⟨original, found, rfl⟩ := done
    exact ⟨_, rfl, .status _ rfl (getClient_ok found).1 rfl⟩
  | enable clientId =>
    simp only [AdminRequest.handle, enableIntegrationClient, bind_eq_ok, pure_eq_ok] at done
    obtain ⟨original, found, -, -, rfl⟩ := done
    exact ⟨_, rfl, .status _ rfl (getClient_ok found).1 rfl⟩
  | revokeSecret clientId =>
    simp only [AdminRequest.handle, revokeIntegrationClientSecret, bind_eq_ok, pure_eq_ok] at done
    obtain ⟨original, found, rfl⟩ := done
    exact ⟨_, rfl, .status _ rfl (getClient_ok found).1 rfl⟩

/-- A step writes one client or nothing. -/
theorem step_writes (lower : String → String) (store : ClientStore) (call : AdminCall) : store.step lower call = store ∨
    ∃ client, store.step lower call = store.put client ∧ Writes lower store client call.request := by
  unfold ClientStore.step
  cases done : call.request.handle lower call.db call.now store with
  | error raised => exact .inl rfl
  | ok next =>
    obtain ⟨client, rfl, writes⟩ := handle_writes done
    exact .inr ⟨client, rfl, writes⟩

theorem mem_putClient {client other : IntegrationClient} :
    other ∈ (store.put client).clients ↔ other = client ∨ other ∈ store.clients ∧ other.id ≠ client.id := Table.mem_put

end Steps

section Invariant
variable {lower : String → String}

def UniqueNames (store : ClientStore) : Prop :=
  ∀ first ∈ store.clients, ∀ second ∈ store.clients, first.name = second.name → first.id = second.id

/-- A client is well formed or as it was but for its status, and its addresses are as they were or lifted. -/
structure Kept (lower : String → String) (store : ClientStore) (client : IntegrationClient) : Prop where
  form : WellFormed lower client ∨ ∃ original ∈ store.clients, ∃ status, client = { original with status := status }
  allowlist : client.ipAllowlist = [] ∨
    ∃ original ∈ store.clients, original.id = client.id ∧ original.ipAllowlist = client.ipAllowlist

theorem Kept.refl {store : ClientStore} {client : IntegrationClient} (stored : client ∈ store.clients) : Kept lower store client :=
  ⟨.inr ⟨client, stored, client.status, rfl⟩, .inr ⟨client, stored, rfl, rfl⟩⟩

theorem Kept.restatus {store : ClientStore} {client : IntegrationClient} (kept : Kept lower store client)
    (status : IntegrationClientStatus) : Kept lower store { client with status := status } := by
  refine ⟨?_, kept.allowlist⟩
  rcases kept.form with form | ⟨original, stored, before, rfl⟩
  · exact .inl { form with }
  · exact .inr ⟨original, stored, status, rfl⟩

/-- The invariant of a run. -/
structure Sound (lower : String → String) (start store : ClientStore) : Prop where
  unique : UniqueNames store
  kept : ∀ client ∈ store.clients, Kept lower start client
  present : ∀ original ∈ start.clients, ∃ client ∈ store.clients, client.id = original.id

theorem Sound.put {start store : ClientStore} (sound : Sound lower start store) {client : IntegrationClient}
    (unused : ∀ other ∈ store.clients, other.name = client.name → other.id = client.id) (kept : Kept lower start client) :
    Sound lower start (store.put client) := by
  constructor
  · intro first left second right same
    rcases mem_putClient.mp left with rfl | ⟨early, -⟩ <;> rcases mem_putClient.mp right with rfl | ⟨late, -⟩
    · rfl
    · exact (unused second late same.symm).symm
    · exact unused first early same
    · exact sound.unique first early second late same
  · intro other member
    rcases mem_putClient.mp member with rfl | ⟨before, -⟩
    · exact kept
    · exact sound.kept other before
  · intro original stored
    obtain ⟨found, member, same⟩ := sound.present original stored
    by_cases replaced : found.id = client.id
    · exact ⟨client, mem_putClient.mpr (.inl rfl), replaced.symm.trans same⟩
    · exact ⟨found, mem_putClient.mpr (.inr ⟨member, replaced⟩), same⟩

theorem Sound.step {start store : ClientStore} (sound : Sound lower start store) (call : AdminCall) :
    Sound lower start (store.step lower call) := by
  rcases step_writes lower store call with same | ⟨client, same, writes⟩ <;> rw [same]
  · exact sound
  · generalize call.request = request at writes
    cases writes with
    | create unused saved =>
      apply sound.put
      · exact fun other member named => absurd named (unused other member)
      · exact ⟨.inl saved.form, .inl (saved.allowlist.elim id id)⟩
    | update stored unused saved =>
      apply sound.put unused
      refine ⟨.inl saved.form, ?_⟩
      rcases saved.allowlist with none | before
      · exact .inl none
      · rw [before, saved.same.1]
        exact (sound.kept _ stored).allowlist
    | @status _ original status formless stored changed =>
      subst changed
      apply sound.put
      · exact fun other member named => sound.unique other member original stored named
      · exact (sound.kept _ stored).restatus status

end Invariant

/-- In every run of the administration each client is well formed from the first form that saves it, names stay unique,
no client is lost, and no client comes to a list of addresses that it did not have. -/
theorem clients_well_formed (lower : String → String) {start : ClientStore} (unique : UniqueNames start)
    (calls : List AdminCall) : Sound lower start (start.run lower calls) := by
  have sound : Sound lower start start := ⟨unique, fun _ => Kept.refl, fun original stored => ⟨original, stored, rfl⟩⟩
  have run (store : ClientStore) (sound : Sound lower start store) : Sound lower start (store.run lower calls) := by
    induction calls generalizing store with
    | nil => exact sound
    | cons call calls ih => exact ih _ (sound.step call)
  exact run start sound

/-- The form of a client that may read the attendance of one employee. -/
def sampleForm : IntegrationClientCreateIn where
  name := " Mzdy 2026 "
  selectedScopeIds := ["attendance:read", " integration:health"]
  dataScopeMode := scopeSelectedEmployees
  selectedEmployeeIds := [1, 1]
  selectedEmploymentIds := []
  includeInactiveEmployments := false
  ipRestrictionMode := restrictionNone
  expirationChoice := expiration30Days
  customExpirationDate := none

def sampleNow : Int := midnight 739829 + 600 * minute

def sampleCalls : List AdminCall :=
  [⟨sampleDb, sampleNow, .create sampleForm⟩, ⟨sampleDb, sampleNow, .create sampleForm⟩, ⟨sampleDb, sampleNow, .disable 1⟩]

/-- The second of two equal forms is refused. -/
theorem sample_clients_well_formed : ∃ client, (ClientStore.empty.run id sampleCalls).clients.rows = [client] ∧
    client.status = .disabled ∧ WellFormed id client := by
  have sound : Sound id ClientStore.empty (ClientStore.empty.run id sampleCalls) :=
    clients_well_formed id (fun _ member => absurd member (Table.not_mem_empty _)) sampleCalls
  have rows : (ClientStore.empty.run id sampleCalls).clients.rows = [⟨1, "Mzdy 2026", .disabled,
      ["attendance:read", "integration:health"], [], [1], scopeSelectedEmployees, false, [], some (sampleNow + 30 * day),
      some "admin-web"⟩] := by
    decide +kernel
  refine ⟨_, rows, rfl, ?_⟩
  have kept := sound.kept _ (Table.mem_def.mpr (rows ▸ List.mem_singleton_self _))
  rcases kept.form with form | ⟨original, stored, -⟩
  · exact form
  · exact absurd stored (Table.not_mem_empty _)

section Reopened
variable {lower : String → String} {db : Db} {now : Int} {client : IntegrationClient}

/-- A payload with the name of a client and the configuration that its form was filled with. -/
def formOf (client : IntegrationClient) (configuration : IntegrationClientConfigurationOut) : IntegrationClientCreateIn where
  name := client.name
  selectedScopeIds := configuration.selectedScopeIds
  dataScopeMode := configuration.dataScopeMode
  selectedEmployeeIds := configuration.selectedEmployeeIds
  selectedEmploymentIds := configuration.selectedEmploymentIds
  includeInactiveEmployments := configuration.includeInactiveEmployments
  ipRestrictionMode := configuration.ipRestrictionMode
  expirationChoice := configuration.expirationChoice
  customExpirationDate := configuration.customExpirationDate

/-- What a well-formed client selects is still there. -/
structure Present (db : Db) (client : IntegrationClient) : Prop where
  employees : ∀ id ∈ client.allowedEmployeeIds, (db.users.get id).isSome = true
  employments : ∀ id ∈ client.allowedEmploymentIds, (db.employments.get id).isSome = true

theorem inferDataScopeMode_valid (mode : client.dataScopeMode ∈ dataScopes) : inferDataScopeMode client = client.dataScopeMode := by
  have plain : ∀ mode ∈ dataScopes, strip mode = mode := by decide +kernel
  rw [inferDataScopeMode, plain _ mode, if_pos mode]

theorem validateSelectedIds_again {empty missing : String} {stored : Int → Bool} {ids : List Int} (some_ : ids ≠ [])
    (valid : ClientIds ids) (present : ∀ id ∈ ids, stored id = true) : validateSelectedIds empty missing stored ids = .ok ids :=
  validateSelectedIds_eq_ok.mpr ⟨some_, (sortedSet_of_strict valid.strict).symm, valid, present⟩

theorem selectRange_again (form : WellFormed lower client) (present : Present db client) :
    selectRange db (formOf client (serializeConfiguration now client)) =
      .ok (client.allowedEmployeeIds, client.allowedEmploymentIds, client.includeInactiveEmployments) := by
  have mode : (formOf client (serializeConfiguration now client)).dataScopeMode = client.dataScopeMode :=
    inferDataScopeMode_valid form.mode
  have texts : scopeSelectedEmployments ≠ scopeSelectedEmployees := by decide
  unfold selectRange
  rw [mode]
  split_ifs with employees employments
  · have none : client.allowedEmploymentIds = [] := by
      by_contra some_
      exact texts ((form.selectsEmployments.mp some_).symm.trans employees)
    have checked : validateSelectedEmployeeIds db client.allowedEmployeeIds = .ok client.allowedEmployeeIds :=
      validateSelectedIds_again (form.selectsEmployees.mpr employees) form.employees present.employees
    change (validateSelectedEmployeeIds db client.allowedEmployeeIds >>= _) = _
    rw [checked, none]
    rfl
  · have none : client.allowedEmployeeIds = [] := by
      by_contra some_
      exact employees (form.selectsEmployees.mp some_)
    have checked : validateSelectedEmploymentIds db client.allowedEmploymentIds = .ok client.allowedEmploymentIds :=
      validateSelectedIds_again (form.selectsEmployments.mpr employments) form.employments present.employments
    have active : client.includeInactiveEmployments = false := by
      have all : ¬ client.dataScopeMode = scopeAll := by
        rw [employments]
        decide
      exact Bool.eq_false_iff.mpr (mt (form.inactive employees).mp all)
    change (validateSelectedEmploymentIds db client.allowedEmploymentIds >>= _) = _
    rw [checked, none, active]
    rfl
  · have none : client.allowedEmployeeIds = [] := by
      by_contra some_
      exact employees (form.selectsEmployees.mp some_)
    have none' : client.allowedEmploymentIds = [] := by
      by_contra some_
      exact employments (form.selectsEmployments.mp some_)
    have inactive : decide (client.dataScopeMode = scopeAll) = client.includeInactiveEmployments := by
      rw [Bool.eq_iff_iff, decide_eq_true_eq]
      exact (form.inactive employees).symm
    rw [none, none', inactive]
    rfl

theorem restrictAddresses_again : restrictAddresses client (inferIpRestrictionMode client) = .ok client.ipAllowlist := by
  have texts : restrictionServerManaged ≠ restrictionNone := by decide
  by_cases none : client.ipAllowlist = []
  · rw [inferIpRestrictionMode, if_neg (not_not_intro none), none]
    rfl
  · rw [inferIpRestrictionMode, if_pos none]
    simp only [restrictAddresses, raiseIf, ne_eq, not_true_eq_false, and_false, if_false, texts, none]
    rfl

/-- What an accepted payload stores, up to its expiration. -/
theorem applyPayload_eq {payload : IntegrationClientCreateIn} {name : String} {scopes : List String}
    {employeeIds employmentIds : List Int} {inactive : Bool} {allowlist : List String}
    (named : validateClientName lower payload.name = .ok name) (allowed : validateScopes payload.selectedScopeIds = .ok scopes)
    (mode : payload.dataScopeMode ∈ dataScopes) (range : selectRange db payload = .ok (employeeIds, employmentIds, inactive))
    (restricted : restrictAddresses client payload.ipRestrictionMode = .ok allowlist) :
    applyPayloadToClient lower db now client payload =
      (expirationFromChoice now payload.expirationChoice payload.customExpirationDate).map fun expiresAt => { client with
        name := name
        scopes := scopes
        dataScopeMode := payload.dataScopeMode
        allowedEmployeeIds := employeeIds
        allowedEmploymentIds := employmentIds
        includeInactiveEmployments := inactive
        ipAllowlist := allowlist
        expiresAt := expiresAt } := by
  rw [applyPayloadToClient, named, allowed, range, restricted, raiseIf, if_neg (not_not_intro mode)]
  change (expirationFromChoice _ _ _ >>= _) = _
  cases expirationFromChoice now payload.expirationChoice payload.customExpirationDate <;> rfl

/-- The form of a client that is saved as it was opened gets as far as the expiration. -/
theorem applyPayload_again (form : WellFormed lower client) (present : Present db client) :
    applyPayloadToClient lower db now client (formOf client (serializeConfiguration now client)) =
      (expirationFromChoice now (expirationChoiceFromDatetime now client.expiresAt).1
        (expirationChoiceFromDatetime now client.expiresAt).2).map fun expiresAt => { client with expiresAt := expiresAt } := by
  have named : validateClientName lower client.name = .ok client.name :=
    validateClientName_eq_ok.mpr ⟨form.name.stripped.symm, form.name⟩
  have mode : (formOf client (serializeConfiguration now client)).dataScopeMode = client.dataScopeMode :=
    inferDataScopeMode_valid form.mode
  have applied := @applyPayload_eq lower db now client (formOf client (serializeConfiguration now client)) client.name client.scopes
    client.allowedEmployeeIds client.allowedEmploymentIds client.includeInactiveEmployments client.ipAllowlist named
    (validateScopes_again form.scopes) (mode.symm ▸ form.mode) (selectRange_again form present) restrictAddresses_again
  rw [mode] at applied
  exact applied

theorem updateClient_again (db : Db) (now : Int) {store : ClientStore} (unique : UniqueNames store) (stored : client ∈ store.clients)
    (form : WellFormed lower client) (payload : IntegrationClientCreateIn) (named : payload.name = client.name) :
    updateIntegrationClient lower db now store client.id payload =
      (applyPayloadToClient lower db now client payload).map store.put := by
  have bounds : nameField payload.name = .ok () := by
    rw [nameField, raiseIf_eq_ok, named]
    exact not_or.mpr ⟨not_lt.mpr form.name.length.1, not_lt.mpr form.name.length.2⟩
  have found : getClientOr404 store client.id = .ok client := require_eq_ok.mpr (Table.get_eq_some_iff.mpr ⟨stored, rfl⟩)
  have valid : validateClientName lower payload.name = .ok client.name := by
    rw [named, validateClientName_eq_ok]
    exact ⟨form.name.stripped.symm, form.name⟩
  have free : ¬ ∃ other ∈ store.clients.rows, other.name = client.name ∧ other.id ≠ client.id := by
    rintro ⟨other, member, same, different⟩
    exact different (unique other member client stored same)
  rw [updateIntegrationClient, bounds, found, valid]
  change (raiseIf _ _ >>= fun _ => applyPayloadToClient lower db now client payload >>= _) = _
  rw [raiseIf, if_neg free]
  cases applyPayloadToClient lower db now client payload <;> rfl

end Reopened

/-- A well-formed client whose form is saved as it was opened keeps everything but an expiration, which moves by less than
six days; a form that was opened on or after the day of the expiration is refused. -/
theorem form_saved_again (lower : String → String) (db : Db) {now : Int} {store : ClientStore} {client : IntegrationClient}
    (unique : UniqueNames store) (stored : client ∈ store.clients) (form : WellFormed lower client) (present : Present db client)
    (started : 1 ≤ dateOf now) (early : dateOf now + 365 ≤ ordinal 9999 12 31) :
    ((∀ instant ∈ client.expiresAt, dateOf now < dateOf instant) → ∃ expiresAt,
      updateIntegrationClient lower db now store client.id (formOf client (serializeConfiguration now client)) =
        .ok (store.put { client with expiresAt := expiresAt }) ∧
      (client.expiresAt = none → expiresAt = none) ∧
      ∀ before ∈ client.expiresAt, ∃ after, expiresAt = some after ∧ before - 6 * day < after ∧ after < before + 6 * day) ∧
    ((∃ instant ∈ client.expiresAt, dateOf instant ≤ dateOf now) →
      updateIntegrationClient lower db now store client.id (formOf client (serializeConfiguration now client)) =
        .error (.http 400 "Datum expirace musí být v budoucnosti.")) := by
  have again := updateClient_again db now unique stored form (formOf client (serializeConfiguration now client)) rfl
  rw [applyPayload_again form present] at again
  constructor
  · intro future
    rw [expiration_resaved started early future] at again
    refine ⟨_, again, ?_, ?_⟩
    · intro none
      rw [none]
      rfl
    · intro before found
      obtain ⟨after, saved⟩ : ∃ after, resavedExpiration now client.expiresAt = some after := by
        rw [show client.expiresAt = some before from found]
        simp only [resavedExpiration]
        split_ifs <;> exact ⟨_, rfl⟩
      exact ⟨after, saved, resaved_near found saved⟩
  · rintro ⟨instant, found, past⟩
    rw [show client.expiresAt = some instant from found, expiration_refused past] at again
    exact again

/-- The client of the sample form, nine days later. -/
def sampleClient : IntegrationClient :=
  ⟨1, "Mzdy 2026", .active, ["attendance:read", "integration:health"], [], [1], scopeSelectedEmployees, false, [],
    some (sampleNow + 30 * day), some "admin-web"⟩

theorem sampleClient_wellFormed : WellFormed id sampleClient where
  name := ⟨by decide, by decide +kernel, List.all_eq_true.mp (by decide +kernel), by decide +kernel, by decide +kernel⟩
  scopes := ⟨by decide +kernel, by decide +kernel, by decide +kernel⟩
  mode := by decide
  employees := ⟨by decide, by decide⟩
  employments := clientIds_nil
  selectsEmployees := by decide
  selectsEmployments := by decide
  inactive := by decide

theorem sample_form_saved_again : ∃ expiresAt, updateIntegrationClient id sampleDb (sampleNow + 9 * day)
      (ClientStore.empty.put sampleClient) 1 (formOf sampleClient (serializeConfiguration (sampleNow + 9 * day) sampleClient)) =
        .ok ((ClientStore.empty.put sampleClient).put { sampleClient with expiresAt := expiresAt }) := by
  have stored : sampleClient ∈ (ClientStore.empty.put sampleClient).clients := mem_putClient.mpr (.inl rfl)
  have unique : UniqueNames (ClientStore.empty.put sampleClient) := by
    intro first left second right same
    rcases mem_putClient.mp left with rfl | ⟨impossible, -⟩
    · rcases mem_putClient.mp right with rfl | ⟨impossible, -⟩
      · rfl
      · exact absurd impossible (Table.not_mem_empty _)
    · exact absurd impossible (Table.not_mem_empty _)
  obtain ⟨expiresAt, done, -⟩ := (@form_saved_again id sampleDb (sampleNow + 9 * day) _ _ unique stored
    sampleClient_wellFormed ⟨by decide, by decide⟩ (by decide) (by decide)).1 (by decide)
  exact ⟨expiresAt, done⟩

section Enforced
variable {lower : String → String}

/-- The employments that a payload opens, at any later time. -/
def Opens (payload : IntegrationClientCreateIn) (zone : Zone) (clock : Clock) (db : Db) (employment : Employment) : Prop :=
  payload.dataScopeMode = scopeAll ∨
  payload.dataScopeMode = scopeActiveOnly ∧ lockedEmploymentHasActiveUser zone clock db employment ∨
  payload.dataScopeMode = scopeSelectedEmployees ∧ employment.userId ∈ payload.selectedEmployeeIds ∧ 0 < employment.userId ∧
    (payload.includeInactiveEmployments = true ∨ employmentIsValidOnDay employment (pragueToday zone clock)) ∨
  payload.dataScopeMode = scopeSelectedEmployments ∧ employment.id ∈ payload.selectedEmploymentIds ∧ 0 < employment.id

/-- The integration interface lets through what a payload names, and nothing else. -/
structure Enforces (payload : IntegrationClientCreateIn) (client : Dagmar.IntegrationClient) : Prop where
  scopes : ∀ name, requireScope client (scopeOf name) = .ok () ↔
    name ≠ "" ∧ ∃ raw ∈ payload.selectedScopeIds, strip raw = name
  range : ∀ zone clock db employment,
    employmentScopePredicate zone clock db client employment = true ↔ Opens payload zone clock db employment

theorem scopeOf_injective : Function.Injective scopeOf := by
  intro first second same
  unfold scopeOf at same
  split_ifs at same <;> simp_all

theorem dataScopeMode_texts : Dagmar.dataScopeMode (some scopeAll) = .allEmployments ∧
    Dagmar.dataScopeMode (some scopeActiveOnly) = .allActiveEmployments ∧
    Dagmar.dataScopeMode (some scopeSelectedEmployees) = .selectedEmployees ∧
    Dagmar.dataScopeMode (some scopeSelectedEmployments) = .selectedEmployments := by
  decide +kernel

theorem Saved.enforces {client next : IntegrationClient} {payload : IntegrationClientCreateIn}
    (saved : Saved lower client next payload) : Enforces payload next.enforced := by
  constructor
  · intro name
    rw [requireScope, raiseIf_eq_ok, not_not, ← saved.scopes]
    exact List.mem_map_of_injective scopeOf_injective
  · intro zone clock db employment
    have form := saved.form
    obtain ⟨all, active, employees, employments⟩ := dataScopeMode_texts
    have mode := saved.mode
    have valid := form.mode
    simp only [dataScopes, List.mem_cons, List.not_mem_nil, or_false] at valid
    unfold Opens employmentScopePredicate IntegrationClient.enforced
    rw [← mode]
    rcases valid with is | is | is | is
    · simp [is, all]
    · have texts : scopeActiveOnly ≠ scopeAll ∧ scopeActiveOnly ≠ scopeSelectedEmployees ∧ scopeActiveOnly ≠ scopeSelectedEmployments := by
        decide
      simp [is, active, texts]
    · have texts : scopeSelectedEmployees ≠ scopeAll ∧ scopeSelectedEmployees ≠ scopeActiveOnly ∧
          scopeSelectedEmployees ≠ scopeSelectedEmployments := by decide
      obtain ⟨inactive, same⟩ := saved.employees (mode ▸ is)
      simp [is, employees, texts, integerIds, same, inactive, and_assoc]
    · have texts : scopeSelectedEmployments ≠ scopeAll ∧ scopeSelectedEmployments ≠ scopeActiveOnly ∧
          scopeSelectedEmployments ≠ scopeSelectedEmployees := by decide
      simp [is, employments, texts, integerIds, saved.employments (mode ▸ is)]

/-- The form that a request saves for a client. -/
def formFor (store : ClientStore) (clientId : Int) : AdminRequest → Option IntegrationClientCreateIn
  | .create payload => if clientId = store.nextId then some payload else none
  | .update id payload => if clientId = id then some payload else none
  | _ => none

/-- A client of a number is stored, and enforces a payload. -/
def Holds (payload : IntegrationClientCreateIn) (clientId : Int) (store : ClientStore) : Prop :=
  ∃ client ∈ store.clients, client.id = clientId ∧ Enforces payload client.enforced

theorem Holds.start {db : Db} {now : Int} {store next : ClientStore} {clientId : Int} {request : AdminRequest}
    {payload : IntegrationClientCreateIn} (saves : formFor store clientId request = some payload)
    (done : request.handle lower db now store = .ok next) : Holds payload clientId next := by
  obtain ⟨client, rfl, writes⟩ := handle_writes done
  refine ⟨client, mem_putClient.mpr (.inl rfl), ?_⟩
  cases writes with
  | create unused saved =>
    obtain ⟨same, form⟩ := Option.ite_none_right_eq_some.mp saves
    cases form
    exact ⟨saved.same.1.trans same.symm, saved.enforces⟩
  | update stored unused saved =>
    obtain ⟨same, form⟩ := Option.ite_none_right_eq_some.mp saves
    cases form
    exact ⟨saved.same.1.trans same.symm, saved.enforces⟩
  | status status formless stored changed =>
    cases request with
    | create | update => cases formless
    | rotate | disable | enable | revokeSecret => cases saves

theorem Holds.step {payload : IntegrationClientCreateIn} {clientId : Int} {store : ClientStore} (holds : Holds payload clientId store)
    (call : AdminCall) (untouched : ∀ other, call.request ≠ .update clientId other) :
    Holds payload clientId (store.step lower call) := by
  obtain ⟨client, stored, rfl, enforces⟩ := holds
  rcases step_writes lower store call with same | ⟨written, same, writes⟩ <;> rw [same]
  · exact ⟨client, stored, rfl, enforces⟩
  have other (different : client.id ≠ written.id) : Holds payload client.id (store.put written) :=
    ⟨client, mem_putClient.mpr (.inr ⟨stored, different⟩), rfl, enforces⟩
  generalize call.request = request at writes untouched
  cases writes with
  | create unused saved =>
    apply other
    rw [saved.same.1]
    exact ne_of_lt (store.fresh client stored)
  | @update form original known unused saved =>
    apply other
    intro same
    exact untouched form (by rw [same, saved.same.1])
  | @status _ original status formless known changed =>
    by_cases same : client.id = written.id
    · have kept : client = original := store.clients.key_inj stored known (by rw [same, changed])
      subst kept
      exact ⟨written, mem_putClient.mpr (.inl rfl), same.symm, changed ▸ enforces⟩
    · exact other same

end Enforced

/-- What the last form of a client opens is what the integration interface lets through, whatever happens to its status
and to the other clients. -/
theorem configured_is_enforced {lower : String → String} {db : Db} {now clientId : Int} {store next : ClientStore}
    {request : AdminRequest} {payload : IntegrationClientCreateIn} (saves : formFor store clientId request = some payload)
    (done : request.handle lower db now store = .ok next) (later : List AdminCall)
    (untouched : ∀ call ∈ later, ∀ other, call.request ≠ .update clientId other) :
    Holds payload clientId (next.run lower later) := by
  have start := Holds.start saves done
  clear saves done
  induction later generalizing next with
  | nil => exact start
  | cons call later ih =>
    exact ih (fun other listed => untouched other (List.mem_cons_of_mem _ listed))
      (start.step call (untouched call List.mem_cons_self))

/-- The first client, created and then disabled and enabled again. -/
theorem sample_configured_is_enforced : ∃ next, createIntegrationClient id sampleDb sampleNow ClientStore.empty sampleForm = .ok next ∧
    Holds sampleForm 1 (next.run id [⟨sampleDb, sampleNow, .disable 1⟩, ⟨sampleDb, sampleNow, .enable 1⟩]) := by
  have accepted : (createIntegrationClient id sampleDb sampleNow ClientStore.empty sampleForm).toOption.isSome := by decide +kernel
  cases done : createIntegrationClient id sampleDb sampleNow ClientStore.empty sampleForm with
  | error raised =>
    rw [done] at accepted
    cases accepted
  | ok next =>
    refine ⟨next, rfl, @configured_is_enforced id sampleDb sampleNow 1 ClientStore.empty next (.create sampleForm) sampleForm rfl
      done _ ?_⟩
    intro call listed other
    simp only [List.mem_cons, List.not_mem_nil, or_false] at listed
    rcases listed with rfl | rfl <;> intro impossible <;> cases impossible

end Dagmar.IntegrationAdmin.Proofs
