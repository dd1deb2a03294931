import Dagmar.CmlProfiles

/-! A profile is provisioned once. The receipts decide: whatever a call answers it has
read from a receipt, a receipt is there as soon as its user is, and none is ever lost. -/

namespace Dagmar.Cml.Proofs
open Library

section Safety

/-- The receipts of the users that calls have created. -/
def creations (history : List ProvisionEntry) : List CmlProfileProvision :=
  history.filterMap fun entry =>
    match entry with
    | .created receipt => some receipt
    | _ => none

structure AtMostOnce (store : Store) : Prop where
  native : ∀ input result outcome, .answered input result ∈ store.history → .answered input outcome ∈ store.history →
    result.nativeId = outcome.nativeId
  payload : ∀ input other result outcome, .answered input result ∈ store.history → .answered other outcome ∈ store.history →
    input.operationId = other.operationId → input.centralUserId = other.centralUserId ∧ input.profile = other.profile
  operations : ((creations store.history).map CmlProfileProvision.operationId).Nodup
  identities : ((creations store.history).map CmlProfileProvision.centralUserId).Nodup
  receipted : ∀ receipt ∈ creations store.history, receipt ∈ store.tables.receipts

/-- The users, the instances and the receipts are as before. -/
structure Unchanged (before after : Tables) : Prop where
  users : after.users = before.users
  instances : after.instances = before.instances
  receipts : after.receipts = before.receipts

/-- One user with an instance and a receipt has come, and the call has answered with it. -/
structure Creates (platform : Platform) (before after : Store) (input : ProvisionInput) (id : Int) (instanceId : String) :
    Prop where
  user : before.tables.users.insertAll [newUser input id instanceId] = some after.tables.users
  instance' : before.tables.instances.insertAll [newInstance platform input instanceId] = some after.tables.instances
  receipt : before.tables.receipts.insertAll [newReceipt platform input id] = some after.tables.receipts
  answered : ∃ result, after.history = .answered input result :: .created (newReceipt platform input id) :: before.history

/-- A step of a call changes nothing, or it is the one that creates everything and answers. -/
def Atomic (platform : Platform) (before after : Store) (session : Provisioning) : Prop :=
  Unchanged before.tables after.tables ∨
    session = .idle ∧ ∃ input id instanceId, Creates platform before after input id instanceId

end Safety

section Texts

def hexValue (c : Char) : Nat := if c.toNat < 58 then c.toNat - 48 else c.toNat - 87

/-- Reads one character of a JSON text back. -/
def readCharacter : List Char → Option (Char × List Char)
  | [] => none
  | '\\' :: 'u' :: _ :: _ :: high :: low :: rest => some (Char.ofNat (hexValue high * 16 + hexValue low), rest)
  | '\\' :: 'n' :: rest => some ('\n', rest)
  | '\\' :: 'r' :: rest => some ('\r', rest)
  | '\\' :: 't' :: rest => some ('\t', rest)
  | '\\' :: 'b' :: rest => some (Char.ofNat 8, rest)
  | '\\' :: 'f' :: rest => some (Char.ofNat 12, rest)
  | '\\' :: c :: rest => some (c, rest)
  | c :: rest => some (c, rest)

theorem readCharacter_plain {c : Char} {rest : List Char} (plain : c ≠ '\\') : readCharacter (c :: rest) = some (c, rest) := by
  unfold readCharacter
  split <;> simp_all

theorem hexValue_digits : ∀ n < 32, Char.ofNat (hexValue (hexDigit (n / 16)) * 16 + hexValue (hexDigit (n % 16))) = Char.ofNat n := by
  decide

theorem readCharacter_escape (c : Char) (rest : List Char) : readCharacter (escape c ++ rest) = some (c, rest) := by
  unfold escape
  split_ifs with quote slash newline back tab bell feed control
  · subst quote
    rfl
  · subst slash
    rfl
  · subst newline
    rfl
  · subst back
    rfl
  · subst tab
    rfl
  · exact congrArg (fun c => some (c, rest)) (by rw [← bell, Char.ofNat_toNat])
  · exact congrArg (fun c => some (c, rest)) (by rw [← feed, Char.ofNat_toNat])
  · refine congrArg (fun c => some (c, rest)) ?_
    rw [hexValue_digits _ control, Char.ofNat_toNat]
  · exact readCharacter_plain slash

theorem escaped_append {first second left right : List Char}
    (same : first.flatMap escape ++ '"' :: left = second.flatMap escape ++ '"' :: right) : first = second ∧ left = right := by
  have closing (c : Char) (rest other : List Char) : '"' :: rest ≠ escape c ++ other := by
    intro opened
    have read := congrArg readCharacter opened
    rw [readCharacter_plain (by decide), readCharacter_escape, Option.some.injEq, Prod.mk.injEq] at read
    rw [← read.1] at opened
    cases opened
  induction first generalizing second with
  | nil =>
    cases second with
    | nil => exact ⟨rfl, List.tail_eq_of_cons_eq same⟩
    | cons d second =>
      rw [List.flatMap_cons, List.append_assoc] at same
      exact absurd same (closing d left _)
  | cons c first ih =>
    rw [List.flatMap_cons, List.append_assoc] at same
    cases second with
    | nil => exact absurd same.symm (closing c right _)
    | cons d second =>
      rw [List.flatMap_cons, List.append_assoc] at same
      have read := congrArg readCharacter same
      rw [readCharacter_escape, readCharacter_escape, Option.some.injEq, Prod.mk.injEq] at read
      obtain ⟨rfl, rest⟩ := read
      obtain ⟨rfl, tails⟩ := ih rest
      exact ⟨rfl, tails⟩

/-- A quoted text ends where its own quote stands. -/
theorem quoted_append {first second : String} {left right : List Char} (same : quoted first ++ left = quoted second ++ right) :
    first = second ∧ left = right := by
  simp only [quoted, List.cons_append, List.append_assoc, List.nil_append, List.cons.injEq, true_and] at same
  obtain ⟨texts, tails⟩ := escaped_append same
  exact ⟨String.toList_inj.mp texts, tails⟩

theorem phoneText_append {first second : Option String} {left right : List Char}
    (same : phoneText first ++ left = phoneText second ++ right) : first = second ∧ left = right := by
  have unquoted (text : String) (rest other : List Char) : "null".toList ++ rest ≠ quoted text ++ other := by
    intro opened
    exact absurd (List.head_eq_of_cons_eq opened) (by decide)
  cases first with
  | none =>
    cases second with
    | none => exact ⟨rfl, List.append_cancel_left same⟩
    | some text => exact absurd same (unquoted text left right)
  | some text =>
    cases second with
    | none => exact absurd same.symm (unquoted text right left)
    | some other =>
      obtain ⟨rfl, tails⟩ := quoted_append same
      exact ⟨rfl, tails⟩

/-- What is fingerprinted can be told from its text. -/
theorem dumps_inj {first second : String} {profile other : Profile} (same : dumps first profile = dumps second other) :
    first = second ∧ profile = other := by
  simp only [dumps, List.cons_append, List.append_assoc, List.cons.injEq, true_and, List.append_cancel_left_eq] at same
  obtain ⟨central, same⟩ := quoted_append same
  simp only [List.cons.injEq, true_and, List.append_cancel_left_eq] at same
  obtain ⟨email, same⟩ := quoted_append same
  simp only [List.cons.injEq, true_and, List.append_cancel_left_eq] at same
  obtain ⟨name, same⟩ := quoted_append same
  simp only [List.cons.injEq, true_and, List.append_cancel_left_eq] at same
  obtain ⟨phone, same⟩ := phoneText_append same
  simp only [List.cons.injEq, true_and, List.append_cancel_left_eq] at same
  obtain ⟨role, -⟩ := quoted_append same
  cases profile
  cases other
  simp_all

theorem fingerprint_inj {platform : Platform} (injective : Function.Injective platform.sha256) {first second : ProvisionInput}
    (same : fingerprint platform first = fingerprint platform second) :
    first.centralUserId = second.centralUserId ∧ first.profile = second.profile :=
  dumps_inj (injective same)

end Texts

section Invariant

/-- A call has answered what a receipt of its own says. -/
def FromReceipt (platform : Platform) (receipts : Table CmlProfileProvision CmlProfileProvision.operationId)
    (input : ProvisionInput) (result : ProvisionResult) : Prop :=
  ∃ receipt ∈ receipts, receipt.operationId = input.operationId ∧ receipt.fingerprint = fingerprint platform input ∧
    receipt.nativeId = result.nativeId

structure Receipted (platform : Platform) (store : Store) : Prop where
  answers : ∀ input result, .answered input result ∈ store.history → FromReceipt platform store.tables.receipts input result
  receipted : ∀ receipt ∈ creations store.history, receipt ∈ store.tables.receipts
  operations : ((creations store.history).map CmlProfileProvision.operationId).Nodup
  identities : ((creations store.history).map CmlProfileProvision.centralUserId).Nodup

variable {platform : Platform} {store : Store}

theorem Receipted.start (tables : Tables) : Receipted platform ⟨tables, []⟩ :=
  ⟨fun _ _ member => absurd member List.not_mem_nil, fun _ member => absurd member List.not_mem_nil, List.nodup_nil,
    List.nodup_nil⟩

theorem Receipted.fail (receipted : Receipted platform store) (code : String) : Receipted platform (fail store code) := by
  refine ⟨?_, receipted.receipted, receipted.operations, receipted.identities⟩
  intro input result member
  rcases List.mem_cons.mp member with impossible | earlier
  · cases impossible
  · exact receipted.answers input result earlier

theorem Receipted.answer (receipted : Receipted platform store) {input : ProvisionInput} {prior : CmlProfileProvision}
    (found : store.tables.receipts.get input.operationId = some prior) (same : prior.fingerprint = fingerprint platform input) :
    Receipted platform (answer store input prior) := by
  refine ⟨?_, receipted.receipted, receipted.operations, receipted.identities⟩
  intro other result member
  rcases List.mem_cons.mp member with now | earlier
  · cases now
    obtain ⟨stored, key⟩ := Table.get_eq_some_iff.mp found
    exact ⟨prior, stored, key, same, rfl⟩
  · exact receipted.answers other result earlier

theorem Receipted.commit (receipted : Receipted platform store) {input : ProvisionInput} {id : Int} {result : ProvisionResult}
    {tables : Tables} (unclaimed : Unclaimed store.tables.receipts (newReceipt platform input id))
    (stored : store.tables.receipts.insertAll [newReceipt platform input id] = some tables.receipts)
    (native : result.nativeId = id) :
    Receipted platform ⟨tables, .answered input result :: .created (newReceipt platform input id) :: store.history⟩ := by
  have rows : ∀ row, row ∈ tables.receipts ↔ row ∈ store.tables.receipts ∨ row = newReceipt platform input id := by
    intro row
    rw [Table.mem_insertAll stored, List.mem_singleton]
  refine ⟨?_, ?_, ?_, ?_⟩
  · intro other outcome member
    rcases List.mem_cons.mp member with now | earlier
    · cases now
      exact ⟨_, (rows _).mpr (.inr rfl), rfl, rfl, native.symm⟩
    · rcases List.mem_cons.mp earlier with impossible | before
      · cases impossible
      · obtain ⟨receipt, kept, answers⟩ := receipted.answers other outcome before
        exact ⟨receipt, (rows _).mpr (.inl kept), answers⟩
  · intro receipt member
    rcases List.mem_cons.mp member with rfl | earlier
    · exact (rows _).mpr (.inr rfl)
    · exact (rows _).mpr (.inl (receipted.receipted receipt earlier))
  · refine List.nodup_cons.mpr ⟨?_, receipted.operations⟩
    intro seen
    obtain ⟨receipt, member, same⟩ := List.mem_map.mp seen
    exact (unclaimed receipt (receipted.receipted receipt member)).1 same
  · refine List.nodup_cons.mpr ⟨?_, receipted.identities⟩
    intro seen
    obtain ⟨receipt, member, same⟩ := List.mem_map.mp seen
    exact (unclaimed receipt (receipted.receipted receipt member)).2.1 same

end Invariant

section Main
variable {platform : Platform} {world : World Store Provisioning} {who : Nat} {store : Store} {session : Provisioning}

theorem Receipted.step (receipted : Receipted platform world.state)
    (allowed : ProvisionsAmongOthers platform world who store session) : Receipted platform store := by
  rcases allowed with call | change
  · cases call with
    | refuse => exact receipted.fail _
    | operationConflict => exact receipted.fail _
    | identityExists => exact receipted.fail _
    | emailExists => exact receipted.fail _
    | profileConflict => exact receipted.fail _
    | fault => exact receipted.fail _
    | repeated looking found same => exact receipted.answer found same
    | recover conflicted found same => exact receipted.answer found same
    | createProfile => exact ⟨receipted.answers, receipted.receipted, receipted.operations, receipted.identities⟩
    | commit _ unclaimed _ _ _ stored => exact receipted.commit unclaimed stored rfl
    | _ => exact receipted
  · cases change
    exact ⟨receipted.answers, receipted.receipted, receipted.operations, receipted.identities⟩

theorem atomic_of_provisions (call : Provisions platform world who store session) :
    Atomic platform world.state store session := by
  cases call with
  | commit _ _ _ instanceStored userStored receiptStored =>
    exact .inr ⟨rfl, _, _, _, userStored, instanceStored, receiptStored, _, rfl⟩
  | _ => exact .inl ⟨rfl, rfl, rfl⟩

theorem Receipted.atMostOnce (injective : Function.Injective platform.sha256) (receipted : Receipted platform store) :
    AtMostOnce store := by
  refine ⟨?_, ?_, receipted.operations, receipted.identities, receipted.receipted⟩
  · intro input result outcome first second
    obtain ⟨receipt, stored, operation, -, native⟩ := receipted.answers _ _ first
    obtain ⟨other, storedToo, operationToo, -, nativeToo⟩ := receipted.answers _ _ second
    have same := Table.key_inj _ stored storedToo (operation.trans operationToo.symm)
    rw [← native, ← nativeToo, same]
  · intro input other result outcome first second same
    obtain ⟨receipt, stored, operation, print, -⟩ := receipted.answers _ _ first
    obtain ⟨receipt', storedToo, operationToo, printToo, -⟩ := receipted.answers _ _ second
    have alike := Table.key_inj _ stored storedToo (operation.trans (same.trans operationToo.symm))
    exact fingerprint_inj injective (print.symm.trans ((congrArg _ alike).trans printToo))

def emptyTables : Tables := ⟨∅, ∅, ∅, 1⟩

/-- On an empty database the first call creates its user. -/
theorem first_created {raw : Bytes} {input : ProvisionInput} (valid : provisionInput platform raw = some input) :
    ∃ world, Reaches (ProvisionsAmongOthers platform) (World.quiet ⟨emptyTables, []⟩ .idle) world ∧
      creations world.state.history = [newReceipt platform input 1] := by
  have none {ρ κ : Type} {key : ρ → κ} (property : ρ → Prop) : ∀ row ∈ (∅ : Table ρ key), property row :=
    fun row member => absurd member (Table.not_mem_empty row)
  have free (store : Store) (session : Provisioning) (key : Int) :
      Available HoldsLock ((World.quiet ⟨emptyTables, []⟩ .idle).move 0 store session) 0 key := by
    intro other different
    rw [World.move_other different]
    exact id
  obtain ⟨users, userStored⟩ : ∃ users, emptyTables.users.insertAll [newUser input 1 "00"] = some users :=
    Table.insertAll_isSome (List.nodup_singleton _) (none _)
  obtain ⟨instances, instanceStored⟩ :
      ∃ instances, emptyTables.instances.insertAll [newInstance platform input "00"] = some instances :=
    Table.insertAll_isSome (List.nodup_singleton _) (none _)
  obtain ⟨receipts, receiptStored⟩ :
      ∃ receipts, emptyTables.receipts.insertAll [newReceipt platform input 1] = some receipts :=
    Table.insertAll_isSome (List.nodup_singleton _) (none _)
  have started : Reaches (ProvisionsAmongOthers platform) (World.quiet ⟨emptyTables, []⟩ .idle) _ :=
    Reaches.step .refl 0 (.inl (.start raw rfl valid))
  have first := started.again (.inl (.lock (World.move_self ..) (free _ _ _)))
  have second := first.again (.inl (.lock (World.move_self ..) (free _ _ _)))
  have locked := second.again (.inl (.locked (World.move_self ..)))
  have unreceipted := locked.again (.inl (.unreceipted (World.move_self ..) rfl))
  have unclaimed := unreceipted.again (.inl (.unclaimed (World.move_self ..) (none _)))
  have unmailed := unclaimed.again (.inl (.unmailed (World.move_self ..) (none _)))
  have created := unmailed.again (.inl (.createProfile 1 "00" (World.move_self ..) le_rfl))
  have receipted := created.again (.inl (.addReceipt (World.move_self ..) (none _)))
  have committed := receipted.again (.inl (.commit (World.move_self ..) (none _) (none _) instanceStored userStored receiptStored))
  exact ⟨_, committed, rfl⟩

theorem provisioned_once (platform : Platform) (injective : Function.Injective platform.sha256) (tables : Tables)
    {world : World Store Provisioning}
    (reached : Reaches (ProvisionsAmongOthers platform) (World.quiet ⟨tables, []⟩ .idle) world) :
    AtMostOnce world.state ∧ ∀ who store session, Provisions platform world who store session →
      Atomic platform world.state store session := by
  refine ⟨?_, fun who store session call => atomic_of_provisions call⟩
  have receipted : Receipted platform world.state :=
    reached.keeps (fun world => Receipted platform world.state) (.start tables) fun _ _ _ _ before allowed => before.step allowed
  exact receipted.atMostOnce injective

end Main

section Samples

def sampleInput : ProvisionInput :=
  ⟨"00000000-0000-4000-8000-000000000011", "00000000-0000-4000-8000-000000000012", ⟨"A", "a@b.c", none, "employee"⟩⟩

def sampleBody : Json :=
  .object [("operation_id", .text sampleInput.operationId), ("central_user_id", .text sampleInput.centralUserId),
    ("profile", .object [("name", .text "A"), ("email", .text "a@b.c"), ("role", .text "employee")])]

def sampleRaw : Bytes :=
  ('\x7b' :: quoted "operation_id" ++ ':' :: quoted sampleInput.operationId ++ ',' :: quoted "central_user_id" ++ ':' ::
    quoted sampleInput.centralUserId ++ ',' :: quoted "profile" ++ ':' :: '\x7b' :: quoted "name" ++ ':' :: quoted "A" ++
    ',' :: quoted "email" ++ ':' :: quoted "a@b.c" ++ ',' :: quoted "role" ++ ':' :: quoted "employee" ++
    ['\x7d', '\x7d']).map fun c => UInt8.ofNat c.toNat

/-- The texts of one call as the platform reads and hashes them. -/
def samplePlatform : Platform where
  loads bytes := if bytes = sampleRaw then some sampleBody else none
  lower text := String.ofList (text.toList.map Char.toLower)
  isDigit := Char.isDigit
  sha256 text :=
    if text = dumps sampleInput.centralUserId sampleInput.profile then
      "60a10e684dec44faefd7607adb773cae0db7ce66fd04cf1fde8eb03a1e5f95d7"
    else String.ofList ('-' :: text)
  lockId name :=
    if name = "cml-profile-operation:00000000-0000-4000-8000-000000000011" then -7261950243572079301
    else 965968322961260849

theorem samplePlatform_injective : Function.Injective samplePlatform.sha256 := by
  intro first second same
  have digest : ∀ text : List Char, "60a10e684dec44faefd7607adb773cae0db7ce66fd04cf1fde8eb03a1e5f95d7" ≠
      String.ofList ('-' :: text) := by
    intro text equal
    have head := congrArg (fun text => text.toList.head?) equal
    rw [String.toList_ofList, String.toList_ofList] at head
    cases head
  simp only [samplePlatform] at same
  split_ifs at same with left right right
  · rw [left, right]
  · exact absurd same (digest second)
  · exact absurd same.symm (digest first)
  · exact (List.cons.inj (String.ofList_injective same)).2

theorem sample_provisioned_once :
    ∃ world, Reaches (ProvisionsAmongOthers samplePlatform) (World.quiet ⟨emptyTables, []⟩ .idle) world ∧
      creations world.state.history = [newReceipt samplePlatform sampleInput 1] ∧ AtMostOnce world.state ∧
      ∀ who store session, Provisions samplePlatform world who store session →
        Atomic samplePlatform world.state store session := by
  have valid : provisionInput samplePlatform sampleRaw = some sampleInput := by decide +kernel
  obtain ⟨world, reached, created⟩ := first_created valid
  exact ⟨world, reached, created, provisioned_once samplePlatform samplePlatform_injective emptyTables reached⟩

end Samples

end Dagmar.Cml.Proofs
