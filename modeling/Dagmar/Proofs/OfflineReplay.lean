import Dagmar.Library.History
import Dagmar.OfflineQueue

/-! No operation of the queue is lost or overtaken, however its replays interleave. One that
is replayed by two pages at once may reach the server twice; where the replays take turns,
each is acknowledged once. -/

namespace Dagmar.Offline.Proofs
open Library

section Delivery

def Entry.acknowledged? : Entry → Option Int
  | .acknowledged operation => some operation.id
  | _ => none

def Entry.failed? : Entry → Option Int
  | .failed operation => some operation.id
  | _ => none

def Entry.queued? : Entry → Option Int
  | .queued operation => some operation.id
  | _ => none

/-- The keys of the operations that the server has acknowledged, the latest first. -/
def acknowledgements (history : List Entry) : List Int := history.filterMap Entry.acknowledged?

def failures (history : List Entry) (id : Int) : Nat := (history.filterMap Entry.failed?).count id

/-- A row is what was queued but for the note of how its attempts ended. -/
def Unaltered (stored queued : QueuedOperation) : Prop :=
  stored = { queued with attempts := stored.attempts, lastError := stored.lastError }

def Known (history : List Entry) (stored : QueuedOperation) : Prop := ∃ queued, .queued queued ∈ history ∧ Unaltered stored queued

theorem Unaltered.key {stored queued : QueuedOperation} (unaltered : Unaltered stored queued) : stored.id = queued.id := by
  rw [unaltered]

/-- What has happened before an entry. An operation is sent after all those that were queued before
it are acknowledged. -/
def Justified (earlier : List Entry) : Entry → Prop
  | .queued operation => ∀ first, .queued first ∈ earlier → first.id < operation.id
  | .sent allowed operation => permits allowed operation = true ∧ Known earlier operation ∧
      ∀ first, .queued first ∈ earlier → first.id < operation.id → first.id ∈ acknowledgements earlier
  | .acknowledged operation => ∃ allowed, .sent allowed operation ∈ earlier
  | .failed operation => ∃ allowed, .sent allowed operation ∈ earlier

structure Delivered (state : State) : Prop where
  lawful : Lawful Justified state.history
  kept : ∀ operation, .queued operation ∈ state.history →
    (∃ stored ∈ state.store.rows, Unaltered stored operation) ∨ operation.id ∈ acknowledgements state.history
  known : ∀ stored ∈ state.store.rows, Known state.history stored

end Delivery

section Histories
variable {history later : List Entry} {operation : QueuedOperation} {key : Int}

theorem mem_acknowledgements : key ∈ acknowledgements history ↔ ∃ operation, .acknowledged operation ∈ history ∧ operation.id = key := by
  rw [acknowledgements, List.mem_filterMap]
  constructor
  · intro found
    obtain ⟨entry, member, same⟩ := found
    cases entry with
    | acknowledged operation => exact ⟨operation, member, Option.some.inj same⟩
    | queued | sent | failed => cases same
  · intro found
    obtain ⟨operation, member, same⟩ := found
    exact ⟨_, member, congrArg some same⟩

theorem acknowledgements_mono (kept : history ⊆ later) (member : key ∈ acknowledgements history) : key ∈ acknowledgements later := by
  obtain ⟨operation, entry, same⟩ := mem_acknowledgements.mp member
  exact mem_acknowledgements.mpr ⟨operation, kept entry, same⟩

theorem Known.mono (kept : history ⊆ later) (known : Known history operation) : Known later operation := by
  obtain ⟨queued, member, unaltered⟩ := known
  exact ⟨queued, kept member, unaltered⟩

/-- A history that has grown; what was queued since has larger keys. -/
structure Grown (earlier later : List Entry) : Prop where
  kept : earlier ⊆ later
  newer : ∀ operation, .queued operation ∈ later →
    .queued operation ∈ earlier ∨ ∀ first, .queued first ∈ earlier → first.id < operation.id

theorem Grown.refl (history : List Entry) : Grown history history := ⟨List.Subset.refl _, fun _ member => .inl member⟩

theorem Grown.cons {entry : Entry} (justified : Justified history entry) : Grown history (entry :: history) where
  kept := List.subset_cons_self _ _
  newer operation member := by
    rcases List.mem_cons.mp member with same | before
    · subst same
      exact .inr justified
    · exact .inl before

theorem fresh_queued : Fresh Justified Entry.queued? := by
  intro earlier entry _ justified other before key named same
  cases entry with
  | queued operation =>
    cases other with
    | queued first =>
      have smaller := justified first before
      cases named
      exact absurd (Option.some.inj same) smaller.ne
    | sent | acknowledged | failed => cases same
  | sent | acknowledged | failed => cases named

/-- Keys tell apart what was queued. -/
theorem queued_unique (lawful : Lawful Justified history) {first second : QueuedOperation} (one : .queued first ∈ history)
    (two : .queued second ∈ history) (same : first.id = second.id) : first = second :=
  Entry.queued.inj (lawful.alone fresh_queued one two (congrArg some same) rfl)

/-- What was sent before the history ended was sent when it was due. -/
theorem sent_justified (lawful : Lawful Justified history) {allowed : Option (List Int)} (sent : .sent allowed operation ∈ history) :
    Known history operation ∧
      ∀ first, .queued first ∈ history → first.id < operation.id → first.id ∈ acknowledgements history := by
  induction history with
  | nil => cases sent
  | cons entry history ih =>
    obtain ⟨now, past⟩ := lawful
    have grown := Grown.cons now
    obtain ⟨known, due⟩ : Known history operation ∧
        ∀ first, .queued first ∈ history → first.id < operation.id → first.id ∈ acknowledgements history := by
      rcases List.mem_cons.mp sent with same | before
      · subst same
        exact now.2
      · exact ih past before
    refine ⟨known.mono grown.kept, ?_⟩
    intro first member smaller
    rcases grown.newer first member with before | newer
    · exact acknowledgements_mono grown.kept (due first before smaller)
    · obtain ⟨queued, listed, unaltered⟩ := known
      have larger := newer queued listed
      rw [← unaltered.key] at larger
      exact absurd smaller larger.le.not_gt

theorem acknowledged_justified (lawful : Lawful Justified history) (member : key ∈ acknowledgements history) :
    ∃ operation, operation.id = key ∧ Known history operation ∧
      ∀ first, .queued first ∈ history → first.id < key → first.id ∈ acknowledgements history := by
  obtain ⟨operation, entry, rfl⟩ := mem_acknowledgements.mp member
  obtain ⟨earlier, -, justified, order, -⟩ := lawful.before entry
  obtain ⟨allowed, sent⟩ := justified
  exact ⟨operation, rfl, sent_justified lawful (order _ sent).mem⟩

end Histories

section Invariant
variable {state : State} {flush : Flush} {texts : Texts} {operation : QueuedOperation} {rest : List QueuedOperation}

/-- The operations that a call has before it. -/
structure Planned (history : List Entry) (operations : List QueuedOperation) : Prop where
  known : ∀ operation ∈ operations, Known history operation
  ascending : operations.Pairwise fun first second => first.id < second.id
  due : ∀ operation ∈ operations, ∀ first, .queued first ∈ history → first.id < operation.id →
    first.id ∈ acknowledgements history ∨ ∃ other ∈ operations, other.id = first.id

def Ready (history : List Entry) : Flush → Prop
  | .sending allowed operation rest _ => Planned history (operation :: rest) ∧ .sent allowed operation ∈ history
  | .deleting _ operation rest _ => Planned history (operation :: rest) ∧ operation.id ∈ acknowledgements history
  | .storing operation _ => Known history operation
  | _ => True

structure Sound (state : State) : Prop where
  lawful : Lawful Justified state.history
  keys : ∀ operation, .queued operation ∈ state.history → operation.id < state.store.nextKey
  kept : ∀ operation, .queued operation ∈ state.history →
    (∃ stored ∈ state.store.rows, stored.id = operation.id) ∨ operation.id ∈ acknowledgements state.history
  known : ∀ stored ∈ state.store.rows, Known state.history stored

theorem Sound.delivered (sound : Sound state) : Delivered state where
  lawful := sound.lawful
  known := sound.known
  kept operation queued := by
    refine (sound.kept operation queued).imp_left ?_
    intro found
    obtain ⟨stored, member, same⟩ := found
    obtain ⟨first, listed, unaltered⟩ := sound.known stored member
    obtain rfl := queued_unique sound.lawful listed queued (unaltered.key.symm.trans same)
    exact ⟨stored, member, unaltered⟩

theorem Planned.grown {history later : List Entry} {operations : List QueuedOperation} (planned : Planned history operations)
    (grown : Grown history later) : Planned later operations where
  known operation member := (planned.known operation member).mono grown.kept
  ascending := planned.ascending
  due operation member first queued smaller := by
    rcases grown.newer first queued with before | newer
    · exact (planned.due operation member first before smaller).imp_left (acknowledgements_mono grown.kept)
    · obtain ⟨known, listed, unaltered⟩ := planned.known operation member
      have larger := newer known listed
      rw [← unaltered.key] at larger
      exact absurd smaller larger.le.not_gt

theorem Ready.grown {history later : List Entry} (ready : Ready history flush) (grown : Grown history later) : Ready later flush := by
  cases flush with
  | idle | returned => trivial
  | sending => exact ⟨ready.1.grown grown, grown.kept ready.2⟩
  | deleting => exact ⟨ready.1.grown grown, acknowledgements_mono grown.kept ready.2⟩
  | storing => exact Known.mono grown.kept ready

/-- The first of them is due. -/
theorem Planned.first {history : List Entry} (planned : Planned history (operation :: rest)) :
    ∀ first, .queued first ∈ history → first.id < operation.id → first.id ∈ acknowledgements history := by
  intro first queued smaller
  rcases planned.due operation List.mem_cons_self first queued smaller with acknowledged | ⟨other, member, same⟩
  · exact acknowledged
  · rcases List.mem_cons.mp member with equal | later
    · rw [← same, equal] at smaller
      exact absurd smaller (lt_irrefl _)
    · have larger := List.rel_of_pairwise_cons planned.ascending later
      rw [same] at larger
      exact absurd smaller larger.le.not_gt

theorem Planned.tail {history : List Entry} (planned : Planned history (operation :: rest))
    (acknowledged : operation.id ∈ acknowledgements history) : Planned history rest where
  known other member := planned.known other (List.mem_cons_of_mem _ member)
  ascending := planned.ascending.of_cons
  due other member first queued smaller := by
    rcases planned.due other (List.mem_cons_of_mem _ member) first queued smaller with before | ⟨next, listed, same⟩
    · exact .inl before
    · rcases List.mem_cons.mp listed with equal | later
      · rw [← same, equal]
        exact .inl acknowledged
      · exact .inr ⟨next, later, same⟩

/-- What a call lists at its start is before it. -/
theorem Sound.planned (sound : Sound state) :
    Planned state.history (ordered QueuedOperation.id (listOperations state.store)) where
  known stored member := sound.known stored (by simpa [ordered, listOperations, Table.mem_def] using member)
  ascending := by
    apply ordered_strict
    rw [listOperations, ordered]
    exact ((List.perm_insertionSort _ _).map QueuedOperation.id).nodup_iff.mpr state.store.rows.unique
  due stored _ first queued _ := by
    rcases sound.kept first queued with ⟨other, member, same⟩ | acknowledged
    · exact .inr ⟨other, by simpa [ordered, listOperations, Table.mem_def] using member, same⟩
    · exact .inl acknowledged

/-- An entry that queues nothing. -/
theorem Sound.record (sound : Sound state) {entry : Entry} (justified : Justified state.history entry)
    (unqueued : Entry.queued? entry = none) : Sound (state.record [entry]) where
  lawful := ⟨justified, sound.lawful⟩
  keys operation queued := by
    rcases List.mem_cons.mp queued with rfl | before
    · cases unqueued
    · exact sound.keys operation before
  kept operation queued := by
    rcases List.mem_cons.mp queued with rfl | before
    · cases unqueued
    · exact (sound.kept operation before).imp_right (acknowledgements_mono (List.subset_cons_self _ _))
  known stored member := (sound.known stored member).mono (List.subset_cons_self _ _)

theorem Sound.put (sound : Sound state) (known : Known state.history operation) :
    Sound { state with store := state.store.put operation } where
  lawful := sound.lawful
  keys first queued := (sound.keys first queued).trans_le (le_max_left _ _)
  kept first queued := by
    refine (sound.kept first queued).imp_left ?_
    intro found
    obtain ⟨stored, member, same⟩ := found
    by_cases this : stored.id = operation.id
    · exact ⟨operation, Table.mem_put.mpr (.inl rfl), this.symm.trans same⟩
    · exact ⟨stored, Table.mem_put.mpr (.inr ⟨member, this⟩), same⟩
  known stored member := by
    rcases Table.mem_put.mp member with rfl | ⟨before, -⟩
    · exact known
    · exact sound.known stored before

theorem Sound.delete (sound : Sound state) {key : Int} (acknowledged : key ∈ acknowledgements state.history) :
    Sound { state with store := state.store.delete key } where
  lawful := sound.lawful
  keys := sound.keys
  kept first queued := by
    rcases sound.kept first queued with ⟨stored, member, same⟩ | before
    · by_cases this : stored.id = key
      · rw [← same, this]
        exact .inr acknowledged
      · exact .inl ⟨stored, Table.mem_deleteWhere.mpr ⟨member, this⟩, same⟩
    · exact .inr before
  known stored member := sound.known stored (Table.mem_deleteWhere.mp member).1

theorem Sound.queue (sound : Sound state) (asked : Operation) (now : String) :
    Justified state.history (.queued (state.store.queueOperation asked now)) ∧
      Sound ⟨state.store.put (state.store.queueOperation asked now), .queued (state.store.queueOperation asked now) :: state.history⟩ := by
  have justified : Justified state.history (.queued (state.store.queueOperation asked now)) := sound.keys
  refine ⟨justified, ⟨justified, sound.lawful⟩, ?_, ?_, ?_⟩
  · intro operation queued
    rcases List.mem_cons.mp queued with same | before
    · cases same
      exact (Int.lt_succ _).trans_le (le_max_right _ _)
    · exact (sound.keys operation before).trans_le (le_max_left _ _)
  · intro operation queued
    rcases List.mem_cons.mp queued with same | before
    · cases same
      exact .inl ⟨_, Table.mem_put.mpr (.inl rfl), rfl⟩
    · rcases sound.kept operation before with ⟨stored, member, same⟩ | acknowledged
      · have smaller := sound.keys operation before
        exact .inl ⟨stored, Table.mem_put.mpr (.inr ⟨member, by rw [same]; exact smaller.ne⟩), same⟩
      · exact .inr (acknowledgements_mono (List.subset_cons_self _ _) acknowledged)
  · intro stored member
    rcases Table.mem_put.mp member with rfl | ⟨before, -⟩
    · exact ⟨_, List.mem_cons_self, rfl⟩
    · exact (sound.known stored before).mono (List.subset_cons_self _ _)

/-- A turn of the loop. -/
theorem Sound.resume (sound : Sound state) {operations : List QueuedOperation} (planned : Planned state.history operations)
    (allowed : Option (List Int)) (completed : Nat) {next : State}
    (resumed : state.resume (advance texts allowed operations completed) = (next, flush)) :
    Sound next ∧ Grown state.history next.history ∧ Ready next.history flush := by
  cases operations with
  | nil =>
    cases resumed
    exact ⟨sound, Grown.refl _, trivial⟩
  | cons operation rest =>
    rw [advance] at resumed
    split at resumed
    · rename_i permitted
      cases resumed
      have justified : Justified state.history (.sent allowed operation) :=
        ⟨permitted, planned.known operation List.mem_cons_self, planned.first⟩
      exact ⟨sound.record justified rfl, Grown.cons justified, planned.grown (Grown.cons justified), List.mem_cons_self⟩
    · cases resumed
      obtain ⟨queued, member, unaltered⟩ := planned.known operation List.mem_cons_self
      refine ⟨sound, Grown.refl _, queued, member, ?_⟩
      rw [unaltered]
      rfl

end Invariant

section Steps
variable {state next : State} {flush later : Flush} {act : Act}

theorem Sound.start (sound : Sound state) (texts : Texts) (allowed : Option (List Int))
    (started : startFlush state texts allowed = (next, later)) :
    Sound next ∧ Grown state.history next.history ∧ Ready next.history later :=
  sound.resume sound.planned allowed 0 started

/-- The note of a failure is about what was queued. -/
theorem ready_caught {history : List Entry} {operation : QueuedOperation} {texts : Texts} {completed : Nat} {thrown : Thrown}
    (known : Known history operation) : Ready history (caught texts operation completed thrown) := by
  obtain ⟨queued, member, unaltered⟩ := known
  refine ⟨queued, member, ?_⟩
  rw [unaltered]
  rfl

theorem Sound.step (sound : Sound state) (ready : Ready state.history flush) (stepped : step state flush act = some (next, later)) :
    Sound next ∧ Grown state.history next.history ∧ Ready next.history later := by
  cases act with
  | queue asked now =>
    cases stepped
    obtain ⟨justified, queued⟩ := sound.queue asked now
    exact ⟨queued, Grown.cons justified, ready.grown (Grown.cons justified)⟩
  | start texts allowed =>
    cases flush with
    | idle | returned => exact sound.start texts allowed (Option.some.inj stepped)
    | sending | deleting | storing => cases stepped
  | confirm =>
    cases flush with
    | sending allowed operation rest completed =>
      cases stepped
      obtain ⟨planned, sent⟩ := ready
      have justified : Justified state.history (.acknowledged operation) := ⟨allowed, sent⟩
      exact ⟨sound.record justified rfl, Grown.cons justified, planned.grown (Grown.cons justified), List.mem_cons_self⟩
    | idle | deleting | storing | returned => cases stepped
  | refuse texts thrown =>
    cases flush with
    | sending allowed operation rest completed =>
      cases stepped
      obtain ⟨planned, sent⟩ := ready
      have justified : Justified state.history (.failed operation) := ⟨allowed, sent⟩
      exact ⟨sound.record justified rfl, Grown.cons justified,
        ready_caught ((planned.known operation List.mem_cons_self).mono (Grown.cons justified).kept)⟩
    | idle | deleting | storing | returned => cases stepped
  | delete texts =>
    cases flush with
    | deleting allowed operation rest completed =>
      obtain ⟨planned, acknowledged⟩ := ready
      exact (sound.delete acknowledged).resume (planned.tail acknowledged) allowed (completed + 1) (Option.some.inj stepped)
    | idle | sending | storing | returned => cases stepped
  | deleteFails texts message =>
    cases flush with
    | deleting allowed operation rest completed =>
      cases stepped
      exact ⟨sound, Grown.refl _, ready_caught (ready.1.known operation List.mem_cons_self)⟩
    | idle | sending | storing | returned => cases stepped
  | put =>
    cases flush with
    | storing operation result =>
      cases stepped
      exact ⟨sound.put ready, Grown.refl _, trivial⟩
    | idle | sending | deleting | returned => cases stepped
  | abandon =>
    cases stepped
    exact ⟨sound, Grown.refl _, trivial⟩

/-- What holds in every world: a sound state, and calls that are ready for their next steps. -/
structure SoundWorld (world : World State Flush) : Prop where
  sound : Sound world.state
  ready : ∀ who, Ready world.state.history (world.sessions who)

theorem soundWorld_start : SoundWorld Offline.start where
  sound := ⟨trivial, nofun, nofun, nofun⟩
  ready _ := trivial

theorem SoundWorld.step {world : World State Flush} (holds : SoundWorld world) {who : Nat}
    (stepped : Offline.step world.state (world.sessions who) act = some (next, later)) : SoundWorld (world.move who next later) := by
  obtain ⟨sound, grown, ready⟩ := holds.sound.step (holds.ready who) stepped
  refine ⟨sound, ?_⟩
  apply World.forall_move (Ready next.history) ready
  intro other _
  exact (holds.ready other).grown grown

end Steps

/-- Whatever the pages do, an operation stays in the queue as it was queued until the server has acknowledged
it, and none is sent before all those that were queued earlier are acknowledged. -/
theorem operations_delivered {world : World State Flush} (reached : Reaches Acts start world) : Delivered world.state := by
  have holds : SoundWorld world := by
    apply reached.keeps SoundWorld soundWorld_start
    intro world who state flush holds allowed
    obtain ⟨act, stepped⟩ := allowed
    exact holds.step stepped
  exact holds.sound.delivered

section Turns

def Resting : Flush → Prop
  | .idle => True
  | .returned _ => True
  | _ => False

/-- The call waits for the storage to take down what the server has answered. -/
def Noting : Flush → Prop
  | .deleting .. => True
  | .storing .. => True
  | _ => False

/-- What the server has answered is taken down. -/
def Noted (flush : Flush) : Act → Prop
  | .deleteFails .. => False
  | .abandon => ¬ Noting flush
  | _ => True

/-- A replay begins when no other is under way. -/
structure InTurn (world : World State Flush) (who : Nat) (act : Act) : Prop where
  noted : Noted (world.sessions who) act
  alone : ∀ texts allowed, act = .start texts allowed → ∀ other, Resting (world.sessions other)

def ActsInTurn : Rule State Flush := fun world who state flush =>
  ∃ act, step world.state (world.sessions who) act = some (state, flush) ∧ InTurn world who act

structure DeliveredOnce (world : World State Flush) : Prop where
  /-- The latest comes first: each is acknowledged once, in the order of queueing. -/
  once : (acknowledgements world.state.history).Pairwise fun later earlier => earlier < later
  remaining : (∀ who, Resting (world.sessions who)) → ∀ operation, .queued operation ∈ world.state.history →
    ((∃ stored ∈ world.state.store.rows, Unaltered stored operation) ↔ operation.id ∉ acknowledgements world.state.history)
  counted : (∀ who, Resting (world.sessions who)) → ∀ stored ∈ world.state.store.rows,
    stored.attempts = failures world.state.history stored.id

end Turns

section Exactness
variable {state next : State} {flush later : Flush} {operation : QueuedOperation} {act : Act}

/-- The rows, one of them excepted, are of operations without an acknowledgement, with their failures counted. -/
def Settled (state : State) (except : Option Int) : Prop :=
  ∀ stored ∈ state.store.rows, some stored.id ≠ except →
    stored.id ∉ acknowledgements state.history ∧ stored.attempts = failures state.history stored.id

def Exact (state : State) : Flush → Prop
  | .sending _ operation rest _ => Settled state none ∧ ∀ each ∈ operation :: rest, each ∈ state.store.rows
  | .deleting _ operation rest _ => Settled state (some operation.id) ∧ ∀ each ∈ rest, each ∈ state.store.rows
  | .storing operation _ => Settled state (some operation.id) ∧ operation.id ∉ acknowledgements state.history ∧
      operation.attempts = failures state.history operation.id
  | _ => Settled state none

theorem Settled.except (settled : Settled state none) (except : Option Int) : Settled state except :=
  fun stored member _ => settled stored member nofun

theorem failures_cons (entry : Entry) (history : List Entry) (key : Int) :
    failures (entry :: history) key = failures history key + if Entry.failed? entry = some key then 1 else 0 := by
  cases entry with
  | failed operation => simp [failures, Entry.failed?, List.count_cons]
  | queued | sent | acknowledged => rfl

theorem Sound.below (sound : Sound state) (known : Known state.history operation) : operation.id < state.store.nextKey := by
  obtain ⟨queued, member, unaltered⟩ := known
  rw [unaltered.key]
  exact sound.keys queued member

/-- Nothing is known of the key that comes next. -/
theorem Sound.unused (sound : Sound state) :
    state.store.nextKey ∉ acknowledgements state.history ∧ failures state.history state.store.nextKey = 0 := by
  constructor
  · intro member
    obtain ⟨operation, same, known, -⟩ := acknowledged_justified sound.lawful member
    exact absurd same (sound.below known).ne
  · apply List.count_eq_zero.mpr
    intro member
    obtain ⟨entry, listed, same⟩ := List.mem_filterMap.mp member
    cases entry with
    | failed operation =>
      obtain ⟨earlier, -, ⟨allowed, sent⟩, order, -⟩ := sound.lawful.before listed
      have known := (sent_justified sound.lawful (order _ sent).mem).1
      exact absurd (Option.some.inj same) (sound.below known).ne
    | queued | sent | acknowledged => cases same

/-- What has no acknowledgement was queued after everything that has one. -/
theorem Sound.latest (sound : Sound state) (known : Known state.history operation)
    (unacknowledged : operation.id ∉ acknowledgements state.history) :
    ∀ key ∈ acknowledgements state.history, key < operation.id := by
  intro key member
  obtain ⟨-, -, -, due⟩ := acknowledged_justified sound.lawful member
  obtain ⟨queued, listed, unaltered⟩ := known
  rcases lt_trichotomy key operation.id with smaller | same | larger
  · exact smaller
  · rw [same] at member
    exact absurd member unacknowledged
  · rw [unaltered.key] at larger unacknowledged
    exact absurd (due queued listed larger) unacknowledged

theorem Exact.queue (sound : Sound state) (exact_ : Exact state flush) (asked : Operation) (now : String) :
    Exact ⟨state.store.put (state.store.queueOperation asked now), .queued (state.store.queueOperation asked now) :: state.history⟩
      flush := by
  obtain ⟨unacknowledged, unfailed⟩ := sound.unused
  have settled {except : Option Int} (settled : Settled state except) :
      Settled ⟨state.store.put (state.store.queueOperation asked now),
        .queued (state.store.queueOperation asked now) :: state.history⟩ except := by
    intro stored member excepted
    rcases Table.mem_put.mp member with rfl | ⟨before, -⟩
    · exact ⟨unacknowledged, unfailed.symm⟩
    · exact settled stored before excepted
  have stays {each : QueuedOperation} (member : each ∈ state.store.rows) :
      each ∈ (state.store.put (state.store.queueOperation asked now)).rows :=
    Table.mem_put.mpr (.inr ⟨member, (sound.below (sound.known each member)).ne⟩)
  cases flush with
  | idle | returned => exact settled exact_
  | sending => exact ⟨settled exact_.1, fun each member => stays (exact_.2 each member)⟩
  | deleting => exact ⟨settled exact_.1, fun each member => stays (exact_.2 each member)⟩
  | storing => exact ⟨settled exact_.1, exact_.2⟩

theorem Exact.resume {texts : Texts} {allowed : Option (List Int)} {operations : List QueuedOperation} {completed : Nat}
    (settled : Settled state none) (listed : ∀ each ∈ operations, each ∈ state.store.rows)
    (resumed : state.resume (advance texts allowed operations completed) = (next, later)) : Exact next later := by
  cases operations with
  | nil =>
    cases resumed
    exact settled
  | cons operation rest =>
    rw [advance] at resumed
    split at resumed
    · cases resumed
      exact ⟨settled, listed⟩
    · cases resumed
      exact ⟨settled.except _, settled operation (listed operation List.mem_cons_self) nofun⟩

theorem Exact.start {texts : Texts} {allowed : Option (List Int)} (settled : Settled state none)
    (started : startFlush state texts allowed = (next, later)) : Exact next later := by
  apply Exact.resume settled _ started
  intro each member
  simpa [ordered, listOperations, Table.mem_def] using member

theorem Exact.confirm {allowed : Option (List Int)} {rest : List QueuedOperation} {completed : Nat}
    (exact_ : Exact state (.sending allowed operation rest completed)) :
    Exact (state.record [.acknowledged operation]) (.deleting allowed operation rest completed) := by
  obtain ⟨settled, listed⟩ := exact_
  refine ⟨?_, fun each member => listed each (List.mem_cons_of_mem _ member)⟩
  intro stored member different
  obtain ⟨unacknowledged, counted⟩ := settled stored member nofun
  refine ⟨?_, counted⟩
  intro acknowledged
  rcases List.mem_cons.mp acknowledged with same | before
  · exact different (congrArg some same)
  · exact unacknowledged before

theorem Exact.refuse {texts : Texts} {allowed : Option (List Int)} {rest : List QueuedOperation} {completed : Nat} {thrown : Thrown}
    (exact_ : Exact state (.sending allowed operation rest completed)) :
    Exact (state.record [.failed operation]) (caught texts operation completed thrown) := by
  obtain ⟨settled, listed⟩ := exact_
  obtain ⟨unacknowledged, counted⟩ := settled operation (listed operation List.mem_cons_self) nofun
  refine ⟨?_, unacknowledged, ?_⟩
  · intro stored member different
    obtain ⟨unacknowledged, counted⟩ := settled stored member nofun
    refine ⟨unacknowledged, ?_⟩
    change _ = failures (.failed operation :: state.history) stored.id
    rw [failures_cons, if_neg fun same => different same.symm]
    exact counted
  · change operation.attempts + 1 = failures (.failed operation :: state.history) operation.id
    rw [failures_cons, Entry.failed?, if_pos rfl, counted]

theorem Exact.delete {texts : Texts} {allowed : Option (List Int)} {rest : List QueuedOperation} {completed : Nat}
    (ready : Ready state.history (.deleting allowed operation rest completed))
    (exact_ : Exact state (.deleting allowed operation rest completed))
    (resumed : { state with store := state.store.delete operation.id }.resume (advance texts allowed rest (completed + 1)) =
      (next, later)) : Exact next later := by
  obtain ⟨settled, listed⟩ := exact_
  apply Exact.resume _ _ resumed
  · intro stored member _
    obtain ⟨before, different⟩ := Table.mem_deleteWhere.mp member
    exact settled stored before fun same => different (Option.some.inj same)
  · intro each member
    have larger := List.rel_of_pairwise_cons ready.1.ascending member
    exact Table.mem_deleteWhere.mpr ⟨listed each member, larger.ne'⟩

theorem Exact.put {result : FlushResult} (exact_ : Exact state (.storing operation result)) :
    Exact { state with store := state.store.put operation } (.returned result) := by
  obtain ⟨settled, counted⟩ := exact_
  intro stored member _
  rcases Table.mem_put.mp member with rfl | ⟨before, different⟩
  · exact counted
  · exact settled stored before fun same => different (Option.some.inj same)

end Exactness

section Steps
variable {state next : State} {flush later : Flush} {act : Act}

theorem Exact.settled (exact_ : Exact state flush) (resting : Resting flush) : Settled state none := by
  cases flush with
  | idle | returned => exact exact_
  | sending | deleting | storing => exact resting.elim

theorem Settled.exact (settled : Settled state none) (resting : Resting flush) : Exact state flush := by
  cases flush with
  | idle | returned => exact settled
  | sending | deleting | storing => exact resting.elim

theorem Exact.step (sound : Sound state) (ready : Ready state.history flush) (exact_ : Exact state flush) (noted : Noted flush act)
    (stepped : step state flush act = some (next, later)) : Exact next later := by
  cases act with
  | queue asked now =>
    cases stepped
    exact exact_.queue sound asked now
  | start texts allowed =>
    cases flush with
    | idle | returned => exact Exact.start exact_ (Option.some.inj stepped)
    | sending | deleting | storing => cases stepped
  | confirm =>
    cases flush with
    | sending =>
      cases stepped
      exact exact_.confirm
    | idle | deleting | storing | returned => cases stepped
  | refuse =>
    cases flush with
    | sending =>
      cases stepped
      exact exact_.refuse
    | idle | deleting | storing | returned => cases stepped
  | delete =>
    cases flush with
    | deleting => exact exact_.delete ready (Option.some.inj stepped)
    | idle | sending | storing | returned => cases stepped
  | deleteFails => exact noted.elim
  | put =>
    cases flush with
    | storing =>
      cases stepped
      exact exact_.put
    | idle | sending | deleting | returned => cases stepped
  | abandon =>
    cases stepped
    cases flush with
    | idle | returned => exact exact_
    | sending => exact exact_.1
    | deleting | storing => exact absurd trivial noted

theorem acknowledgements_resumed {texts : Texts} {allowed : Option (List Int)} {operations : List QueuedOperation} {completed : Nat}
    (resumed : state.resume (advance texts allowed operations completed) = (next, later)) :
    acknowledgements next.history = acknowledgements state.history := by
  cases resumed
  cases advance texts allowed operations completed <;> rfl

/-- A step acknowledges at most what is being sent. -/
theorem acknowledgements_step (stepped : step state flush act = some (next, later)) :
    acknowledgements next.history = acknowledgements state.history ∨ ∃ allowed operation rest completed,
      flush = .sending allowed operation rest completed ∧
        acknowledgements next.history = operation.id :: acknowledgements state.history := by
  cases act with
  | queue | abandon =>
    cases stepped
    exact .inl rfl
  | start texts allowed =>
    cases flush with
    | idle | returned => exact .inl (acknowledgements_resumed (Option.some.inj stepped))
    | sending | deleting | storing => cases stepped
  | confirm =>
    cases flush with
    | sending =>
      cases stepped
      exact .inr ⟨_, _, _, _, rfl, rfl⟩
    | idle | deleting | storing | returned => cases stepped
  | refuse =>
    cases flush with
    | sending =>
      cases stepped
      exact .inl rfl
    | idle | deleting | storing | returned => cases stepped
  | delete texts =>
    cases flush with
    | deleting allowed operation rest completed =>
      have resumed : { state with store := state.store.delete operation.id }.resume (advance texts allowed rest (completed + 1)) =
          (next, later) := Option.some.inj stepped
      have unchanged := acknowledgements_resumed resumed
      exact .inl unchanged
    | idle | sending | storing | returned => cases stepped
  | deleteFails =>
    cases flush with
    | deleting =>
      cases stepped
      exact .inl rfl
    | idle | sending | storing | returned => cases stepped
  | put =>
    cases flush with
    | storing =>
      cases stepped
      exact .inl rfl
    | idle | sending | deleting | returned => cases stepped

/-- What a call at rest can do without beginning again disturbs no other call. -/
theorem step_resting (sound : Sound state) (resting : Resting flush) (waits : ∀ texts allowed, act ≠ .start texts allowed)
    (stepped : step state flush act = some (next, later)) : Resting later ∧ ∀ call, Exact state call → Exact next call := by
  cases act with
  | queue asked now =>
    cases stepped
    exact ⟨resting, fun call exact_ => exact_.queue sound asked now⟩
  | start texts allowed => exact absurd rfl (waits texts allowed)
  | abandon =>
    cases stepped
    exact ⟨trivial, fun call exact_ => exact_⟩
  | confirm | refuse | delete | deleteFails | put =>
    cases flush with
    | idle | returned => cases stepped
    | sending | deleting | storing => exact resting.elim

end Steps

section TakingTurns
variable {world : World State Flush} {who : Nat} {next : State} {later : Flush} {act : Act}

/-- One call at most is under way, and the rows are as it says. -/
structure OneCall (world : World State Flush) : Prop where
  holds : SoundWorld world
  alone : ∃ who, Exact world.state (world.sessions who) ∧ ∀ other, other ≠ who → Resting (world.sessions other)
  once : (acknowledgements world.state.history).Pairwise fun later earlier => earlier < later

theorem oneCall_start : OneCall Offline.start where
  holds := soundWorld_start
  alone := ⟨0, nofun, fun _ _ => trivial⟩
  once := .nil

/-- Where every call has ended. -/
theorem OneCall.settled (one : OneCall world) (resting : ∀ who, Resting (world.sessions who)) : Settled world.state none := by
  obtain ⟨who, exact_, -⟩ := one.alone
  exact exact_.settled (resting who)

theorem OneCall.delivered (one : OneCall world) : DeliveredOnce world where
  once := one.once
  remaining resting operation queued := by
    have delivered := one.holds.sound.delivered
    constructor
    · intro found
      obtain ⟨stored, member, unaltered⟩ := found
      rw [← unaltered.key]
      exact (one.settled resting stored member nofun).1
    · intro unacknowledged
      exact (delivered.kept operation queued).resolve_right unacknowledged
  counted resting stored member := (one.settled resting stored member nofun).2

/-- The call that steps may be taken for the one that is under way, unless another one is. -/
theorem OneCall.own_or_other (one : OneCall world) (inTurn : InTurn world who act) :
    (Exact world.state (world.sessions who) ∧ ∀ other, other ≠ who → Resting (world.sessions other)) ∨
      ∃ current, current ≠ who ∧ Exact world.state (world.sessions current) ∧
        (∀ other, other ≠ current → Resting (world.sessions other)) ∧ ∀ texts allowed, act ≠ .start texts allowed := by
  obtain ⟨current, exact_, others⟩ := one.alone
  by_cases mine : current = who
  · rw [mine] at exact_ others
    exact .inl ⟨exact_, others⟩
  · by_cases resting : Resting (world.sessions current)
    · refine .inl ⟨(exact_.settled resting).exact (others who fun same => mine same.symm), ?_⟩
      intro other _
      by_cases same : other = current
      · rw [same]
        exact resting
      · exact others other same
    · exact .inr ⟨current, mine, exact_, others, fun texts allowed started => resting (inTurn.alone texts allowed started current)⟩

theorem OneCall.acknowledged_once (one : OneCall world)
    (stepped : step world.state (world.sessions who) act = some (next, later))
    (unacknowledged : ∀ allowed operation rest completed, world.sessions who = .sending allowed operation rest completed →
      operation.id ∉ acknowledgements world.state.history) :
    (acknowledgements next.history).Pairwise fun later earlier => earlier < later := by
  rcases acknowledgements_step stepped with same | ⟨allowed, operation, rest, completed, sending, added⟩
  · rw [same]
    exact one.once
  · have ready := one.holds.ready who
    rw [sending] at ready
    have latest := one.holds.sound.latest (ready.1.known operation List.mem_cons_self) (unacknowledged _ _ _ _ sending)
    rw [added]
    exact List.pairwise_cons.mpr ⟨latest, one.once⟩

theorem OneCall.step (one : OneCall world) (stepped : step world.state (world.sessions who) act = some (next, later))
    (inTurn : InTurn world who act) : OneCall (world.move who next later) := by
  have sound := one.holds.sound
  have holds := one.holds.step stepped
  rcases one.own_or_other inTurn with ⟨exact_, others⟩ | ⟨current, different, exact_, others, waits⟩
  · refine ⟨holds, ⟨who, ?_, ?_⟩, ?_⟩
    · rw [World.move_self]
      exact exact_.step sound (one.holds.ready who) inTurn.noted stepped
    · intro other elsewhere
      rw [World.move_other elsewhere]
      exact others other elsewhere
    · apply one.acknowledged_once stepped
      intro allowed operation rest completed sending
      rw [sending] at exact_
      exact (exact_.1 operation (exact_.2 operation List.mem_cons_self) nofun).1
  · have resting := others who fun same => different same.symm
    obtain ⟨rests, kept⟩ := step_resting sound resting waits stepped
    refine ⟨holds, ⟨current, ?_, ?_⟩, ?_⟩
    · rw [World.move_other different]
      exact kept _ exact_
    · intro other elsewhere
      by_cases mine : other = who
      · rw [mine, World.move_self]
        exact rests
      · rw [World.move_other mine]
        exact others other elsewhere
    · apply one.acknowledged_once stepped
      intro allowed operation rest completed sending
      rw [sending] at resting
      exact resting.elim

end TakingTurns

/-- Where the replays take turns and what the server answers is taken down, each operation is acknowledged at most
once, in the order of queueing, and what is left when they have ended is what has no acknowledgement. -/
theorem operations_delivered_once {world : World State Flush} (reached : Reaches ActsInTurn start world) : DeliveredOnce world := by
  have one : OneCall world := by
    apply reached.keeps OneCall oneCall_start
    intro world who state flush one allowed
    obtain ⟨act, stepped, inTurn⟩ := allowed
    exact one.step stepped inTurn
  exact one.delivered

section Samples

def sampleTexts : Texts := ⟨"blocked", "unknown"⟩

def sampleArrival : Operation := ⟨.attendance, 41, .object [("employment_id", .number 41)]⟩

def sampleStatus : Operation := ⟨.dayStatus, 41, .object [("status_scope", .text "attendance")]⟩

def run (world : World State Flush) : List (Nat × Act) → Option (World State Flush)
  | [] => some world
  | (who, act) :: rest => (step world.state (world.sessions who) act).bind fun next => run (world.move who next.1 next.2) rest

theorem run_reached {first world last : World State Flush} {acts : List (Nat × Act)} (reached : Reaches Acts first world)
    (ran : run world acts = some last) : Reaches Acts first last := by
  induction acts generalizing world with
  | nil =>
    cases ran
    exact reached
  | cons pair rest ih =>
    obtain ⟨who, act⟩ := pair
    obtain ⟨⟨state, flush⟩, stepped, ran⟩ := Option.bind_eq_some_iff.mp ran
    exact ih (reached.step who ⟨act, stepped⟩) ran

/-- Two pages replay the queue at once; the second one does not see the answer to its request. -/
def overlapping : List (Nat × Act) :=
  [(0, .queue sampleArrival "08:00"), (0, .queue sampleStatus "09:00"), (0, .start sampleTexts none),
    (1, .start sampleTexts (some [41])), (0, .confirm), (0, .delete sampleTexts), (1, .refuse sampleTexts .other), (1, .put)]

theorem sample_operations_delivered : ∃ world, run start overlapping = some world ∧ Delivered world.state := by
  obtain ⟨world, ran⟩ := Option.isSome_iff_exists.mp (show (run start overlapping).isSome = true by decide)
  exact ⟨world, ran, operations_delivered (run_reached .refl ran)⟩

/-- One page puts back what the other has delivered and deleted, so the server gets it once more. -/
theorem delivered_operation_returns : ∃ world, Reaches Acts start world ∧
    1 ∈ acknowledgements world.state.history ∧ ∃ stored ∈ world.state.store.rows, stored.id = 1 ∧ stored.toOperation = sampleArrival := by
  obtain ⟨world, ran, rows, acknowledged⟩ : ∃ world, run start overlapping = some world ∧
      (world.state.store.rows.get 1).map QueuedOperation.toOperation = some sampleArrival ∧
        acknowledgements world.state.history = [1] := by
    refine ⟨_, rfl, rfl, ?_⟩
    decide
  obtain ⟨stored, found, same⟩ := Option.map_eq_some_iff.mp rows
  obtain ⟨member, key⟩ := Table.get_eq_some_iff.mp found
  exact ⟨world, run_reached .refl ran, by rw [acknowledged]; exact List.mem_singleton_self 1, stored, member, key, same⟩

/-- The answer to the only operation is lost; the next replay delivers it. -/
theorem sample_operations_delivered_once : ∃ world, Reaches ActsInTurn start world ∧ DeliveredOnce world ∧
    acknowledgements world.state.history = [1] ∧ world.state.store.rows.rows = [] := by
  have quiet {state : State} {flush : Flush} (resting : Resting flush) :
      ∀ other, Resting ((start.move 0 state flush).sessions other) :=
    World.forall_move Resting resting fun _ _ => trivial
  have queued := Reaches.step (@Relation.ReflTransGen.refl _ (Moves ActsInTurn) start) 0
    ⟨.queue sampleArrival "08:00", rfl, trivial, nofun⟩
  have started := queued.again ⟨.start sampleTexts none, rfl, trivial, fun _ _ _ => quiet trivial⟩
  have refused := started.again ⟨.refuse sampleTexts (.api "offline" 0), rfl, trivial, nofun⟩
  have noted := refused.again ⟨.put, rfl, trivial, nofun⟩
  have again := noted.again ⟨.start sampleTexts none, rfl, trivial, fun _ _ _ => quiet trivial⟩
  have confirmed := again.again ⟨.confirm, rfl, trivial, nofun⟩
  have deleted := confirmed.again ⟨.delete sampleTexts, rfl, trivial, nofun⟩
  exact ⟨_, deleted, operations_delivered_once deleted, by decide, rfl⟩

end Samples

end Dagmar.Offline.Proofs
