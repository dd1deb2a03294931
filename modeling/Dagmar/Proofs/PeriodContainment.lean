import Dagmar.Proofs.Transitions

/-! Along every run, what is recorded about an employment lies in its period, and
its locks and selections are for months the period overlaps. -/

namespace Dagmar.Proofs
open Library Library.Calendar Library.Outcome

/-- The employment is stored and the day lies in its period. -/
def DayFits (db : Db) (employmentId date : Int) : Prop :=
  ∃ employment, db.employments.get employmentId = some employment ∧ employmentIsValidOnDay employment date

structure FactsContained (db : Db) : Prop where
  events : ∀ event ∈ db.events, DayFits db event.employmentId event.occurredAt.date
  attendance : ∀ row ∈ db.attendance, DayFits db row.employmentId row.date
  plans : ∀ plan ∈ db.shiftPlans, DayFits db plan.employmentId plan.date

structure MonthsContained (db : Db) : Prop where
  locks : ∀ lockType, ∀ row ∈ db.locks lockType, MonthFits db row.employmentId row.year row.month
  selections : ∀ row ∈ db.monthInstances, MonthFits db row.employmentId row.year row.month

section Employments
variable {db next : Db} {employmentId : Int}

/-- Whoever knew the employments of a database knows those of one that stores them alike. -/
theorem DayFits.of_get {date : Int} (same : next.employments.get employmentId = db.employments.get employmentId)
    (fits : DayFits db employmentId date) : DayFits next employmentId date := by
  obtain ⟨employment, stored, valid⟩ := fits
  exact ⟨employment, same.trans stored, valid⟩

theorem MonthFits.of_get {year : Int} {month : Nat}
    (same : next.employments.get employmentId = db.employments.get employmentId)
    (fits : MonthFits db employmentId year month) : MonthFits next employmentId year month := by
  obtain ⟨employment, stored, overlaps⟩ := fits
  exact ⟨employment, same.trans stored, overlaps⟩

theorem hired_get {employment : Employment} (fresh : db.employments.get employment.id = none)
    (members : ∀ row, row ∈ next.employments ↔ row ∈ db.employments ∨ row = employment)
    (known : db.employments.get employmentId ≠ none) :
    next.employments.get employmentId = db.employments.get employmentId := by
  apply Table.get_congr
  intro row same
  rw [members]
  apply or_iff_left
  rintro rfl
  rw [same] at fresh
  exact known fresh

theorem DayFits.known {date : Int} (fits : DayFits db employmentId date) : db.employments.get employmentId ≠ none := by
  obtain ⟨employment, stored, -⟩ := fits
  simp [stored]

theorem MonthFits.known {year : Int} {month : Nat} (fits : MonthFits db employmentId year month) :
    db.employments.get employmentId ≠ none := by
  obtain ⟨employment, stored, -⟩ := fits
  simp [stored]

theorem revised_get {flushed : Db} {employment updated : Employment} (revision : Revision db flushed employment updated) :
    flushed.employments.get employmentId =
      if employment.id = employmentId then some updated else db.employments.get employmentId := by
  rw [revision.frame]
  simp only [Table.get_put, revision.sameId]

end Employments

section Steps
variable {zone : Zone} {clock : Clock} {db next : Db} {writes : List Timestamp}

theorem EventsChanged.contained {employment : Employment} (changed : EventsChanged zone clock db next writes employment)
    (placed : ∀ time ∈ writes, Placed zone time) (contained : FactsContained db) : FactsContained next := by
  have employments : next.employments = db.employments := by rw [changed.frame]
  have attendance : next.attendance = db.attendance := by rw [changed.frame]
  have plans : next.shiftPlans = db.shiftPlans := by rw [changed.frame]
  have same (id : Int) : next.employments.get id = db.employments.get id := by rw [employments]
  refine ⟨?_, ?_, ?_⟩
  · intro event member
    by_cases kept : event ∈ db.events
    · exact (contained.events event kept).of_get (same _)
    · obtain ⟨owner, time, written, read, -, -, given⟩ := changed.added event member kept
      have valid : employmentIsValidOnDay employment time.date := by
        rcases given with valid | ⟨other, held, owned, today⟩
        · exact valid
        · obtain ⟨another, stored, valid⟩ := contained.events other held
          rw [owned] at stored
          obtain rfl : employment = another := Option.some.inj (changed.stored.symm.trans stored)
          exact today ▸ valid
      refine ⟨employment, ?_, ?_⟩
      · rw [same, owner]
        exact changed.stored
      · rw [read]
        exact (placed time written).valid changed.active.1 valid
  · intro row member
    exact (contained.attendance row (attendance ▸ member)).of_get (same _)
  · intro plan member
    exact (contained.plans plan (plans ▸ member)).of_get (same _)

theorem DayFlush.contained {flushed : Db} {employment : Employment} {date : Int}
    (flush : DayFlush zone clock db flushed employment date) (contained : FactsContained db) : FactsContained flushed := by
  have same (id : Int) : flushed.employments.get id = db.employments.get id := by rw [flush.frame]
  have today (owner day : Int) (key : (owner, day) = (employment.id, date)) : DayFits flushed owner day := by
    obtain ⟨rfl, rfl⟩ := Prod.mk.inj key
    exact ⟨employment, (same _).trans flush.stored, flush.valid⟩
  refine ⟨?_, ?_, ?_⟩
  · intro event member
    exact (contained.events event (flush.events event member)).of_get (same _)
  · intro row member
    by_cases key : row.key = (employment.id, date)
    · exact today _ _ key
    · exact (contained.attendance row ((flush.attendance row key).mp member)).of_get (same _)
  · intro plan member
    by_cases key : plan.key = (employment.id, date)
    · exact today _ _ key
    · exact (contained.plans plan ((flush.plans plan key).mp member)).of_get (same _)

theorem Revision.contained {flushed : Db} {employment updated : Employment}
    (revision : Revision db flushed employment updated) (contained : FactsContained db) : FactsContained flushed := by
  have fits (owner date : Int) (old : DayFits db owner date)
      (revised : owner = employment.id → employmentIsValidOnDay updated date) : DayFits flushed owner date := by
    by_cases same : employment.id = owner
    · exact ⟨updated, by rw [revised_get revision, if_pos same], revised same.symm⟩
    · exact old.of_get (by rw [revised_get revision, if_neg same])
  refine ⟨?_, ?_, ?_⟩
  · intro event member
    obtain ⟨held, revised⟩ := revision.events event member
    exact fits _ _ (contained.events event held) revised
  · intro row member
    obtain ⟨held, revised⟩ := revision.attendance row member
    exact fits _ _ (contained.attendance row held) revised
  · intro plan member
    obtain ⟨held, revised⟩ := revision.plans plan member
    exact fits _ _ (contained.plans plan held) revised

theorem Revision.monthsContained {flushed : Db} {employment updated : Employment}
    (revision : Revision db flushed employment updated) (contained : MonthsContained db) : MonthsContained flushed := by
  have fits (owner year : Int) (month : Nat) (old : MonthFits db owner year month)
      (revised : owner = employment.id → employmentOverlapsMonth updated (firstDay year month) (firstDay year (month + 1))) :
      MonthFits flushed owner year month := by
    by_cases same : employment.id = owner
    · exact ⟨updated, by rw [revised_get revision, if_pos same], revised same.symm⟩
    · exact old.of_get (by rw [revised_get revision, if_neg same])
  refine ⟨?_, ?_⟩
  · intro lockType row member
    obtain ⟨held, revised⟩ := revision.locks lockType row member
    exact fits _ _ _ (contained.locks lockType row held) revised
  · intro row member
    obtain ⟨held, revised⟩ := revision.selections row member
    exact fits _ _ _ (contained.selections row held) revised

theorem FactsContained.of_tables (contained : FactsContained db)
    (employments : ∀ id, db.employments.get id ≠ none → next.employments.get id = db.employments.get id)
    (events : next.events = db.events) (attendance : next.attendance = db.attendance)
    (plans : next.shiftPlans = db.shiftPlans) : FactsContained next := by
  refine ⟨?_, ?_, ?_⟩
  · intro event member
    have old := contained.events event (events ▸ member)
    exact old.of_get (employments _ old.known)
  · intro row member
    have old := contained.attendance row (attendance ▸ member)
    exact old.of_get (employments _ old.known)
  · intro plan member
    have old := contained.plans plan (plans ▸ member)
    exact old.of_get (employments _ old.known)

theorem MonthsContained.of_tables (contained : MonthsContained db)
    (employments : ∀ id, db.employments.get id ≠ none → next.employments.get id = db.employments.get id)
    (locks : ∀ lockType, next.locks lockType = db.locks lockType)
    (selections : next.monthInstances = db.monthInstances) : MonthsContained next := by
  refine ⟨?_, ?_⟩
  · intro lockType row member
    have old := contained.locks lockType row (locks lockType ▸ member)
    exact old.of_get (employments _ old.known)
  · intro row member
    have old := contained.selections row (selections ▸ member)
    exact old.of_get (employments _ old.known)

theorem Transition.factsContained (rested : Rested zone db) (placed : ∀ time ∈ writes, Placed zone time)
    (contained : FactsContained db) (transition : Transition zone clock db next writes) : FactsContained next := by
  cases transition with
  | facts changed =>
    cases changed with
    | nothing same => exact same ▸ contained
    | events committed =>
      obtain ⟨employment, changed, -⟩ := committed.changed rested
      exact changed.contained placed contained
    | day committed =>
      obtain ⟨employment, date, flushed, flush, frame, -⟩ := committed.changed rested
      rw [frame]
      exact (flush.contained contained).of_tables (fun _ _ => rfl) rfl rfl rfl
  | months committed =>
    have flush := committed.changed rested
    rw [flush.frame]
    exact contained.of_tables (fun _ _ => rfl) rfl rfl rfl
  | hired committed =>
    obtain ⟨employment, fresh, frame, members⟩ := committed.changed rested
    refine contained.of_tables (fun id known => hired_get fresh members known) ?_ ?_ ?_
    · rw [frame]
    · rw [frame]
    · rw [frame]
  | revised committed =>
    obtain ⟨employment, updated, flushed, revision, frame, -⟩ := committed.changed rested
    rw [frame]
    exact (revision.contained contained).of_tables (fun _ _ => rfl) rfl rfl rfl

theorem Transition.monthsContained (rested : Rested zone db) (contained : MonthsContained db)
    (transition : Transition zone clock db next writes) : MonthsContained next := by
  cases transition with
  | facts changed =>
    cases changed with
    | nothing same => exact same ▸ contained
    | events committed =>
      obtain ⟨employment, changed, -⟩ := committed.changed rested
      rw [changed.frame]
      exact contained.of_tables (fun _ _ => rfl) (fun lockType => by cases lockType <;> rfl) rfl
    | day committed =>
      obtain ⟨employment, date, flushed, flush, frame, -⟩ := committed.changed rested
      rw [frame, flush.frame]
      exact contained.of_tables (fun _ _ => rfl) (fun lockType => by cases lockType <;> rfl) rfl
  | months committed =>
    have flush := committed.changed rested
    have same (id : Int) : next.employments.get id = db.employments.get id := by rw [flush.frame]
    refine ⟨?_, ?_⟩
    · intro lockType row member
      rcases flush.locks lockType row member with old | new
      · exact (contained.locks lockType row old).of_get (same _)
      · exact new.1.of_get (same _)
    · intro row member
      rcases flush.selections row member with old | new
      · exact (contained.selections row old).of_get (same _)
      · exact new.of_get (same _)
  | hired committed =>
    obtain ⟨employment, fresh, frame, members⟩ := committed.changed rested
    refine contained.of_tables (fun id known => hired_get fresh members known) ?_ ?_
    · intro lockType
      rw [frame]
      cases lockType <;> rfl
    · rw [frame]
  | revised committed =>
    obtain ⟨employment, updated, flushed, revision, frame, -⟩ := committed.changed rested
    rw [frame]
    exact (revision.monthsContained contained).of_tables (fun _ _ => rfl) (fun lockType => by cases lockType <;> rfl) rfl

end Steps

/-- Events read as their instants and every fact lies in its employment's period: every request keeps this. -/
theorem facts_step {zone : Zone} {db next : Db} {call : Call} (holds : Rested zone db ∧ FactsContained db)
    (done : call.request.handle zone call.clock db = .ok next) : Rested zone next ∧ FactsContained next := by
  have transition := transition_of_handle done
  exact ⟨transition.rested holds.1, transition.factsContained holds.1 (placed_writes zone db call.request) holds.2⟩

theorem blank_contained (zone : Zone) (users : Table PortalUser PortalUser.id)
    (employments : Table Employment Employment.id) (nextEmploymentId : Int) :
    (Rested zone (Db.blank users employments nextEmploymentId) ∧
      FactsContained (Db.blank users employments nextEmploymentId)) ∧
      MonthsContained (Db.blank users employments nextEmploymentId) := by
  refine ⟨⟨?_, ?_, ?_, ?_⟩, ?_, ?_⟩
  · intro event member
    cases member
  · intro event member
    cases member
  · intro row member
    cases member
  · intro plan member
    cases member
  · intro lockType row member
    cases lockType <;> cases member
  · intro row member
    cases member

/-- In every state that a run of requests reaches from a database without records,
each fact lies in the current period of its employment, and each lock and each
selection is for a month that this period overlaps. -/
theorem run_period_containment (zone : Zone) (users : Table PortalUser PortalUser.id)
    (employments : Table Employment Employment.id) (nextEmploymentId : Int) (calls : List Call) :
    FactsContained (run zone (Db.blank users employments nextEmploymentId) calls) ∧
      MonthsContained (run zone (Db.blank users employments nextEmploymentId) calls) := by
  have start := blank_contained zone users employments nextEmploymentId
  have invariant : (Rested zone (run zone (Db.blank users employments nextEmploymentId) calls) ∧
      FactsContained (run zone (Db.blank users employments nextEmploymentId) calls)) ∧
        MonthsContained (run zone (Db.blank users employments nextEmploymentId) calls) := by
    refine run_always (fun db => (Rested zone db ∧ FactsContained db) ∧ MonthsContained db) start ?_
    intro db call next holds done
    exact ⟨facts_step holds.1 done, (transition_of_handle done).monthsContained holds.1.1 holds.2⟩
  exact ⟨invariant.1.2, invariant.2⟩

end Dagmar.Proofs
