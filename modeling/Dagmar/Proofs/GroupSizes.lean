import Dagmar.EmploymentGroups
import Mathlib.Data.List.Nodup
import Mathlib.Logic.Relation

/-! Every group keeps two members, as long as no account is deleted whose employments
a group needs: the deletion of an employment looks after its groups, the deletion of
an account does not. -/

namespace Dagmar.Groups.Proofs
open Library Library.Outcome

section Safety

def HasTwo (store : GroupStore) (groupId : Int) : Prop :=
  ∃ first ∈ store.members, ∃ second ∈ store.members,
    first.groupId = groupId ∧ second.groupId = groupId ∧ first.employmentId ≠ second.employmentId

def Exists (db : Db) (employmentId : Int) : Prop := ∃ employment ∈ db.employments, employment.id = employmentId

/-- Every group has two members at least, and all of its members exist. -/
def GroupsStay (store : GroupStore) : Prop :=
  ∀ group ∈ store.groups, HasTwo store group.id ∧
    ∀ member ∈ store.members, member.groupId = group.id → Exists store.db member.employmentId

/-- The account does not exist, or every group has two members that are not its employments. -/
def Spares (store : GroupStore) (userId : Int) : Prop :=
  store.db.users.get userId ≠ none → ∀ group ∈ store.groups, ∃ first ∈ store.members, ∃ second ∈ store.members,
    first.groupId = group.id ∧ second.groupId = group.id ∧ first.employmentId ≠ second.employmentId ∧
    first.employmentId ∉ employmentIdsOf store.db userId ∧ second.employmentId ∉ employmentIdsOf store.db userId

/-- The steps that delete an account only where every group spares its employments. -/
inductive SparingStep (zone : Zone) (casing : Casing) (store : GroupStore) : GroupStore → Prop where
  | request (request : GroupRequest) (spares : ∀ userId, request = .deleteUser userId → Spares store userId) :
      SparingStep zone casing store (store.step zone casing request)
  | other (next : Db) (kept : ∀ employment ∈ store.db.employments, ∃ same ∈ next.employments, same.id = employment.id) :
      SparingStep zone casing store { store with db := next }

end Safety

section Members
variable {store next : GroupStore}

/-- The invariant: also a member whose group is gone exists. -/
structure Kept (store : GroupStore) : Prop where
  two : ∀ group ∈ store.groups, HasTwo store group.id
  exist : ∀ member ∈ store.members, Exists store.db member.employmentId

theorem Kept.stay (kept : Kept store) : GroupsStay store :=
  fun group member => ⟨kept.two group member, fun member inside _ => kept.exist member inside⟩

theorem Kept.empty : Kept .empty := by
  refine ⟨fun group member => ?_, fun member inside => ?_⟩
  · exact absurd member (Table.not_mem_empty _)
  · exact absurd inside (Table.not_mem_empty _)

theorem mem_membersOf {groupId : Int} {member : EmploymentGroupMember} :
    member ∈ store.membersOf groupId ↔ member ∈ store.members ∧ member.groupId = groupId := by
  simp [GroupStore.membersOf]

theorem hasTwo_of_length {groupId : Int} (many : ¬ (store.membersOf groupId).length < 2) : HasTwo store groupId := by
  have distinct : (store.membersOf groupId).Nodup := Table.select_nodup ..
  obtain ⟨first, second, rest, shape⟩ : ∃ first second rest, store.membersOf groupId = first :: second :: rest := by
    match found : store.membersOf groupId with
    | [] | [_] => exact absurd (by simp [found]) many
    | first :: second :: rest => exact ⟨first, second, rest, rfl⟩
  have inside (member : EmploymentGroupMember) (listed : member ∈ first :: second :: rest) :=
    mem_membersOf.mp (shape ▸ listed : member ∈ store.membersOf groupId)
  obtain ⟨firstIn, firstOf⟩ := inside first List.mem_cons_self
  obtain ⟨secondIn, secondOf⟩ := inside second (List.mem_cons_of_mem _ List.mem_cons_self)
  refine ⟨first, firstIn, second, secondIn, firstOf, secondOf, fun same => ?_⟩
  have equal : first = second := store.members.key_inj firstIn secondIn (Prod.ext (firstOf.trans secondOf.symm) same)
  rw [shape, equal] at distinct
  simp at distinct

/-- Employments that have been loaded all exist. -/
theorem exists_of_loadEmployments {ids : List Int} (loaded : loadEmployments store ids = .ok ()) :
    ∀ id ∈ ids, Exists store.db id := by
  simp only [loadEmployments, raiseGroupIf, raiseIf_eq_ok, not_not] at loaded
  have found : ((store.db.employments.select (·.id ∈ ids)).map Employment.id).Nodup :=
    store.db.employments.unique.sublist (List.filter_sublist.map _)
  have within : (store.db.employments.select (·.id ∈ ids)).map Employment.id ⊆ ids := by
    intro id member
    obtain ⟨employment, selected, rfl⟩ := List.mem_map.mp member
    exact (Table.mem_select.mp selected).2
  have all := (List.subperm_of_subset found within).perm_of_length_le (by rw [List.length_map, loaded])
  intro id member
  obtain ⟨employment, selected, same⟩ := List.mem_map.mp (all.mem_iff.mpr member)
  exact ⟨employment, (Table.mem_select.mp selected).1, same⟩

theorem normalizeMemberIds_ok {values ids : List Int} (done : normalizeMemberIds values = .ok ids) :
    ids = values ∧ 2 ≤ ids.length ∧ ids.Nodup := by
  simp only [normalizeMemberIds, raiseGroupIf, bind_eq_ok, raiseIf_eq_ok, pure_eq_ok] at done
  obtain ⟨-, long, -, distinct, rfl⟩ := done
  exact ⟨rfl, not_lt.mp long, not_not.mp distinct⟩

theorem addMembers_ok {groupId : Int} {ids : List Int} (done : addMembers store groupId ids = .ok next) :
    next.db = store.db ∧ next.groups = store.groups ∧
      ∀ member, member ∈ next.members ↔ member ∈ store.members ∨ member.groupId = groupId ∧ member.employmentId ∈ ids := by
  simp only [addMembers, bind_eq_ok, require_eq_ok, pure_eq_ok] at done
  obtain ⟨members, inserted, rfl⟩ := done
  refine ⟨rfl, rfl, fun member => ?_⟩
  rw [Table.mem_insertAll inserted, List.mem_map]
  refine or_congr_right ⟨?_, ?_⟩
  · rintro ⟨id, listed, rfl⟩
    exact ⟨rfl, listed⟩
  · rintro ⟨rfl, listed⟩
    exact ⟨_, listed, rfl⟩

/-- Two of the employments that become members of a group. -/
theorem Kept.addMembers {groupId : Int} {ids : List Int} (done : addMembers store groupId ids = .ok next)
    (two : ∀ group ∈ store.groups, group.id ≠ groupId → HasTwo store group.id)
    (exist : ∀ member ∈ store.members, Exists store.db member.employmentId) (long : 2 ≤ ids.length) (distinct : ids.Nodup)
    (loaded : ∀ id ∈ ids, Exists store.db id) : Kept next := by
  obtain ⟨db, groups, members⟩ := addMembers_ok done
  refine ⟨fun group inside => ?_, fun member inside => ?_⟩
  · by_cases mine : group.id = groupId
    · match ids, long with
      | first :: second :: rest, _ =>
        refine ⟨⟨groupId, first⟩, (members _).mpr (.inr ⟨rfl, by simp⟩), ⟨groupId, second⟩, (members _).mpr (.inr ⟨rfl, by simp⟩),
          mine.symm, mine.symm, ?_⟩
        rintro rfl
        simp at distinct
    · obtain ⟨first, left, second, right, pair⟩ := two group (groups ▸ inside) mine
      exact ⟨first, (members _).mpr (.inl left), second, (members _).mpr (.inl right), pair⟩
  · rw [db]
    rcases (members member).mp inside with old | ⟨-, new⟩
    · exact exist member old
    · exact loaded _ new

theorem mem_withoutMembers {groupId : Int} {ids : List Int} {member : EmploymentGroupMember} :
    member ∈ (store.withoutMembers groupId ids).members ↔
      member ∈ store.members ∧ ¬ (member.groupId = groupId ∧ member.employmentId ∈ ids) := by
  simp [GroupStore.withoutMembers]

theorem mem_deleteGroup {groupId : Int} {member : EmploymentGroupMember} :
    member ∈ (store.deleteGroup groupId).members ↔ member ∈ store.members ∧ member.groupId ≠ groupId := by
  simp [GroupStore.deleteGroup]

theorem Kept.deleteGroup {groupId : Int} (two : ∀ group ∈ store.groups, group.id ≠ groupId → HasTwo store group.id)
    (exist : ∀ member ∈ store.members, Exists store.db member.employmentId) : Kept (store.deleteGroup groupId) := by
  refine ⟨fun group inside => ?_, fun member inside => exist member (mem_deleteGroup.mp inside).1⟩
  obtain ⟨member, other⟩ := Table.mem_deleteWhere.mp inside
  obtain ⟨first, left, second, right, one, two, apart⟩ := two group member other
  exact ⟨first, mem_deleteGroup.mpr ⟨left, one ▸ other⟩, second, mem_deleteGroup.mpr ⟨right, two ▸ other⟩, one, two, apart⟩

end Members

section Services
variable {casing : Casing} {store next : GroupStore}

theorem getGroup_ok {groupId : Int} {group : EmploymentGroup} (done : getGroup store groupId = .ok group) :
    group ∈ store.groups ∧ group.id = groupId := by
  simp only [getGroup, require_eq_ok] at done
  exact Table.get_eq_some_iff.mp done

theorem writeGroup_ok {group : EmploymentGroup} (done : writeGroup casing store group = .ok next) :
    next = { store with groups := store.groups.put group } := by
  simp only [writeGroup, bind_eq_ok, raiseIf_eq_ok, pure_eq_ok] at done
  obtain ⟨-, -, rfl⟩ := done
  rfl

theorem Kept.createGroup (kept : Kept store) {name : String} {memberIds : List Int}
    (done : createGroup casing store name memberIds = .ok next) : Kept next := by
  simp only [Groups.createGroup, bind_eq_ok] at done
  obtain ⟨name, -, ids, normal, _, -, _, loaded, written, wrote, added⟩ := done
  obtain ⟨-, long, distinct⟩ := normalizeMemberIds_ok normal
  cases writeGroup_ok wrote
  refine Kept.addMembers added (fun group inside other => ?_) kept.exist long distinct (exists_of_loadEmployments loaded)
  rcases Table.mem_put.mp inside with rfl | ⟨old, -⟩
  · exact absurd rfl other
  · exact kept.two group old

theorem Kept.replaceMembers (kept : Kept store) {groupId : Int} {memberIds : List Int}
    (done : replaceMembers store groupId memberIds = .ok next) : Kept next := by
  simp only [Groups.replaceMembers, bind_eq_ok] at done
  obtain ⟨ids, normal, group, -, _, loaded, added⟩ := done
  obtain ⟨-, long, distinct⟩ := normalizeMemberIds_ok normal
  refine Kept.addMembers added (fun other inside different => ?_) (fun member inside => ?_) long distinct
    (exists_of_loadEmployments loaded)
  · obtain ⟨first, left, second, right, one, two, apart⟩ := kept.two other inside
    exact ⟨first, Table.mem_deleteWhere.mpr ⟨left, one ▸ different⟩, second, Table.mem_deleteWhere.mpr ⟨right, two ▸ different⟩,
      one, two, apart⟩
  · exact kept.exist member (Table.mem_deleteWhere.mp inside).1

theorem Kept.renameGroup (kept : Kept store) {groupId : Int} {name : String}
    (done : renameGroup casing store groupId name = .ok next) : Kept next := by
  simp only [Groups.renameGroup, bind_eq_ok] at done
  obtain ⟨group, got, name, -, -, -, wrote⟩ := done
  cases writeGroup_ok wrote
  refine ⟨fun other inside => ?_, kept.exist⟩
  rcases Table.mem_put.mp inside with rfl | ⟨old, -⟩
  · exact kept.two group (getGroup_ok got).1
  · exact kept.two other old

/-- Members that go leave two behind, or take their group with them. -/
theorem Kept.removeMembers (kept : Kept store) {groupId : Int} {memberIds : List Int} {gone : Bool}
    (done : Groups.removeMembers store groupId memberIds = .ok (next, gone)) :
    Kept next ∧ next.db = store.db ∧ ∀ member ∈ next.members,
      member ∈ store.members ∧ ¬ (member.groupId = groupId ∧ member.employmentId ∈ memberIds) := by
  simp only [Groups.removeMembers, bind_eq_ok] at done
  obtain ⟨group, got, -, -, done⟩ := done
  obtain ⟨-, rfl⟩ := getGroup_ok got
  have others : ∀ other ∈ store.groups, other.id ≠ group.id → HasTwo (store.withoutMembers group.id memberIds) other.id := by
    intro other inside different
    obtain ⟨first, left, second, right, one, two, apart⟩ := kept.two other inside
    exact ⟨first, mem_withoutMembers.mpr ⟨left, fun same => different (one.symm.trans same.1)⟩,
      second, mem_withoutMembers.mpr ⟨right, fun same => different (two.symm.trans same.1)⟩, one, two, apart⟩
  have exist : ∀ member ∈ (store.withoutMembers group.id memberIds).members,
      Exists (store.withoutMembers group.id memberIds).db member.employmentId :=
    fun member inside => kept.exist member (mem_withoutMembers.mp inside).1
  split_ifs at done with few
  · cases done
    exact ⟨Kept.deleteGroup others exist, rfl, fun member inside => mem_withoutMembers.mp (mem_deleteGroup.mp inside).1⟩
  · cases done
    refine ⟨⟨fun other inside => ?_, exist⟩, rfl, fun member inside => mem_withoutMembers.mp inside⟩
    by_cases mine : other.id = group.id
    · rw [mine]
      exact hasTwo_of_length few
    · exact others other inside mine

theorem Kept.removeGroups {groupIds : List Int} {employmentId : Int} (kept : Kept store)
    (listed : ∀ member ∈ store.members, member.employmentId = employmentId → member.groupId ∈ groupIds)
    (done : groupIds.foldlM (fun store groupId => Prod.fst <$> Groups.removeMembers store groupId [employmentId]) store = .ok next) :
    Kept next ∧ next.db = store.db ∧ ∀ member ∈ next.members, member.employmentId ≠ employmentId := by
  induction groupIds generalizing store with
  | nil =>
    rw [List.foldlM_nil, pure_eq_ok] at done
    subst done
    exact ⟨kept, rfl, fun member inside same => absurd (listed member inside same) List.not_mem_nil⟩
  | cons groupId groupIds ih =>
    rw [List.foldlM_cons, bind_eq_ok] at done
    obtain ⟨removed, first, rest⟩ := done
    obtain ⟨⟨left, gone⟩, turned, rfl⟩ := map_eq_ok.mp first
    obtain ⟨keptNow, db, members⟩ := kept.removeMembers turned
    have listedNow : ∀ member ∈ left.members, member.employmentId = employmentId → member.groupId ∈ groupIds := by
      intro member inside same
      obtain ⟨old, other⟩ := members member inside
      exact (List.mem_cons.mp (listed member old same)).resolve_left fun here => other ⟨here, List.mem_singleton.mpr same⟩
    obtain ⟨keptLast, dbLast, without⟩ := ih keptNow listedNow rest
    exact ⟨keptLast, dbLast.trans db, without⟩

/-- An employment leaves all its groups before it is deleted. -/
theorem Kept.removeGroupsForEmployment (kept : Kept store) {employmentId : Int}
    (done : Groups.removeGroupsForEmployment store employmentId = .ok next) :
    Kept next ∧ next.db = store.db ∧ ∀ member ∈ next.members, member.employmentId ≠ employmentId := by
  refine kept.removeGroups (fun member inside same => ?_) done
  exact List.mem_map.mpr ⟨member, Table.mem_select.mpr ⟨inside, same⟩, rfl⟩

end Services

section Deletion
variable {store next : GroupStore}

theorem mem_deleteEmployments {ids : List Int} {member : EmploymentGroupMember} :
    member ∈ (store.deleteEmployments ids).members ↔ member ∈ store.members ∧ member.employmentId ∉ ids := by
  simp [GroupStore.deleteEmployments]

theorem exists_deleteEmployments {ids : List Int} {id : Int} :
    Exists (store.deleteEmployments ids).db id ↔ Exists store.db id ∧ id ∉ ids := by
  simp only [Exists, GroupStore.deleteEmployments, Table.mem_deleteWhere]
  constructor
  · rintro ⟨employment, ⟨member, kept⟩, rfl⟩
    exact ⟨⟨employment, member, rfl⟩, kept⟩
  · rintro ⟨⟨employment, member, rfl⟩, kept⟩
    exact ⟨employment, ⟨member, kept⟩, rfl⟩

/-- The members that stay exist; two of each group stay exactly if they were not deleted. -/
theorem Kept.deleteEmployments (kept : Kept store) {ids : List Int}
    (two : ∀ group ∈ store.groups, HasTwo (store.deleteEmployments ids) group.id) : Kept (store.deleteEmployments ids) := by
  refine ⟨two, fun member inside => ?_⟩
  obtain ⟨old, stays⟩ := mem_deleteEmployments.mp inside
  exact exists_deleteEmployments.mpr ⟨kept.exist member old, stays⟩

theorem Kept.deleteEmployment (kept : Kept store) {zone : Zone} {employmentId : Int} {confirm : Bool}
    (done : deleteEmployment zone store employmentId confirm = .ok next) : Kept next := by
  simp only [Groups.deleteEmployment, bind_eq_ok, mapError_eq_ok, pure_eq_ok] at done
  obtain ⟨-, -, employment, -, -, -, removed, left, rfl⟩ := done
  obtain ⟨keptNow, -, without⟩ := kept.removeGroupsForEmployment left
  refine keptNow.deleteEmployments fun group inside => ?_
  obtain ⟨first, left, second, right, pair⟩ := keptNow.two group inside
  have stays {member : EmploymentGroupMember} (inside : member ∈ removed.members) :
      member ∈ (removed.deleteEmployments [employment.id]).members :=
    mem_deleteEmployments.mpr ⟨inside, fun listed => without member inside (List.mem_singleton.mp listed)⟩
  exact ⟨first, stays left, second, stays right, pair⟩

/-- Deleting an account keeps the groups exactly when they spare its employments. -/
theorem Kept.deleteUser (kept : Kept store) {userId : Int} (done : deleteUser store userId = .ok next) :
    (Spares store userId → Kept next) ∧ (GroupsStay next → Spares store userId) := by
  simp only [Groups.deleteUser, bind_eq_ok, require_eq_ok, pure_eq_ok] at done
  obtain ⟨user, got, rfl⟩ := done
  obtain ⟨-, rfl⟩ := Table.get_eq_some_iff.mp got
  refine ⟨fun spares => ?_, fun stay _ group inside => ?_⟩
  · have keptNow : Kept (store.deleteEmployments (employmentIdsOf store.db user.id)) := by
      refine kept.deleteEmployments fun group inside => ?_
      obtain ⟨first, left, second, right, one, two, apart, stays, staysToo⟩ := spares (by simp [got]) group inside
      exact ⟨first, mem_deleteEmployments.mpr ⟨left, stays⟩, second, mem_deleteEmployments.mpr ⟨right, staysToo⟩, one, two, apart⟩
    exact ⟨keptNow.two, keptNow.exist⟩
  · obtain ⟨first, left, second, right, one, two, apart⟩ := (stay group inside).1
    obtain ⟨old, stays⟩ := mem_deleteEmployments.mp left
    obtain ⟨oldToo, staysToo⟩ := mem_deleteEmployments.mp right
    exact ⟨first, old, second, oldToo, one, two, apart, stays, staysToo⟩

end Deletion

section Runs
variable {zone : Zone} {casing : Casing} {store next : GroupStore}

theorem Kept.handle (kept : Kept store) {request : GroupRequest}
    (spares : ∀ userId, request = .deleteUser userId → Spares store userId)
    (done : request.handle zone casing store = .ok next) : Kept next := by
  cases request with
  | createGroup name employmentIds =>
    simp only [GroupRequest.handle, bind_eq_ok, mapError_eq_ok] at done
    obtain ⟨-, -, -, -, done⟩ := done
    exact kept.createGroup done
  | renameGroup groupId name =>
    simp only [GroupRequest.handle, bind_eq_ok, mapError_eq_ok] at done
    obtain ⟨-, -, done⟩ := done
    exact kept.renameGroup done
  | replaceMembers groupId employmentIds =>
    simp only [GroupRequest.handle, bind_eq_ok, mapError_eq_ok] at done
    obtain ⟨-, -, done⟩ := done
    exact kept.replaceMembers done
  | removeMembers groupId employmentIds =>
    simp only [GroupRequest.handle, bind_eq_ok, map_eq_ok, mapError_eq_ok] at done
    obtain ⟨-, -, ⟨left, gone⟩, done, rfl⟩ := done
    exact (kept.removeMembers done).1
  | deleteGroup groupId =>
    simp only [GroupRequest.handle, bind_eq_ok, mapError_eq_ok, pure_eq_ok] at done
    obtain ⟨group, -, rfl⟩ := done
    exact Kept.deleteGroup (fun other inside _ => kept.two other inside) kept.exist
  | deleteEmployment employmentId confirm => exact kept.deleteEmployment done
  | deleteUser userId => exact (kept.deleteUser done).1 (spares userId rfl)

theorem Kept.step (kept : Kept store) (step : SparingStep zone casing store next) : Kept next := by
  cases step with
  | request request spares =>
    unfold GroupStore.step
    split
    next done => exact kept.handle spares done
    next => exact kept
  | other db same =>
    refine ⟨kept.two, fun member inside => ?_⟩
    obtain ⟨employment, there, named⟩ := kept.exist member inside
    obtain ⟨now, stored, alike⟩ := same employment there
    exact ⟨now, stored, alike.trans named⟩

/-- In a run that deletes no account whose employments a group needs, all groups stay; and in the
states of such a run, an account may be deleted exactly when no group needs its employments. -/
theorem groups_stay (zone : Zone) (casing : Casing) {store : GroupStore}
    (reached : Relation.ReflTransGen (SparingStep zone casing) .empty store) :
    GroupsStay store ∧ ∀ userId, GroupsStay (store.step zone casing (.deleteUser userId)) ↔ Spares store userId := by
  have kept : Kept store := by
    induction reached with
    | refl => exact .empty
    | tail _ step ih => exact ih.step step
  refine ⟨kept.stay, fun userId => ?_⟩
  unfold GroupStore.step
  cases done : GroupRequest.handle zone casing store (.deleteUser userId) with
  | ok next =>
    obtain ⟨keeps, needs⟩ := kept.deleteUser done
    exact ⟨needs, fun spares => (keeps spares).stay⟩
  | error raised =>
    refine iff_of_true kept.stay fun found => ?_
    obtain ⟨user, got⟩ := Option.ne_none_iff_exists'.mp found
    simp [GroupRequest.handle, Groups.deleteUser, got, require] at done

end Runs

section Samples

def winter : Zone := pragueSpring march2026 march2026_evening

def sampleCasing : Casing := ⟨fun text => String.ofList (text.toList.map Char.toLower), fun text => String.ofList (text.toList.map Char.toLower)⟩

/-- Account 1 has two employments and account 2 has one. -/
def staff : Db :=
  Db.blank ⟨[⟨1, true, none⟩, ⟨2, true, none⟩], by decide⟩
    ⟨[⟨1, 1, .dppDpc, {}, 739617, none⟩, ⟨2, 1, .dppDpc, {}, 739617, none⟩, ⟨3, 2, .dppDpc, {}, 739617, none⟩], by decide⟩ 4

def grouped (employmentIds : List Int) : GroupStore :=
  { GroupStore.empty with db := staff }.step winter sampleCasing (.createGroup " Noc " employmentIds)

theorem staff_kept : ∀ employment ∈ GroupStore.empty.db.employments, ∃ same ∈ staff.employments, same.id = employment.id :=
  fun _ member => absurd member (Table.not_mem_empty _)

/-- A group of all three employments spares the one of account 2. -/
theorem sample_groups_stay :
    Relation.ReflTransGen (SparingStep winter sampleCasing) .empty (grouped [1, 2, 3]) ∧
      (grouped [1, 2, 3]).members.rows = [⟨1, 1⟩, ⟨1, 2⟩, ⟨1, 3⟩] ∧ GroupsStay (grouped [1, 2, 3]) ∧
      GroupsStay ((grouped [1, 2, 3]).step winter sampleCasing (.deleteUser 2)) := by
  have staffed : SparingStep winter sampleCasing .empty { GroupStore.empty with db := staff } := .other staff staff_kept
  have created : SparingStep winter sampleCasing { GroupStore.empty with db := staff } (grouped [1, 2, 3]) := .request _ (by simp)
  have reached := (Relation.ReflTransGen.single staffed).tail created
  have groups : (grouped [1, 2, 3]).groups.rows = [⟨1, "Noc"⟩] := by decide +kernel
  have members : (grouped [1, 2, 3]).members.rows = [⟨1, 1⟩, ⟨1, 2⟩, ⟨1, 3⟩] := by decide +kernel
  have owned : employmentIdsOf (grouped [1, 2, 3]).db 2 = [3] := by decide +kernel
  obtain ⟨stay, deletes⟩ := groups_stay winter sampleCasing reached
  refine ⟨reached, members, stay, (deletes 2).mpr fun _ group inside => ?_⟩
  rw [Table.mem_def, groups, List.mem_singleton] at inside
  subst inside
  have member (id : Int) (listed : id ∈ ([1, 2, 3] : List Int)) : (⟨1, id⟩ : EmploymentGroupMember) ∈ (grouped [1, 2, 3]).members := by
    rw [Table.mem_def, members]
    exact List.mem_map_of_mem listed
  exact ⟨⟨1, 1⟩, member 1 (by decide), ⟨1, 2⟩, member 2 (by decide), rfl, rfl, by decide, by rw [owned]; decide, by rw [owned]; decide⟩

/-- The deletion of account 1 leaves its group one member. -/
theorem group_halved : ∃ store, Relation.ReflTransGen (GroupStep winter sampleCasing) .empty store ∧
    store.groups.rows = [⟨1, "Noc"⟩] ∧ store.members.rows = [⟨1, 3⟩] ∧ ¬ GroupsStay store := by
  have staffed : GroupStep winter sampleCasing .empty { GroupStore.empty with db := staff } := .other staff staff_kept
  have created : GroupStep winter sampleCasing { GroupStore.empty with db := staff } (grouped [1, 3]) := .request _
  have deleted : GroupStep winter sampleCasing (grouped [1, 3]) ((grouped [1, 3]).step winter sampleCasing (.deleteUser 1)) :=
    .request _
  have groups : ((grouped [1, 3]).step winter sampleCasing (.deleteUser 1)).groups.rows = [⟨1, "Noc"⟩] := by decide +kernel
  have members : ((grouped [1, 3]).step winter sampleCasing (.deleteUser 1)).members.rows = [⟨1, 3⟩] := by decide +kernel
  refine ⟨_, ((Relation.ReflTransGen.single staffed).tail created).tail deleted, groups, members, fun stay => ?_⟩
  have group : (⟨1, "Noc"⟩ : EmploymentGroup) ∈ ((grouped [1, 3]).step winter sampleCasing (.deleteUser 1)).groups := by
    rw [Table.mem_def, groups]
    exact List.mem_singleton_self _
  obtain ⟨first, left, second, right, -, -, apart⟩ := (stay _ group).1
  rw [Table.mem_def, members, List.mem_singleton] at left right
  exact apart (by rw [left, right])

end Samples

end Dagmar.Groups.Proofs
