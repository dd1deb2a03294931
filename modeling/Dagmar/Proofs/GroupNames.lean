import Dagmar.GroupDirectory
import Dagmar.Library.Wrapping
import Dagmar.Proofs.ExportedFacts
import Dagmar.Proofs.GroupSizes

/-! Groups have names of their own, and their members exist, whatever is created, renamed and
deleted; so the administration can always list them. -/

namespace Dagmar.Groups.Proofs
open Library Library.Outcome Integration Payloads

section Names

theorem toList_joinWords (value : String) :
    (joinWords value).toList = [' '].intercalate (Wrapping.words isSpace value.toList) := by
  have plain (word : List Char) : (decide (word ≠ [])) = ! word.isEmpty := by cases word <;> rfl
  simp only [joinWords, String.toList_intercalate, List.map_map, Wrapping.words, plain]
  congr 1
  exact List.map_id'' (fun _ => String.toList_ofList) _

/-- A name that has been normalized stays as it is. -/
theorem joinWords_again (value : String) : joinWords (joinWords value) = joinWords value := by
  apply String.toList_injective
  rw [toList_joinWords, toList_joinWords, Wrapping.words_joined _ rfl]

theorem length_joinWords (value : String) : (joinWords value).length ≤ value.length := by
  rw [← String.length_toList, ← String.length_toList, toList_joinWords]
  exact Wrapping.length_joined _ _

/-- What the name of a group is. -/
structure Named (name : String) : Prop where
  normalized : joinWords name = name
  filled : name ≠ ""
  short : name.length ≤ 160

theorem normalizeGroupName_ok {value name : String} (done : normalizeGroupName value = .ok name) (short : value.length ≤ 160) :
    Named name := by
  simp only [normalizeGroupName, raiseGroupIf, bind_eq_ok, raiseIf_eq_ok, pure_eq_ok] at done
  obtain ⟨-, filled, rfl⟩ := done
  exact ⟨joinWords_again value, filled, (length_joinWords value).trans short⟩

end Names

section Invariant
variable {casing : Casing} {store next : GroupStore}

/-- Groups have their own names, whatever their letters, and members belong to groups and employments that exist. -/
structure Tidy (casing : Casing) (store : GroupStore) : Prop where
  named : ∀ group ∈ store.groups, Named group.name
  distinct : ∀ first ∈ store.groups, ∀ second ∈ store.groups, casing.sqlLower first.name = casing.sqlLower second.name → first = second
  numbered : ∀ group ∈ store.groups, group.id < store.nextGroupId
  grouped : ∀ member ∈ store.members, ∃ group ∈ store.groups, group.id = member.groupId
  exist : ∀ member ∈ store.members, Exists store.db member.employmentId

theorem Tidy.empty : Tidy casing .empty where
  named := nofun
  distinct := nofun
  numbered := nofun
  grouped := nofun
  exist := nofun

/-- A group is written over the one with its number, and no other one has its name. -/
theorem Tidy.writeGroup (tidy : Tidy casing store) {group : EmploymentGroup} (named : Named group.name)
    (numbered : group.id < store.nextGroupId) (done : writeGroup casing store group = .ok next) :
    Tidy casing next ∧ group ∈ next.groups := by
  simp only [Groups.writeGroup, bind_eq_ok, raiseIf_eq_ok, pure_eq_ok, not_not] at done
  obtain ⟨-, free, rfl⟩ := done
  have other {first : EmploymentGroup} (member : first ∈ store.groups) (different : first.id ≠ group.id)
      (same : casing.sqlLower first.name = casing.sqlLower group.name) : False := by
    have taken : first ∈ store.groups.select fun other => casing.sqlLower other.name = casing.sqlLower group.name ∧ other.id ≠ group.id :=
      Table.mem_select.mpr ⟨member, same, different⟩
    rw [free] at taken
    cases taken
  refine ⟨⟨?_, ?_, ?_, ?_, tidy.exist⟩, Table.mem_put.mpr (.inl rfl)⟩
  · intro each member
    rcases Table.mem_put.mp member with rfl | ⟨before, -⟩
    · exact named
    · exact tidy.named each before
  · intro first left second right same
    rcases Table.mem_put.mp left with rfl | ⟨one, apart⟩ <;> rcases Table.mem_put.mp right with rfl | ⟨two, different⟩
    · rfl
    · exact (other two different same.symm).elim
    · exact (other one apart same).elim
    · exact tidy.distinct first one second two same
  · intro each member
    rcases Table.mem_put.mp member with rfl | ⟨before, -⟩
    · exact numbered
    · exact tidy.numbered each before
  · intro member inside
    obtain ⟨owner, stored, same⟩ := tidy.grouped member inside
    by_cases mine : owner.id = group.id
    · exact ⟨group, Table.mem_put.mpr (.inl rfl), mine.symm.trans same⟩
    · exact ⟨owner, Table.mem_put.mpr (.inr ⟨stored, mine⟩), same⟩

/-- Members that exist join a group that exists. -/
theorem Tidy.addMembers (tidy : Tidy casing store) {groupId : Int} {ids : List Int} (done : addMembers store groupId ids = .ok next)
    (grouped : ∃ group ∈ store.groups, group.id = groupId) (loaded : ∀ id ∈ ids, Exists store.db id) : Tidy casing next := by
  have counter : next.nextGroupId = store.nextGroupId := by
    simp only [Groups.addMembers, bind_eq_ok, require_eq_ok, pure_eq_ok] at done
    obtain ⟨-, -, rfl⟩ := done
    rfl
  obtain ⟨db, groups, members⟩ := addMembers_ok done
  refine ⟨?_, ?_, ?_, ?_, ?_⟩
  · rw [groups]
    exact tidy.named
  · rw [groups]
    exact tidy.distinct
  · rw [groups, counter]
    exact tidy.numbered
  · intro member inside
    rw [groups]
    rcases (members member).mp inside with before | ⟨same, -⟩
    · exact tidy.grouped member before
    · rw [same]
      exact grouped
  · intro member inside
    rw [db]
    rcases (members member).mp inside with before | ⟨-, listed⟩
    · exact tidy.exist member before
    · exact loaded _ listed

/-- Fewer members are as tidy. -/
theorem Tidy.fewer (tidy : Tidy casing store) (p : EmploymentGroupMember → Prop) [DecidablePred p] :
    Tidy casing { store with members := store.members.deleteWhere p } where
  named := tidy.named
  distinct := tidy.distinct
  numbered := tidy.numbered
  grouped member inside := tidy.grouped member (Table.mem_deleteWhere.mp inside).1
  exist member inside := tidy.exist member (Table.mem_deleteWhere.mp inside).1

theorem Tidy.deleteGroup (tidy : Tidy casing store) (groupId : Int) : Tidy casing (store.deleteGroup groupId) where
  named group member := tidy.named group (Table.mem_deleteWhere.mp member).1
  distinct first left second right := tidy.distinct first (Table.mem_deleteWhere.mp left).1 second (Table.mem_deleteWhere.mp right).1
  numbered group member := tidy.numbered group (Table.mem_deleteWhere.mp member).1
  grouped member inside := by
    obtain ⟨before, different⟩ := mem_deleteGroup.mp inside
    obtain ⟨group, stored, same⟩ := tidy.grouped member before
    exact ⟨group, Table.mem_deleteWhere.mpr ⟨stored, by rw [same]; exact different⟩, same⟩
  exist member inside := tidy.exist member (mem_deleteGroup.mp inside).1

theorem Tidy.createGroup (tidy : Tidy casing store) {name : String} {memberIds : List Int} (short : name.length ≤ 160)
    (done : createGroup casing store name memberIds = .ok next) : Tidy casing next := by
  simp only [Groups.createGroup, bind_eq_ok] at done
  obtain ⟨name, normal, ids, members, _, -, _, loaded, written, wrote, added⟩ := done
  obtain ⟨rfl, -, -⟩ := normalizeMemberIds_ok members
  have counted : Tidy casing { store with nextGroupId := store.nextGroupId + 1 } :=
    ⟨tidy.named, tidy.distinct, fun group member => (tidy.numbered group member).trans (Int.lt_succ _), tidy.grouped, tidy.exist⟩
  obtain ⟨kept, created⟩ := counted.writeGroup (normalizeGroupName_ok normal short) (Int.lt_succ _) wrote
  cases writeGroup_ok wrote
  exact kept.addMembers added ⟨_, created, rfl⟩ (exists_of_loadEmployments loaded)

theorem Tidy.replaceMembers (tidy : Tidy casing store) {groupId : Int} {memberIds : List Int}
    (done : replaceMembers store groupId memberIds = .ok next) : Tidy casing next := by
  simp only [Groups.replaceMembers, bind_eq_ok] at done
  obtain ⟨ids, members, group, got, _, loaded, added⟩ := done
  obtain ⟨rfl, -, -⟩ := normalizeMemberIds_ok members
  exact (tidy.fewer _).addMembers added ⟨group, (getGroup_ok got).1, rfl⟩ (exists_of_loadEmployments loaded)

theorem Tidy.renameGroup (tidy : Tidy casing store) {groupId : Int} {name : String} (short : name.length ≤ 160)
    (done : renameGroup casing store groupId name = .ok next) : Tidy casing next := by
  simp only [Groups.renameGroup, bind_eq_ok] at done
  obtain ⟨group, got, name, normal, -, -, wrote⟩ := done
  have named : Named (⟨group.id, name⟩ : EmploymentGroup).name := normalizeGroupName_ok normal short
  exact (tidy.writeGroup named (tidy.numbered group (getGroup_ok got).1) wrote).1

theorem Tidy.removeMembers (tidy : Tidy casing store) {groupId : Int} {memberIds : List Int} {gone : Bool}
    (done : Groups.removeMembers store groupId memberIds = .ok (next, gone)) : Tidy casing next := by
  simp only [Groups.removeMembers, bind_eq_ok] at done
  obtain ⟨group, -, -, -, done⟩ := done
  have kept := tidy.fewer fun member => member.groupId = group.id ∧ member.employmentId ∈ memberIds
  split_ifs at done with few
  · cases done
    exact kept.deleteGroup group.id
  · cases done
    exact kept

theorem Tidy.removeGroupsForEmployment (tidy : Tidy casing store) {employmentId : Int}
    (done : Groups.removeGroupsForEmployment store employmentId = .ok next) : Tidy casing next := by
  apply foldlM_invariant (Tidy casing) tidy _ done
  intro store groupId left _ tidy turned
  obtain ⟨⟨kept, gone⟩, removed, rfl⟩ := map_eq_ok.mp turned
  exact tidy.removeMembers removed

theorem Tidy.deleteEmployments (tidy : Tidy casing store) (ids : List Int) : Tidy casing (store.deleteEmployments ids) where
  named := tidy.named
  distinct := tidy.distinct
  numbered := tidy.numbered
  grouped member inside := tidy.grouped member (mem_deleteEmployments.mp inside).1
  exist member inside := by
    obtain ⟨before, stays⟩ := mem_deleteEmployments.mp inside
    exact exists_deleteEmployments.mpr ⟨tidy.exist member before, stays⟩

end Invariant

section Runs
variable {zone : Zone} {casing : Casing} {store next : GroupStore}

theorem Tidy.handle (tidy : Tidy casing store) {request : GroupRequest} (done : request.handle zone casing store = .ok next) :
    Tidy casing next := by
  cases request with
  | createGroup name employmentIds =>
    simp only [GroupRequest.handle, bind_eq_ok, raiseIf_eq_ok, mapError_eq_ok, not_lt] at done
    obtain ⟨-, short, -, -, done⟩ := done
    exact tidy.createGroup ((length_joinWords name).trans short) done
  | renameGroup groupId name =>
    simp only [GroupRequest.handle, bind_eq_ok, raiseIf_eq_ok, mapError_eq_ok, not_lt] at done
    obtain ⟨-, short, done⟩ := done
    exact tidy.renameGroup short done
  | replaceMembers groupId employmentIds =>
    simp only [GroupRequest.handle, bind_eq_ok, mapError_eq_ok] at done
    obtain ⟨-, -, done⟩ := done
    exact tidy.replaceMembers done
  | removeMembers groupId employmentIds =>
    simp only [GroupRequest.handle, bind_eq_ok, map_eq_ok, mapError_eq_ok] at done
    obtain ⟨-, -, ⟨left, gone⟩, done, rfl⟩ := done
    exact tidy.removeMembers done
  | deleteGroup groupId =>
    simp only [GroupRequest.handle, bind_eq_ok, mapError_eq_ok, pure_eq_ok] at done
    obtain ⟨group, -, rfl⟩ := done
    exact tidy.deleteGroup group.id
  | deleteEmployment employmentId confirm =>
    simp only [GroupRequest.handle, Groups.deleteEmployment, bind_eq_ok, mapError_eq_ok, pure_eq_ok] at done
    obtain ⟨-, -, employment, -, -, -, removed, left, rfl⟩ := done
    exact (tidy.removeGroupsForEmployment left).deleteEmployments [employment.id]
  | deleteUser userId =>
    simp only [GroupRequest.handle, Groups.deleteUser, bind_eq_ok, require_eq_ok, pure_eq_ok] at done
    obtain ⟨user, -, rfl⟩ := done
    have kept := tidy.deleteEmployments (employmentIdsOf store.db user.id)
    exact ⟨kept.named, kept.distinct, kept.numbered, kept.grouped, kept.exist⟩

theorem Tidy.step (tidy : Tidy casing store) (step : GroupStep zone casing store next) : Tidy casing next := by
  cases step with
  | request request =>
    unfold GroupStore.step
    split
    next done => exact tidy.handle done
    next => exact tidy
  | other db same =>
    refine ⟨tidy.named, tidy.distinct, tidy.numbered, tidy.grouped, ?_⟩
    intro member inside
    obtain ⟨employment, there, named⟩ := tidy.exist member inside
    obtain ⟨now, stored, alike⟩ := same employment there
    exact ⟨now, stored, alike.trans named⟩

theorem tidy_run (reached : Relation.ReflTransGen (GroupStep zone casing) .empty store) : Tidy casing store := by
  induction reached with
  | refl => exact .empty
  | tail _ step ih => exact ih.step step

end Runs

section Listing
variable {casing : Casing} {view : View} {store : GroupStore}

/-- The list of groups, in the order of the query. -/
structure Lists (casing : Casing) (view : View) (store : GroupStore) (collate : String → String → Bool)
    (listed : List EmploymentGroupOut) : Prop where
  groups : (listed.map fun out => (⟨out.id, out.name⟩ : EmploymentGroup)) = store.groups.rows.insertionSort (groupLe collate)
  named : ∀ out ∈ listed, Named out.name
  distinct : (listed.map fun out => casing.sqlLower out.name).Nodup
  ordered : ∀ out ∈ listed, (out.members.map EmploymentGroupMemberOut.employmentId).Pairwise (· < ·)
  members : ∀ out ∈ listed, ∀ id, id ∈ out.members.map EmploymentGroupMemberOut.employmentId ↔ ⟨out.id, id⟩ ∈ store.members
  shown : ∀ out ∈ listed, ∀ member ∈ out.members, ∃ employment ∈ view.db.employments, ∃ user ∈ view.db.users,
    employment.id = member.employmentId ∧ user.id = employment.userId ∧ member.userName = view.columns.userName user.id ∧
      member.title = view.columns.title employment.id ∧ member.displayLabel = employmentLabel view employment

theorem memberOut_eq_ok {member : EmploymentGroupMember} {out : EmploymentGroupMemberOut} :
    memberOut view member = .ok out ↔ ∃ employment, view.db.employments.get member.employmentId = some employment ∧
      ∃ user, view.db.users.get employment.userId = some user ∧
        ⟨member.employmentId, view.columns.userName user.id, view.columns.title employment.id, typeValue employment.employmentType,
          employmentLabel view employment, employment.startDate, employment.endDate⟩ = out := by
  simp only [memberOut, bind_eq_ok, require_eq_ok, pure_eq_ok]

theorem groupOut_eq_ok {group : EmploymentGroup} {out : EmploymentGroupOut} :
    groupOut view store group = .ok out ↔ ∃ members,
      (ordered EmploymentGroupMember.employmentId (store.membersOf group.id)).mapM (memberOut view) = .ok members ∧
        ⟨group.id, group.name, members⟩ = out := by
  simp only [groupOut, bind_eq_ok, pure_eq_ok]

theorem membersOf_strict (groupId : Int) :
    (ordered EmploymentGroupMember.employmentId (store.membersOf groupId)).Pairwise
      fun first second => first.employmentId < second.employmentId := by
  apply ordered_strict
  apply List.Nodup.map_on _ (Table.select_nodup ..)
  intro first left second right same
  obtain ⟨one, firstOf⟩ := mem_membersOf.mp left
  obtain ⟨two, secondOf⟩ := mem_membersOf.mp right
  exact store.members.key_inj one two (Prod.ext (firstOf.trans secondOf.symm) same)

/-- The answer for a group. -/
theorem groupOut_members {group : EmploymentGroup} {out : EmploymentGroupOut} (done : groupOut view store group = .ok out) :
    (⟨out.id, out.name⟩ : EmploymentGroup) = group ∧ out.members.map EmploymentGroupMemberOut.employmentId =
      (ordered EmploymentGroupMember.employmentId (store.membersOf group.id)).map EmploymentGroupMember.employmentId := by
  obtain ⟨members, filled, rfl⟩ := groupOut_eq_ok.mp done
  refine ⟨rfl, ?_⟩
  apply map_eq_of_forall₂ (mapM_ok_forall₂ filled)
  intro member out done
  obtain ⟨-, -, -, -, rfl⟩ := memberOut_eq_ok.mp done
  rfl

theorem groupOut_shown {group : EmploymentGroup} {out : EmploymentGroupOut} (done : groupOut view store group = .ok out) :
    ∀ member ∈ out.members, ∃ employment ∈ view.db.employments, ∃ user ∈ view.db.users,
      employment.id = member.employmentId ∧ user.id = employment.userId ∧ member.userName = view.columns.userName user.id ∧
        member.title = view.columns.title employment.id ∧ member.displayLabel = employmentLabel view employment := by
  obtain ⟨members, filled, rfl⟩ := groupOut_eq_ok.mp done
  intro member listed
  obtain ⟨row, -, answered⟩ := exists_of_forall₂ (mapM_ok_forall₂ filled) listed
  obtain ⟨employment, found, user, owner, rfl⟩ := memberOut_eq_ok.mp answered
  obtain ⟨stored, same⟩ := Table.get_eq_some_iff.mp found
  obtain ⟨account, own⟩ := Table.get_eq_some_iff.mp owner
  exact ⟨employment, stored, user, account, same, own, rfl, rfl, rfl⟩

/-- Where every employment has its account, each group can be listed. -/
theorem groupOut_total (tidy : Tidy casing store)
    (owned : ∀ employment ∈ store.db.employments, store.db.users.get employment.userId ≠ none) (same : view.db = store.db)
    (group : EmploymentGroup) : ∃ out, groupOut view store group = .ok out := by
  have each : ∀ member ∈ ordered EmploymentGroupMember.employmentId (store.membersOf group.id),
      ∃ out, memberOut view member = .ok out := by
    intro member listed
    obtain ⟨inside, -⟩ := mem_membersOf.mp ((List.mem_insertionSort _).mp listed)
    obtain ⟨employment, stored, named⟩ := tidy.exist member inside
    obtain ⟨user, found⟩ := Option.ne_none_iff_exists'.mp (owned employment stored)
    refine ⟨_, memberOut_eq_ok.mpr ⟨employment, ?_, user, ?_, rfl⟩⟩
    · rw [same]
      exact Table.get_eq_some_iff.mpr ⟨stored, named⟩
    · rw [same]
      exact found
  obtain ⟨members, filled⟩ := mapM_ok_iff.mpr each
  exact ⟨_, groupOut_eq_ok.mpr ⟨members, filled, rfl⟩⟩

theorem lists_tidy (tidy : Tidy casing store) {collate : String → String → Bool} {listed : List EmploymentGroupOut}
    (done : adminListEmploymentGroups view store collate = .ok listed) : Lists casing view store collate listed := by
  have beside := mapM_ok_forall₂ done
  have groups : (listed.map fun out => (⟨out.id, out.name⟩ : EmploymentGroup)) = store.groups.rows.insertionSort (groupLe collate) := by
    rw [map_eq_of_forall₂ beside fun group out answered => (groupOut_members answered).1]
    exact List.map_id' _
  have source {out : EmploymentGroupOut} (member : out ∈ listed) :
      ∃ group ∈ store.groups, groupOut view store group = .ok out ∧ (⟨out.id, out.name⟩ : EmploymentGroup) = group := by
    obtain ⟨group, stored, answered⟩ := exists_of_forall₂ beside member
    exact ⟨group, (List.mem_insertionSort _).mp stored, answered, (groupOut_members answered).1⟩
  refine ⟨groups, ?_, ?_, ?_, ?_, ?_⟩
  · intro out member
    obtain ⟨group, stored, -, rfl⟩ := source member
    exact tidy.named _ stored
  · have names : (listed.map fun out => casing.sqlLower out.name) =
        (store.groups.rows.insertionSort (groupLe collate)).map fun group => casing.sqlLower group.name := by
      rw [← groups, List.map_map]
      rfl
    rw [names]
    apply (((List.perm_insertionSort _ _).map _).nodup_iff).mpr
    exact List.Nodup.map_on (fun first left second right => tidy.distinct first left second right) store.groups.nodup
  · intro out member
    obtain ⟨group, -, answered, -⟩ := source member
    rw [(groupOut_members answered).2]
    exact List.pairwise_map.mpr (membersOf_strict group.id)
  · intro out member id
    obtain ⟨group, -, answered, rfl⟩ := source member
    rw [(groupOut_members answered).2, List.mem_map]
    constructor
    · intro found
      obtain ⟨row, inside, rfl⟩ := found
      obtain ⟨stored, mine⟩ := mem_membersOf.mp ((List.mem_insertionSort _).mp inside)
      have moved : (⟨row.groupId, row.employmentId⟩ : EmploymentGroupMember) = ⟨out.id, row.employmentId⟩ := by
        rw [mine]
      rw [← moved]
      exact stored
    · intro stored
      exact ⟨_, (List.mem_insertionSort _).mpr (mem_membersOf.mpr ⟨stored, rfl⟩), rfl⟩
  · intro out member
    obtain ⟨group, -, answered, -⟩ := source member
    exact groupOut_shown answered

end Listing

/-- Whatever is asked of groups, employments and accounts, the list of groups is answered: each group has a name of its
own, and exactly its members are listed. -/
theorem groups_listed {zone : Zone} {casing : Casing} {store : GroupStore} {view : View}
    (reached : Relation.ReflTransGen (GroupStep zone casing) .empty store)
    (owned : ∀ employment ∈ store.db.employments, store.db.users.get employment.userId ≠ none) (same : view.db = store.db)
    (collate : String → String → Bool) :
    ∃ listed, adminListEmploymentGroups view store collate = .ok listed ∧ Lists casing view store collate listed := by
  have tidy := tidy_run reached
  obtain ⟨listed, done⟩ := mapM_ok_iff.mpr fun group (_ : group ∈ store.groups.rows.insertionSort (groupLe collate)) =>
    groupOut_total tidy owned same group
  exact ⟨listed, done, lists_tidy tidy done⟩

/-- The list with the group of all employments. -/
theorem sample_groups_listed : ∃ listed,
    adminListEmploymentGroups (Payloads.Proofs.exportView (grouped [1, 2, 3]).db) (grouped [1, 2, 3])
        (fun first second => first ≤ second) = .ok listed ∧
      Lists sampleCasing (Payloads.Proofs.exportView (grouped [1, 2, 3]).db) (grouped [1, 2, 3]) (fun first second => first ≤ second) listed := by
  have staffed : GroupStep winter sampleCasing .empty { GroupStore.empty with db := staff } := .other staff staff_kept
  have created : GroupStep winter sampleCasing { GroupStore.empty with db := staff } (grouped [1, 2, 3]) := .request _
  have owned : (grouped [1, 2, 3]).db.employments.rows.all
      (fun employment => ((grouped [1, 2, 3]).db.users.get employment.userId).isSome) = true := by decide +kernel
  refine groups_listed ((Relation.ReflTransGen.single staffed).tail created) ?_ rfl _
  intro employment member
  exact Option.ne_none_iff_isSome.mpr (List.all_eq_true.mp owned employment member)

end Dagmar.Groups.Proofs
